import Teamspace.Py.Json
import Teamspace.Py.Str

/-!
# `int`

The built-in `int` on the values that travel as JSON, and the numerals that it reads: white space
around a sign and digits of any script, with single underscores between them.
-/

namespace Teamspace.Py

/-- The zeros of the scripts that have decimal digits, in Unicode 15.0, which Python 3.12 has. The
other nine follow each. -/
def decimalZeros : List Nat :=
  [0x30, 0x660, 0x6f0, 0x7c0, 0x966, 0x9e6, 0xa66, 0xae6, 0xb66, 0xbe6, 0xc66, 0xce6, 0xd66, 0xde6,
    0xe50, 0xed0, 0xf20, 0x1040, 0x1090, 0x17e0, 0x1810, 0x1946, 0x19d0, 0x1a80, 0x1a90, 0x1b50,
    0x1bb0, 0x1c40, 0x1c50, 0xa620, 0xa8d0, 0xa900, 0xa9d0, 0xa9f0, 0xaa50, 0xabf0, 0xff10, 0x104a0,
    0x10d30, 0x11066, 0x110f0, 0x11136, 0x111d0, 0x112f0, 0x11450, 0x114d0, 0x11650, 0x116c0,
    0x11730, 0x118e0, 0x11950, 0x11c50, 0x11d50, 0x11da0, 0x11f50, 0x16a60, 0x16ac0, 0x16b50,
    0x1d7ce, 0x1d7d8, 0x1d7e2, 0x1d7ec, 0x1d7f6, 0x1e140, 0x1e2f0, 0x1e4f0, 0x1e950, 0x1fbf0]

/-- The value of a decimal digit. -/
def decimalValue (c : Char) : Option Nat :=
  (decimalZeros.find? fun z => z ≤ c.toNat && c.toNat < z + 10).map (c.toNat - ·)

/-- White space around a numeral. The four separators of ASCII do not count. -/
def isNumeralSpace (c : Char) : Bool := isSpace c && !(28 ≤ c.toNat && c.toNat ≤ 31)

/-- The values of digits, with single underscores between them. -/
def numeralDigits : List Char → Option (List Nat)
  | [] => none
  | [c] => (decimalValue c).map fun d => [d]
  | c :: '_' :: s => do return (← decimalValue c) :: (← numeralDigits s)
  | c :: s => do return (← decimalValue c) :: (← numeralDigits s)

/-- The sign of a numeral, and what follows it. -/
def numeralSign : List Char → Bool × List Char
  | '-' :: s => (true, s)
  | '+' :: s => (false, s)
  | s => (false, s)

/-- The most digits that a numeral may have. -/
def maxStrDigits : Nat := 4300

/-- `int(s)` for a string. -/
def intOfStr (s : String) : Except Exn Int :=
  let s := ((s.toList.dropWhile isNumeralSpace).reverse.dropWhile isNumeralSpace).reverse
  let (negative, s) := numeralSign s
  match numeralDigits s with
  | none => .error .valueError
  | some digits =>
    if maxStrDigits < digits.length then .error .valueError
    else
      let n : Nat := digits.foldl (fun n d => 10 * n + d) 0
      .ok (if negative then -(n : Int) else n)

/-- `int(v)`. A `float` loses what is after the point. -/
def int : Json → Except Exn Int
  | .bool b => .ok (if b then 1 else 0)
  | .num (.int n) => .ok n
  | .num (.float q) => .ok (q.num.tdiv q.den)
  | .num .inf | .num .negInf => .error .overflowError
  | .num .nan => .error .valueError
  | .str s => intOfStr s
  | .null | .arr _ | .obj _ => .error .typeError

example : int (.str " -1_000 ") = .ok (-1000) := by decide

end Teamspace.Py
