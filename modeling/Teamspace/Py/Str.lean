import Mathlib.Data.List.Infix

/-!
# Python string methods

The methods that the services apply to texts, on the characters of a string.
-/

namespace Teamspace.Py

/-- `c.isspace()`, for the characters at which `str.split()` splits. -/
def isSpace (c : Char) : Bool :=
  let n := c.toNat
  (9 ≤ n && n ≤ 13) || (28 ≤ n && n ≤ 32) || n == 0x85 || n == 0xa0 || n == 0x1680 ||
    (0x2000 ≤ n && n ≤ 0x200a) || n == 0x2028 || n == 0x2029 || n == 0x202f || n == 0x205f ||
    n == 0x3000

/-- The words of a text, with the characters of the word being read so far, in reverse. -/
def wordsFrom (word : List Char) : List Char → List (List Char)
  | [] => if word.isEmpty then [] else [word.reverse]
  | c :: cs =>
    if isSpace c then
      if word.isEmpty then wordsFrom [] cs else word.reverse :: wordsFrom [] cs
    else wordsFrom (c :: word) cs

/-- `s.split()`. -/
def split (s : String) : List String := (wordsFrom [] s.toList).map String.ofList

/-- `s.strip()`. -/
def strip (s : String) : String :=
  String.ofList ((s.toList.dropWhile isSpace).reverse.dropWhile isSpace).reverse

/-- Without white space nothing is dropped. -/
theorem dropWhile_of_no_space {s : List Char} (h : ∀ c ∈ s, isSpace c = false) :
    s.dropWhile isSpace = s := by
  cases s with
  | nil => rfl
  | cons c s => rw [List.dropWhile_cons, h c (.head _), if_neg Bool.false_ne_true]

/-- Without white space nothing is stripped. -/
theorem strip_of_no_space {s : String} (h : ∀ c ∈ s.toList, isSpace c = false) : strip s = s := by
  unfold strip
  rw [dropWhile_of_no_space h, dropWhile_of_no_space fun c hc => h c (List.mem_reverse.1 hc),
    List.reverse_reverse, String.ofList_toList]

/-- `s.split(None, 1)`: the first word, and what follows the spaces after it, if there is more. -/
def splitFirst (s : String) : List String :=
  match s.toList.dropWhile isSpace with
  | [] => []
  | c :: cs =>
    let word := (c :: cs).takeWhile fun d => !isSpace d
    match ((c :: cs).drop word.length).dropWhile isSpace with
    | [] => [String.ofList word]
    | rest => [String.ofList word, String.ofList rest]

/-- `part in s`. -/
def contains (s part : String) : Bool := decide (part.toList <:+: s.toList)

/-- `s.startswith(part)`. -/
def startsWith (s part : String) : Bool := decide (part.toList <+: s.toList)

/-- `s.rstrip(c)` for a single character. -/
def rstrip (s : String) (c : Char) : String :=
  String.ofList (s.toList.reverse.dropWhile (· == c)).reverse

/-- `s.split(c, 1)` for a single character: what stands before it, and what follows it if `s` has
it. -/
def splitOnce (s : String) (c : Char) : String × Option String :=
  let before := s.toList.takeWhile (· != c)
  match s.toList.drop before.length with
  | [] => (s, none)
  | _ :: rest => (String.ofList before, some (String.ofList rest))

end Teamspace.Py
