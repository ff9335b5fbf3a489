import Teamspace.Py.Json

/-!
# Bytes

`str.encode` and the strict `bytes.decode` for UTF-8, and base64: the encoding of RFC 4648 for URLs
without its padding, and `base64.urlsafe_b64decode`, which leaves out what is no digit and ends at
the padding. Bytes are read back from their encoding once it is padded to a multiple of four
(`urlsafeB64decode_base64url`). Bytes, and the code points of a `str`, are numbers, so that a `str`
may have surrogates.
-/

namespace Teamspace.Py

/-! ## UTF-8 -/

/-- `s.encode()`. -/
def encodeUtf8 (s : String) : List Nat := s.toUTF8.data.toList.map UInt8.toNat

/-- `bytes.decode("utf-8")`: a `UnicodeDecodeError` is a `ValueError`. -/
def strictUtf8 (bytes : List Nat) : Except Exn String :=
  match String.fromUTF8? ⟨(bytes.map UInt8.ofNat).toArray⟩ with
  | some s => .ok s
  | none => .error .valueError

/-- UTF-8 consists of bytes. -/
theorem lt_of_mem_encodeUtf8 {s : String} {b : Nat} (h : b ∈ encodeUtf8 s) : b < 256 := by
  obtain ⟨byte, -, rfl⟩ := List.mem_map.1 h
  exact byte.toNat_lt

/-- What is encoded is decoded to itself. -/
theorem strictUtf8_encodeUtf8 (s : String) : strictUtf8 (encodeUtf8 s) = .ok s := by
  have hbytes : (encodeUtf8 s).map UInt8.ofNat = s.toUTF8.data.toList := by
    rw [encodeUtf8, List.map_map]
    simp [Function.comp_def]
  have harray : (⟨((encodeUtf8 s).map UInt8.ofNat).toArray⟩ : ByteArray) = s.toByteArray := by
    rw [hbytes]
    simp
  rw [strictUtf8, harray, String.fromUTF8?, dif_pos s.isValidUTF8]
  rfl

/-! ## Base64 -/

/-- The digit for six bits, in the alphabet for URLs. -/
def digitCode (d : Nat) : Nat :=
  if d < 26 then 'A'.toNat + d
  else if d < 52 then 'a'.toNat + (d - 26)
  else if d < 62 then '0'.toNat + (d - 52)
  else if d = 62 then '-'.toNat
  else '_'.toNat

/-- The bits of bytes in groups of six: four groups for three bytes. -/
def sextets : List Nat → List Nat
  | [] => []
  | [a] => [a / 4, a % 4 * 16]
  | [a, b] => [a / 4, a % 4 * 16 + b / 16, b % 16 * 4]
  | a :: b :: c :: bytes =>
    a / 4 :: (a % 4 * 16 + b / 16) :: (b % 16 * 4 + c / 64) :: c % 64 :: sextets bytes

/-- `base64.urlsafe_b64encode(bytes).decode().rstrip("=")`. -/
def base64url (bytes : List Nat) : List Nat := (sextets bytes).map digitCode

/-- `"=" * (-length % 4)`. -/
def padding (length : Nat) : List Nat := List.replicate (-(length : Int) % 4).toNat '='.toNat

/-- `_urlsafe_decode_translation`. -/
def urlsafeTranslation (b : Nat) : Nat :=
  if b = '-'.toNat then '+'.toNat else if b = '_'.toNat then '/'.toNat else b

/-- The bits of a digit of the standard alphabet. -/
def digitValue (b : Nat) : Option Nat :=
  if 'A'.toNat ≤ b ∧ b ≤ 'Z'.toNat then some (b - 'A'.toNat)
  else if 'a'.toNat ≤ b ∧ b ≤ 'z'.toNat then some (b - 'a'.toNat + 26)
  else if '0'.toNat ≤ b ∧ b ≤ '9'.toNat then some (b - '0'.toNat + 52)
  else if b = '+'.toNat then some 62
  else if b = '/'.toNat then some 63
  else none

/-- How many digits of a group of four have been read, with the bits that do not make a byte yet,
and whether a padding character has followed two digits. -/
inductive Quad
  | start
  | one (left : Nat)
  | two (left : Nat) (padded : Bool)
  | three (left : Nat)
  deriving DecidableEq, Repr

/-- The byte that a digit completes, and the group after it. -/
def Quad.digit : Quad → Nat → Option Nat × Quad
  | .start, d => (none, .one d)
  | .one left, d => (some (left * 4 + d / 16), .two (d % 16) false)
  | .two left _, d => (some (left * 16 + d / 4), .three (d % 4))
  | .three left, d => (some (left * 64 + d), .start)

/-- The group after a padding character, or nothing if the text ends with it. -/
def Quad.pad : Quad → Option Quad
  | .two left false => some (.two left true)
  | .two _ true | .three _ => none
  | q => some q

/-- `binascii.a2b_base64(bytes)`, within a group: a `binascii.Error` is a `ValueError`. -/
def a2bBase64 (q : Quad) : List Nat → Except Exn (List Nat)
  | [] => if q = .start then .ok [] else .error .valueError
  | b :: bytes =>
    if b = '='.toNat then
      match q.pad with
      | none => .ok []
      | some q => a2bBase64 q bytes
    else
      match digitValue b with
      | none => a2bBase64 q bytes
      | some d => (a2bBase64 (q.digit d).2 bytes).map ((q.digit d).1.toList ++ ·)

/-- `base64.urlsafe_b64decode(s)`. -/
def urlsafeB64decode (s : List Nat) : Except Exn (List Nat) :=
  if ∀ c ∈ s, c < 128 then a2bBase64 .start (s.map urlsafeTranslation) else .error .valueError

/-- Bytes are divided into sextets. -/
theorem sextets_lt {bytes : List Nat} (h : ∀ b ∈ bytes, b < 256) : ∀ d ∈ sextets bytes, d < 64 := by
  induction bytes using sextets.induct with
  | case1 => simp [sextets]
  | case2 a =>
    simp only [List.forall_mem_cons] at h
    simp only [sextets, List.forall_mem_cons]
    exact ⟨by omega, by omega, nofun⟩
  | case3 a b =>
    simp only [List.forall_mem_cons] at h
    simp only [sextets, List.forall_mem_cons]
    exact ⟨by omega, by omega, by omega, nofun⟩
  | case4 a b c bytes ih =>
    simp only [List.forall_mem_cons] at h
    obtain ⟨ha, hb, hc, h⟩ := h
    simp only [sextets, List.forall_mem_cons]
    exact ⟨by omega, by omega, by omega, by omega, ih h⟩

/-- What a digit for URLs is: it is of ASCII, it is neither padding nor a dot, and it has the bits
that it was written for. -/
theorem digitCode_spec : ∀ d < 64, digitCode d < 128 ∧ digitCode d ≠ '.'.toNat ∧
    urlsafeTranslation (digitCode d) ≠ '='.toNat ∧
    digitValue (urlsafeTranslation (digitCode d)) = some d := by decide

/-- A digit of base64 is decoded to its sextet. -/
theorem a2bBase64_digit {d : Nat} (hd : d < 64) (q : Quad) (bytes : List Nat) :
    a2bBase64 q (urlsafeTranslation (digitCode d) :: bytes) =
      (a2bBase64 (q.digit d).2 bytes).map ((q.digit d).1.toList ++ ·) := by
  obtain ⟨-, -, hpad, hvalue⟩ := digitCode_spec d hd
  rw [a2bBase64, if_neg hpad, hvalue]

/-- Four more digits need no other padding. -/
theorem padding_add (n : Nat) : padding (n + 4) = padding n := by
  have h : (-((n + 4 : Nat) : Int) % 4).toNat = (-(n : Int) % 4).toNat := by omega
  rw [padding, padding, h]

/-- Bytes are read back from their digits and the padding, group by group. -/
theorem a2bBase64_sextets {bytes : List Nat} (h : ∀ b ∈ bytes, b < 256) :
    a2bBase64 .start ((sextets bytes).map (fun d => urlsafeTranslation (digitCode d)) ++
      padding (sextets bytes).length) = .ok bytes := by
  induction bytes using sextets.induct with
  | case1 => rfl
  | case2 a =>
    simp only [List.forall_mem_cons] at h
    have hpad : padding 2 = ['='.toNat, '='.toNat] := rfl
    simp only [sextets, List.map_cons, List.map_nil, List.cons_append, List.nil_append,
      List.length_cons, List.length_nil]
    rw [a2bBase64_digit (by omega), a2bBase64_digit (by omega), hpad]
    simp only [Quad.digit, Quad.pad, a2bBase64, Except.map, Option.toList, if_true]
    have ha : a / 4 * 4 + a % 4 * 16 / 16 = a := by omega
    rw [ha]
    rfl
  | case3 a b =>
    simp only [List.forall_mem_cons] at h
    have hpad : padding 3 = ['='.toNat] := rfl
    simp only [sextets, List.map_cons, List.map_nil, List.cons_append, List.nil_append,
      List.length_cons, List.length_nil]
    rw [a2bBase64_digit (by omega), a2bBase64_digit (by omega), a2bBase64_digit (by omega), hpad]
    simp only [Quad.digit, Quad.pad, a2bBase64, Except.map, Option.toList, if_true]
    have ha : a / 4 * 4 + (a % 4 * 16 + b / 16) / 16 = a := by omega
    have hb : (a % 4 * 16 + b / 16) % 16 * 16 + b % 16 * 4 / 4 = b := by omega
    rw [ha, hb]
    rfl
  | case4 a b c bytes ih =>
    simp only [List.forall_mem_cons] at h
    obtain ⟨ha, hb, hc, h⟩ := h
    have ha' : a / 4 * 4 + (a % 4 * 16 + b / 16) / 16 = a := by omega
    have hb' : (a % 4 * 16 + b / 16) % 16 * 16 + (b % 16 * 4 + c / 64) / 4 = b := by omega
    have hc' : (b % 16 * 4 + c / 64) % 4 * 64 + c % 64 = c := by omega
    simp only [sextets, List.map_cons, List.cons_append, List.length_cons]
    rw [a2bBase64_digit (by omega), a2bBase64_digit (by omega), a2bBase64_digit (by omega),
      a2bBase64_digit (by omega), padding_add]
    simp only [Quad.digit, Option.toList]
    rw [ih h, ha', hb', hc']
    rfl

/-- What holds of a digit for URLs holds of every code point of an encoding. -/
theorem forall_mem_base64url {bytes : List Nat} (h : ∀ b ∈ bytes, b < 256) :
    ∀ c ∈ base64url bytes, c < 128 ∧ c ≠ '.'.toNat := by
  intro c hc
  obtain ⟨d, hd, rfl⟩ := List.mem_map.1 hc
  obtain ⟨hascii, hdot, -⟩ := digitCode_spec d (sextets_lt h d hd)
  exact ⟨hascii, hdot⟩

/-- **Round trip.** Bytes are read back from their padded encoding, whatever its length. -/
theorem urlsafeB64decode_base64url {bytes : List Nat} (h : ∀ b ∈ bytes, b < 256) :
    urlsafeB64decode (base64url bytes ++ padding (base64url bytes).length) = .ok bytes := by
  have hascii : ∀ c ∈ base64url bytes ++ padding (base64url bytes).length, c < 128 := by
    intro c hc
    rcases List.mem_append.1 hc with hc | hc
    · exact (forall_mem_base64url h c hc).1
    · rw [List.eq_of_mem_replicate hc]
      decide
  have htranslated : ∀ n, (padding n).map urlsafeTranslation = padding n := by
    intro n
    rw [padding, List.map_replicate]
    rfl
  rw [urlsafeB64decode, if_pos hascii, List.map_append, htranslated, base64url, List.map_map,
    List.length_map]
  exact a2bBase64_sextets h

end Teamspace.Py
