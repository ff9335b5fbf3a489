import Mathlib.Data.Nat.Digits.Defs
import Teamspace.Api.Schemas

/-!
# The payloads that `MeetingCreate` accepts

A date is accepted just when it is ten ASCII characters that name a day (`dateIso_none`): the
regular expression takes more, but `date.fromisoformat` rejects the rest. Nothing rejects the rest
of the start times, which are `LooseTime` (`startTimeHhmm_none`). So a meeting is accepted with its
content (`MeetingCreate.validate_iff`), and `meeting_create_exact` says when the accepted payloads
are those that are meant.
-/

namespace Teamspace.Api

open Teamspace.Py Teamspace.Lib

/-! ## What is meant -/

/-- A number below a hundred, in two ASCII digits. -/
def twoDigits (n : Nat) : List Char := [Nat.digitChar (n / 10), Nat.digitChar (n % 10)]

/-- `YYYY-MM-DD` in ASCII, for a day of the calendar. -/
def IsDate (s : String) : Prop :=
  ∃ year month day, (1 ≤ year ∧ year ≤ 9999) ∧ (1 ≤ month ∧ month ≤ 12) ∧
    (1 ≤ day ∧ day ≤ daysInMonth year month) ∧
    s.toList = twoDigits (year / 100) ++ twoDigits (year % 100) ++ '-' :: twoDigits month ++
      '-' :: twoDigits day

/-- `HH:MM` in ASCII, from `00:00` to `23:59`. -/
def IsTime (s : String) : Prop :=
  ∃ hour minute, hour < 24 ∧ minute < 60 ∧ s.toList = twoDigits hour ++ ':' :: twoDigits minute

/-- A text of the form `HH:MM` in which a second digit is not ASCII, or which ends in a line
break. -/
def LooseTime (s : String) : Prop :=
  ∃ h₁ h₂ m₁ m₂ rest, s.toList = h₁ :: h₂ :: ':' :: m₁ :: m₂ :: rest ∧
    ((h₁ = '0' ∨ h₁ = '1') ∧ isDecimal h₂ = true ∨ h₁ = '2' ∧ '0' ≤ h₂ ∧ h₂ ≤ '3') ∧
    ('0' ≤ m₁ ∧ m₁ ≤ '5') ∧ isDecimal m₂ = true ∧ (rest = [] ∨ rest = ['\n']) ∧
    (h₂.isDigit = false ∨ m₂.isDigit = false ∨ rest = ['\n'])

/-- The meeting is one that is meant, but for its start time. -/
structure Regular (zones : List String) (data : MeetingCreate) : Prop where
  topic_length : data.topic.length ≤ 500
  topic_safe : ∀ c ∈ data.topic.toList, c ∉ forbiddenTopicChars
  date : IsDate data.date
  duration : 1 ≤ data.duration ∧ data.duration ≤ 480
  timeZone : data.timeZone ∈ zones

/-- The meeting is one that is meant. -/
structure Intended (zones : List String) (data : MeetingCreate) : Prop
    extends Regular zones data where
  startTime : IsTime data.startTime

/-- A payload of four texts and a duration that is an integer or a text. -/
structure IsPayload (body : Dict) (topic date startTime : String) (duration : Json)
    (timeZone : String) : Prop where
  isNumber : (∃ n, duration = .num (.int n)) ∨ ∃ s, duration = .str s
  topic : Dict.get body "topic" = some (.str topic)
  date : Dict.get body "date" = some (.str date)
  startTime : Dict.get body "start_time" = some (.str startTime)
  duration : Dict.get body "duration" = some duration
  timeZone : Dict.get body "time_zone" = some (.str timeZone)

/-- The payload is accepted just when it is one that is meant, with what it means. -/
def AcceptedAsIntended (zones : List String) (body : Dict) (topic date startTime : String)
    (duration : Json) (timeZone : String) : Prop :=
  ∀ value, validate (MeetingCreate.fields zones) body = .ok value ↔
    ∃ n, int duration = .ok n ∧ Intended zones ⟨topic, date, startTime, n, timeZone⟩ ∧
      value = MeetingCreate.dump ⟨topic, date, startTime, n, timeZone⟩

/-! ## Digits -/

/-- A digit stands for a number below ten. -/
theorem digitChar_of_isDigit {c : Char} (h : c.isDigit = true) : ∃ n < 10, c = Nat.digitChar n := by
  have hle : 48 ≤ c.toNat ∧ c.toNat ≤ 57 := by
    simpa [Char.isDigit, Char.le_def, UInt32.le_iff_toNat_le] using h
  have hall : ∀ n < 58, 48 ≤ n → ∃ k < 10, Char.ofNat n = Nat.digitChar k := by decide +kernel
  obtain ⟨k, hk, hc⟩ := hall c.toNat (by omega) hle.1
  exact ⟨k, hk, by rw [← hc, Char.ofNat_toNat]⟩

/-- Such a digit is decimal. -/
theorem isDecimal_digitChar {n : Nat} (h : n < 10) : isDecimal (Nat.digitChar n) = true := by
  have hall : ∀ n < 10, isDecimal (Nat.digitChar n) = true := by decide +kernel
  exact hall n h

/-- The decimal digits of one byte are those of ASCII. -/
theorem isDigit_of_isDecimal {c : Char} (h : isDecimal c = true) (hsize : c.utf8Size = 1) :
    c.isDigit = true := by
  have hlt : c.toNat < 128 :=
    Nat.lt_succ_of_le (UInt32.le_iff_toNat_le.1 (Char.utf8Size_eq_one_iff.1 hsize))
  have hall : ∀ n < 128, isDecimal (Char.ofNat n) = true → (Char.ofNat n).isDigit = true := by
    decide +kernel
  have := hall c.toNat hlt
  rw [Char.ofNat_toNat] at this
  exact this h

/-- Two digits count hundred times what stands before them. -/
theorem ofDigitChars_twoDigits {n : Nat} (h : n < 100) (init : Nat) :
    Nat.ofDigitChars 10 (twoDigits n) init = 100 * init + n := by
  unfold twoDigits
  rw [Nat.ofDigitChars_cons_digitChar_of_lt_ten (by omega),
    Nat.ofDigitChars_cons_digitChar_of_lt_ten (by omega), Nat.ofDigitChars_nil]
  omega

/-- Two digits are read as the number. -/
theorem asciiNumber_twoDigits {n : Nat} (h : n < 100) : asciiNumber (twoDigits n) = n := by
  rw [asciiNumber, ofDigitChars_twoDigits h, Nat.mul_zero, Nat.zero_add]

/-- Two digits are the tens and the ones. -/
theorem twoDigits_two {a b : Nat} (hb : b < 10) :
    twoDigits (10 * a + b) = [Nat.digitChar a, Nat.digitChar b] := by
  have h₁ : (10 * a + b) / 10 = a := by omega
  have h₂ : (10 * a + b) % 10 = b := by omega
  rw [twoDigits, h₁, h₂]

/-! ## Dates -/

/-- The form that `_ISO_DATE_RE` asks for. -/
theorem isoDateMatch_eq {s : String} (h : isoDateMatch s = true) :
    ∃ y₁ y₂ y₃ y₄ m₁ m₂ d₁ d₂ rest,
      s.toList = y₁ :: y₂ :: y₃ :: y₄ :: '-' :: m₁ :: m₂ :: '-' :: d₁ :: d₂ :: rest ∧
        ∀ c ∈ [y₁, y₂, y₃, y₄, m₁, m₂, d₁, d₂], isDecimal c = true := by
  unfold isoDateMatch at h
  split at h
  · next y₁ y₂ y₃ y₄ sep m₁ m₂ sep' d₁ d₂ rest hs =>
    simp only [Bool.and_eq_true, beq_iff_eq] at h
    obtain ⟨⟨⟨hall, rfl⟩, rfl⟩, -⟩ := h
    exact ⟨y₁, y₂, y₃, y₄, m₁, m₂, d₁, d₂, rest, hs, List.all_eq_true.1 hall⟩
  · cases h

/-- A text has no fewer bytes than characters, and with no more bytes it is ASCII. -/
theorem length_le_utf8Size (s : List Char) :
    s.length ≤ (s.map Char.utf8Size).sum ∧
      ((s.map Char.utf8Size).sum = s.length → ∀ c ∈ s, c.utf8Size = 1) := by
  induction s with
  | nil => exact ⟨le_refl _, fun _ => nofun⟩
  | cons c s ih =>
    rw [List.map_cons, List.sum_cons, List.length_cons]
    have hpos := Char.utf8Size_pos c
    refine ⟨by omega, fun h => List.forall_mem_cons.2 ⟨by omega, ih.2 (by omega)⟩⟩

/-- A text of ten bytes that `_ISO_DATE_RE` matches is ASCII. -/
theorem ascii_of_isoDateMatch {s : String} (h : isoDateMatch s = true)
    (hsize : (s.toList.map Char.utf8Size).sum = 10) :
    ∃ a b m d, (a < 100 ∧ b < 100) ∧ m < 100 ∧ d < 100 ∧
      s.toList = twoDigits a ++ twoDigits b ++ '-' :: twoDigits m ++ '-' :: twoDigits d := by
  obtain ⟨y₁, y₂, y₃, y₄, m₁, m₂, d₁, d₂, rest, hs, hall⟩ := isoDateMatch_eq h
  obtain ⟨hlen, hone⟩ := length_le_utf8Size s.toList
  have hlength : s.toList.length = 10 + rest.length := by
    rw [hs]
    simp only [List.length_cons]
    omega
  obtain rfl : rest = [] := List.length_eq_zero_iff.1 (by omega)
  have hone := hone (hsize.trans hlength.symm)
  have hdigit : ∀ c ∈ [y₁, y₂, y₃, y₄, m₁, m₂, d₁, d₂], ∃ n < 10, c = Nat.digitChar n := by
    intro c hc
    refine digitChar_of_isDigit (isDigit_of_isDecimal (hall c hc) (hone c ?_))
    rw [hs]
    simp only [List.mem_cons, List.not_mem_nil, or_false] at hc ⊢
    tauto
  simp only [List.forall_mem_cons] at hdigit
  obtain ⟨⟨a, ha, rfl⟩, ⟨b, hb, rfl⟩, ⟨c, hc, rfl⟩, ⟨d, hd, rfl⟩, ⟨e, he, rfl⟩, ⟨f, hf, rfl⟩,
    ⟨g, hg, rfl⟩, ⟨k, hk, rfl⟩, -⟩ := hdigit
  refine ⟨10 * a + b, 10 * c + d, 10 * e + f, 10 * g + k, ⟨by omega, by omega⟩, by omega,
    by omega, ?_⟩
  rw [hs, twoDigits_two hb, twoDigits_two hd, twoDigits_two hf, twoDigits_two hk]
  rfl

/-- No month has more than 31 days. -/
theorem daysInMonth_le (year month : Nat) : daysInMonth year month ≤ 31 := by
  unfold daysInMonth
  split
  · split <;> omega
  · split <;> omega

/-- Two digits are decimal. -/
theorem isDecimal_twoDigits {n : Nat} (h : n < 100) : ∀ c ∈ twoDigits n, isDecimal c = true :=
  List.forall_mem_cons.2 ⟨isDecimal_digitChar (by omega),
    List.forall_mem_singleton.2 (isDecimal_digitChar (by omega))⟩

/-- `date.fromisoformat` on ASCII digits. -/
theorem dateFromIsoformat_ascii {s : String} {a b m d : Nat} (ha : a < 100) (hb : b < 100)
    (hm : m < 100) (hd : d < 100)
    (hs : s.toList = twoDigits a ++ twoDigits b ++ '-' :: twoDigits m ++ '-' :: twoDigits d) :
    dateFromIsoformat s = none ↔ 1 ≤ 100 * a + b ∧ (1 ≤ m ∧ m ≤ 12) ∧
      1 ≤ d ∧ d ≤ daysInMonth (100 * a + b) m := by
  have hsize : (s.toList.map Char.utf8Size).sum = 10 := by
    have hdigit {n : Nat} (hn : n < 10) : (Nat.digitChar n).utf8Size = 1 := by
      have hall : ∀ n < 10, (Nat.digitChar n).utf8Size = 1 := by decide +kernel
      exact hall n hn
    have htwo {n : Nat} (hn : n < 100) : ((twoDigits n).map Char.utf8Size).sum = 2 := by
      unfold twoDigits
      simp only [List.map_cons, List.map_nil, List.sum_cons, List.sum_nil,
        hdigit (n := n / 10) (by omega), hdigit (n := n % 10) (by omega)]
      rfl
    have hsep : Char.utf8Size '-' = 1 := rfl
    rw [hs]
    simp only [List.map_append, List.map_cons, List.sum_append, List.sum_cons, htwo ha, htwo hb,
      htwo hm, htwo hd, hsep]
  have hyear : asciiNumber (s.toList.take 4) = 100 * a + b := by
    have htake : s.toList.take 4 = twoDigits a ++ twoDigits b := by
      rw [hs]
      rfl
    rw [htake, asciiNumber, Nat.ofDigitChars_append, ofDigitChars_twoDigits ha,
      ofDigitChars_twoDigits hb]
    omega
  have hmonth : asciiNumber ((s.toList.drop 5).take 2) = m := by
    have hdrop : (s.toList.drop 5).take 2 = twoDigits m := by
      rw [hs]
      rfl
    rw [hdrop, asciiNumber_twoDigits hm]
  have hday : asciiNumber (s.toList.drop 8) = d := by
    have hdrop : s.toList.drop 8 = twoDigits d := by
      rw [hs]
      rfl
    rw [hdrop, asciiNumber_twoDigits hd]
  unfold dateFromIsoformat
  simp only [hyear, hmonth, hday, hsize]
  split
  · next h => exact absurd rfl h
  · split
    · next h => exact iff_of_false nofun fun hd => by omega
    · next hy =>
      split
      · next h => exact iff_of_false nofun fun hd => h hd.2.1
      · next hm =>
        split
        · next h => exact iff_of_false nofun fun hd => h hd.2.2
        · next hd => exact iff_of_true rfl ⟨by omega, not_not.1 hm, not_not.1 hd⟩

/-- The validator of dates accepts the days of the calendar. -/
theorem dateIso_none {s : String} : dateIso s = none ↔ IsDate s := by
  unfold dateIso
  constructor
  · intro h
    split at h
    · next hmatch =>
      have h : dateFromIsoformat s = none := Option.map_eq_none_iff.1 h
      have hsize : (s.toList.map Char.utf8Size).sum = 10 := by
        by_contra hne
        rw [dateFromIsoformat, if_pos hne] at h
        cases h
      obtain ⟨a, b, m, d, ⟨ha, hb⟩, hm, hd, hs⟩ := ascii_of_isoDateMatch hmatch hsize
      obtain ⟨hy, hmonth, hday⟩ := (dateFromIsoformat_ascii ha hb hm hd hs).1 h
      have hyear : (100 * a + b) / 100 = a ∧ (100 * a + b) % 100 = b := by omega
      refine ⟨100 * a + b, m, d, ⟨hy, by omega⟩, hmonth, hday, ?_⟩
      rw [hyear.1, hyear.2]
      exact hs
    · cases h
  · rintro ⟨year, month, day, hyear, hmonth, hday, hs⟩
    have hle := daysInMonth_le year month
    have hmatch : isoDateMatch s = true := by
      have h₁ := isDecimal_twoDigits (n := year / 100) (by omega)
      have h₂ := isDecimal_twoDigits (n := year % 100) (by omega)
      have h₃ := isDecimal_twoDigits (n := month) (by omega)
      have h₄ := isDecimal_twoDigits (n := day) (by omega)
      unfold isoDateMatch
      rw [hs]
      simp only [twoDigits, List.cons_append, List.nil_append, List.forall_mem_cons] at h₁ h₂ h₃ h₄ ⊢
      simp only [List.all_cons, List.all_nil, h₁, h₂, h₃, h₄]
      rfl
    rw [if_pos hmatch, Option.map_eq_none_iff]
    have hsame : 100 * (year / 100) + year % 100 = year := by omega
    refine (dateFromIsoformat_ascii (by omega) (by omega) (by omega) (by omega) hs).2 ?_
    rw [hsame]
    exact ⟨hyear.1, hmonth, hday⟩

/-! ## Start times -/

/-- Digits are ordered as their numbers. -/
theorem digitChar_le {a b : Nat} (ha : a < 10) (hb : b < 10) :
    Nat.digitChar a ≤ Nat.digitChar b ↔ a ≤ b := by
  have hall : ∀ a < 10, ∀ b < 10, Nat.digitChar a ≤ Nat.digitChar b ↔ a ≤ b := by decide +kernel
  exact hall a ha b hb

/-- The character of a number below ten is a digit. -/
theorem isDigit_digitChar_of_lt {n : Nat} (h : n < 10) : (Nat.digitChar n).isDigit = true := by
  rw [Nat.isDigit_digitChar]
  exact decide_eq_true h

/-- What lies between two digits is one. -/
theorem isDigit_of_between {c : Char} {a b : Nat} (ha : a < 10) (hb : b < 10)
    (h : Nat.digitChar a ≤ c ∧ c ≤ Nat.digitChar b) :
    ∃ n, (a ≤ n ∧ n ≤ b) ∧ c = Nat.digitChar n := by
  have hdigit : c.isDigit = true := by
    have h0 : '0' ≤ c := Char.le_trans ((digitChar_le (a := 0) (by omega) ha).2 (Nat.zero_le a)) h.1
    have h9 : c ≤ '9' := Char.le_trans h.2 ((digitChar_le (b := 9) hb (by omega)).2 (by omega))
    exact Bool.and_eq_true_iff.2 ⟨decide_eq_true h0, decide_eq_true h9⟩
  obtain ⟨n, hn, rfl⟩ := digitChar_of_isDigit hdigit
  exact ⟨n, ⟨(digitChar_le ha hn).1 h.1, (digitChar_le hn hb).1 h.2⟩, rfl⟩

/-- The form that `_ISO_TIME_RE` asks for. -/
theorem isoTimeMatch_iff {s : String} : isoTimeMatch s = true ↔
    ∃ h₁ h₂ m₁ m₂ rest, s.toList = h₁ :: h₂ :: ':' :: m₁ :: m₂ :: rest ∧
      ((h₁ = '0' ∨ h₁ = '1') ∧ isDecimal h₂ = true ∨ h₁ = '2' ∧ '0' ≤ h₂ ∧ h₂ ≤ '3') ∧
      ('0' ≤ m₁ ∧ m₁ ≤ '5') ∧ isDecimal m₂ = true ∧ (rest = [] ∨ rest = ['\n']) := by
  unfold isoTimeMatch atEnd
  constructor
  · intro h
    split at h
    · next h₁ h₂ sep m₁ m₂ rest hs =>
      simp only [Bool.and_eq_true, Bool.or_eq_true, beq_iff_eq, decide_eq_true_eq] at h
      obtain ⟨⟨⟨⟨⟨hhour, rfl⟩, hm⟩, hm'⟩, hm₂⟩, hrest⟩ := h
      refine ⟨h₁, h₂, m₁, m₂, rest, hs, ?_, ⟨hm, hm'⟩, hm₂, hrest⟩
      rwa [and_assoc] at hhour
    · cases h
  · rintro ⟨h₁, h₂, m₁, m₂, rest, hs, hhour, ⟨hm, hm'⟩, hm₂, hrest⟩
    rw [hs]
    simp only [Bool.and_eq_true, Bool.or_eq_true, beq_iff_eq, decide_eq_true_eq]
    rw [← and_assoc] at hhour
    exact ⟨⟨⟨⟨⟨hhour, trivial⟩, hm⟩, hm'⟩, hm₂⟩, hrest⟩

/-- What the form asks for of the two digits of an hour, in ASCII. -/
theorem hour_digits {h₁ h₂ : Char} (hdigit : h₂.isDigit = true)
    (h : (h₁ = '0' ∨ h₁ = '1') ∧ isDecimal h₂ = true ∨ h₁ = '2' ∧ '0' ≤ h₂ ∧ h₂ ≤ '3') :
    ∃ hour < 24, [h₁, h₂] = twoDigits hour := by
  rcases h with ⟨h₁, -⟩ | ⟨rfl, hle⟩
  · obtain ⟨n, hn, rfl⟩ := digitChar_of_isDigit hdigit
    rcases h₁ with rfl | rfl
    · exact ⟨10 * 0 + n, by omega, (twoDigits_two (a := 0) hn).symm⟩
    · exact ⟨10 * 1 + n, by omega, (twoDigits_two (a := 1) hn).symm⟩
  · obtain ⟨n, hn, rfl⟩ := isDigit_of_between (a := 0) (b := 3) (by omega) (by omega) hle
    have hlt : n < 10 := by omega
    exact ⟨10 * 2 + n, by omega, (twoDigits_two (a := 2) hlt).symm⟩

/-- A start time is accepted when it is one, and when it is loosely one. -/
theorem startTimeHhmm_none {s : String} :
    startTimeHhmm s = none ↔ IsTime s ∨ LooseTime s := by
  have hmatch : startTimeHhmm s = none ↔ isoTimeMatch s = true := by
    unfold startTimeHhmm
    split
    · next h => exact iff_of_true rfl h
    · next h => exact iff_of_false nofun h
  rw [hmatch, isoTimeMatch_iff]
  constructor
  · rintro ⟨h₁, h₂, m₁, m₂, rest, hs, hhour, hm, hm₂, hrest⟩
    by_cases hloose : h₂.isDigit = false ∨ m₂.isDigit = false ∨ rest = ['\n']
    · exact .inr ⟨h₁, h₂, m₁, m₂, rest, hs, hhour, hm, hm₂, hrest, hloose⟩
    · simp only [not_or, Bool.not_eq_false] at hloose
      obtain ⟨hdigit, hdigit', hbreak⟩ := hloose
      obtain ⟨hour, hlt, hour_eq⟩ := hour_digits hdigit hhour
      obtain ⟨a, ha, rfl⟩ := isDigit_of_between (a := 0) (b := 5) (by omega) (by omega) hm
      obtain ⟨b, hb, rfl⟩ := digitChar_of_isDigit hdigit'
      obtain rfl := hrest.resolve_right hbreak
      refine .inl ⟨hour, 10 * a + b, hlt, by omega, ?_⟩
      rw [hs, ← hour_eq, twoDigits_two hb]
      rfl
  · rintro (⟨hour, minute, hh, hm, hs⟩ | ⟨h₁, h₂, m₁, m₂, rest, hs, hhour, hm, hm₂, hrest, -⟩)
    · refine ⟨_, _, _, _, [], hs, ?_, ⟨?_, ?_⟩, isDecimal_digitChar (by omega), .inl rfl⟩
      · have hall : ∀ hour < 24, (Nat.digitChar (hour / 10) = '0' ∨ Nat.digitChar (hour / 10) = '1') ∧
            isDecimal (Nat.digitChar (hour % 10)) = true ∨ Nat.digitChar (hour / 10) = '2' ∧
              '0' ≤ Nat.digitChar (hour % 10) ∧ Nat.digitChar (hour % 10) ≤ '3' := by decide +kernel
        exact hall hour hh
      · exact (digitChar_le (a := 0) (by omega) (by omega)).2 (Nat.zero_le _)
      · exact (digitChar_le (b := 5) (by omega) (by omega)).2 (by omega)
    · exact ⟨h₁, h₂, m₁, m₂, rest, hs, hhour, hm, hm₂, hrest⟩

/-- A loose start time is none of those that are meant. -/
theorem LooseTime.not_isTime {s : String} (h : LooseTime s) : ¬ IsTime s := by
  rintro ⟨hour, minute, hh, hm, hs⟩
  obtain ⟨h₁, h₂, m₁, m₂, rest, hs', -, -, -, -, hloose⟩ := h
  have heq := hs'.symm.trans hs
  unfold twoDigits at heq
  simp only [List.cons_append, List.nil_append, List.cons.injEq] at heq
  obtain ⟨-, rfl, -, -, rfl, rfl⟩ := heq
  have hd := isDigit_digitChar_of_lt (n := hour % 10) (by omega)
  have hd' := isDigit_digitChar_of_lt (n := minute % 10) (by omega)
  rcases hloose with h | h | h
  · rw [hd] at h
    cases h
  · rw [hd'] at h
    cases h
  · cases h

/-! ## Payloads -/

/-- A topic is safe exactly if none of its characters is forbidden. -/
theorem topicSafe_none {s : String} :
    topicSafe s = none ↔ ∀ c ∈ s.toList, c ∉ forbiddenTopicChars := by
  have hbad : (s.toList.filter fun c => c ∈ forbiddenTopicChars).mergeSort (· ≤ ·) = [] ↔
      ∀ c ∈ s.toList, c ∉ forbiddenTopicChars := by
    rw [← List.length_eq_zero_iff, List.length_mergeSort, List.length_eq_zero_iff,
      List.filter_eq_nil_iff]
    simp only [decide_eq_true_eq]
  rw [← hbad]
  unfold topicSafe
  dsimp only
  split
  · next h => exact iff_of_true rfl h
  · next h => exact iff_of_false nofun h

/-- A time zone is known exactly if it is among the zones. -/
theorem timeZoneKnown_none {zones : List String} {s : String} :
    timeZoneKnown zones s = none ↔ s ∈ zones := by
  unfold timeZoneKnown
  split
  · next h => exact iff_of_true rfl h
  · next h => exact iff_of_false nofun h

/-- A text with a validator is kept, or rejected. -/
theorem read_text {f : Field} {maxLength : Option Nat} {validator : String → Option String}
    (hf : f.check = (strCheck maxLength).after validator) {body : Dict} {s : String}
    (h : Dict.get body f.name = some (.str s)) {w : Json} :
    f.read body = .ok w ↔ w = .str s ∧ (∀ n ∈ maxLength, s.length ≤ n) ∧ validator s = none := by
  rw [Field.read_some h, hf, Check.after_str fun hw => (strCheck_str.1 hw).2, strCheck_str]
  tauto

/-- The duration that is accepted is what `int` makes of it, within the bounds. -/
theorem duration_ok {v w : Json} (h : (∃ n, v = .num (.int n)) ∨ ∃ s, v = .str s) :
    (durationCoerce v >>= intCheck 1 480) = .ok w ↔
      ∃ n, int v = .ok n ∧ (1 ≤ n ∧ n ≤ 480) ∧ w = .num (.int n) := by
  rcases h with ⟨n, rfl⟩ | ⟨s, rfl⟩
  · refine (boundedInt_ok (n := n)).trans ⟨fun h => ⟨n, rfl, h⟩, ?_⟩
    rintro ⟨m, hm, h⟩
    cases hm
    exact h
  · change (durationOfText s >>= intCheck 1 480) = .ok w ↔
      ∃ n, intOfStr s = .ok n ∧ (1 ≤ n ∧ n ≤ 480) ∧ w = .num (.int n)
    unfold durationOfText
    cases intOfStr s with
    | error e => exact iff_of_false nofun fun ⟨_, h, _⟩ => nomatch h
    | ok n =>
      refine (boundedInt_ok (n := n)).trans ⟨fun h => ⟨n, rfl, h⟩, ?_⟩
      rintro ⟨m, hm, h⟩
      cases hm
      exact h

/-- The accepted payloads, and what they become. -/
theorem MeetingCreate.validate_iff {zones : List String} {body : Dict}
    {topic date startTime timeZone : String} {duration : Json}
    (hp : IsPayload body topic date startTime duration timeZone) {value : Dict} :
    validate (MeetingCreate.fields zones) body = .ok value ↔
      ∃ n, int duration = .ok n ∧ Regular zones ⟨topic, date, startTime, n, timeZone⟩ ∧
        (IsTime startTime ∨ LooseTime startTime) ∧
        value = MeetingCreate.dump ⟨topic, date, startTime, n, timeZone⟩ := by
  rw [validate_ok]
  unfold MeetingCreate.fields
  simp only [List.forall₂_cons_left_iff, List.forall₂_nil_left_iff]
  constructor
  · rintro ⟨_, _, ⟨v₁, h₁, rfl⟩, ⟨_, _, ⟨v₂, h₂, rfl⟩, ⟨_, _, ⟨v₃, h₃, rfl⟩, ⟨_, _, ⟨v₄, h₄, rfl⟩,
      ⟨_, _, ⟨v₅, h₅, rfl⟩, rfl, rfl⟩, rfl⟩, rfl⟩, rfl⟩, rfl⟩
    obtain ⟨rfl, hlen, hsafe⟩ := (read_text rfl hp.topic).1 h₁
    obtain ⟨rfl, -, hdate⟩ := (read_text rfl hp.date).1 h₂
    obtain ⟨rfl, -, htime⟩ := (read_text rfl hp.startTime).1 h₃
    obtain ⟨n, hn, hbounds, rfl⟩ :=
      (duration_ok hp.isNumber).1 ((Field.read_some hp.duration).1 h₄)
    obtain ⟨rfl, -, hzone⟩ := (read_text rfl hp.timeZone).1 h₅
    exact ⟨n, hn, ⟨hlen 500 rfl, topicSafe_none.1 hsafe, dateIso_none.1 hdate, hbounds,
      timeZoneKnown_none.1 hzone⟩, startTimeHhmm_none.1 htime, rfl⟩
  · rintro ⟨n, hn, ⟨hlen, hsafe, hdate, hbounds, hzone⟩, htime, rfl⟩
    refine ⟨_, _, ⟨_, (read_text rfl hp.topic).2 ⟨rfl, ?_, topicSafe_none.2 hsafe⟩, rfl⟩, ⟨_, _,
      ⟨_, (read_text rfl hp.date).2 ⟨rfl, nofun, dateIso_none.2 hdate⟩, rfl⟩, ⟨_, _,
      ⟨_, (read_text rfl hp.startTime).2 ⟨rfl, nofun, startTimeHhmm_none.2 htime⟩, rfl⟩, ⟨_, _,
      ⟨_, (Field.read_some hp.duration).2 ((duration_ok hp.isNumber).2 ⟨n, hn, hbounds, rfl⟩), rfl⟩,
      ⟨_, _, ⟨_, (read_text rfl hp.timeZone).2 ⟨rfl, nofun, timeZoneKnown_none.2 hzone⟩, rfl⟩, rfl,
      rfl⟩, rfl⟩, rfl⟩, rfl⟩, rfl⟩
    rintro m ⟨⟩
    exact hlen

/-- A required field reads what its check accepts. -/
theorem Field.check_of_read {f : Field} (hf : f.default = none) {body : Dict} {w : Json}
    (h : f.read body = .ok w) : ∃ v, f.check v = .ok w := by
  cases hv : Dict.get body f.name with
  | some v => exact ⟨v, (Field.read_some hv).1 h⟩
  | none =>
    rw [Field.read, hv, hf] at h
    cases h

/-- A text that is accepted is not too long, and does not make its validator raise. -/
theorem validator_of_accepted {maxLength : Option Nat} {validator : String → Option String}
    {v : Json} {s : String} (h : (strCheck maxLength).after validator v = .ok (.str s)) :
    (∀ n ∈ maxLength, s.length ≤ n) ∧ validator s = none := by
  have hstr : ∃ t, v = .str t := by
    cases v with
    | str t => exact ⟨t, rfl⟩
    | null | bool | num | arr | obj => cases h
  obtain ⟨t, rfl⟩ := hstr
  obtain ⟨hcheck, hnone⟩ := (Check.after_str fun hw => (strCheck_str.1 hw).2).1 h
  obtain ⟨hlength, hs⟩ := strCheck_str.1 hcheck
  cases hs
  exact ⟨hlength, hnone⟩

/-- What is accepted of any body is a meeting that is meant, but for its start time. -/
theorem MeetingCreate.of_validate {zones : List String} {body : Dict} {data : MeetingCreate}
    (h : validate (MeetingCreate.fields zones) body = .ok data.dump) :
    Regular zones data ∧ (IsTime data.startTime ∨ LooseTime data.startTime) := by
  rw [validate_ok] at h
  unfold MeetingCreate.fields MeetingCreate.dump at h
  simp only [List.forall₂_cons, Prod.mk.injEq] at h
  obtain ⟨⟨_, htopic, -, rfl⟩, ⟨_, hdate, -, rfl⟩, ⟨_, htime, -, rfl⟩, ⟨_, hduration, -, rfl⟩,
    ⟨_, hzone, -, rfl⟩, -⟩ := h
  obtain ⟨_, htopic⟩ := Field.check_of_read rfl htopic
  obtain ⟨_, hdate⟩ := Field.check_of_read rfl hdate
  obtain ⟨_, htime⟩ := Field.check_of_read rfl htime
  obtain ⟨v, hduration⟩ := Field.check_of_read rfl hduration
  obtain ⟨_, hzone⟩ := Field.check_of_read rfl hzone
  obtain ⟨hlength, hsafe⟩ := validator_of_accepted htopic
  obtain ⟨u, -, hint⟩ := ok_of_bind hduration
  obtain ⟨n, hbounds, hn⟩ := intCheck_ok hint
  cases hn
  exact ⟨⟨hlength 500 rfl, topicSafe_none.1 hsafe, dateIso_none.1 (validator_of_accepted hdate).2,
    hbounds, timeZoneKnown_none.1 (validator_of_accepted hzone).2⟩,
    startTimeHhmm_none.1 (validator_of_accepted htime).2⟩

/-- A payload is accepted as intended unless its start time is loosely one, and nothing else in it
is rejected. -/
theorem meeting_create_exact {zones : List String} {body : Dict}
    {topic date startTime timeZone : String} {duration : Json}
    (hp : IsPayload body topic date startTime duration timeZone) :
    AcceptedAsIntended zones body topic date startTime duration timeZone ↔
      ¬ (LooseTime startTime ∧ ∃ n, int duration = .ok n ∧
        Regular zones ⟨topic, date, startTime, n, timeZone⟩) := by
  constructor
  · rintro h ⟨hloose, n, hn, hregular⟩
    obtain ⟨m, -, hintended, -⟩ :=
      (h _).1 ((MeetingCreate.validate_iff hp).2 ⟨n, hn, hregular, .inr hloose, rfl⟩)
    exact hloose.not_isTime hintended.startTime
  · intro h value
    rw [MeetingCreate.validate_iff hp]
    constructor
    · rintro ⟨n, hn, hregular, htime | hloose, hvalue⟩
      · exact ⟨n, hn, ⟨hregular, htime⟩, hvalue⟩
      · exact absurd ⟨hloose, n, hn, hregular⟩ h
    · rintro ⟨n, hn, hintended, hvalue⟩
      exact ⟨n, hn, hintended.toRegular, .inl hintended.startTime, hvalue⟩

/-- A payload with this start time. -/
def payloadAt (startTime : String) : Dict :=
  [("topic", .str "Standup"), ("date", .str "2026-01-05"), ("start_time", .str startTime),
    ("duration", .str " 30 "), ("time_zone", .str "UTC")]

/-- The payload of the example says what it is made of. -/
theorem payloadAt_isPayload (startTime : String) :
    IsPayload (payloadAt startTime) "Standup" "2026-01-05" startTime (.str " 30 ") "UTC" :=
  ⟨.inr ⟨_, rfl⟩, rfl, rfl, rfl, rfl, rfl⟩

/-- A payload that is accepted as intended. -/
theorem meeting_create_exact_standup :
    AcceptedAsIntended ["UTC"] (payloadAt "09:30") "Standup" "2026-01-05" "09:30" (.str " 30 ")
      "UTC" :=
  (meeting_create_exact (payloadAt_isPayload "09:30")).2 fun h =>
    h.1.not_isTime ⟨9, 30, by decide, by decide, by decide⟩

/-- A start time that ends in a line break is accepted. -/
theorem loose_start_time_accepted :
    ¬ ∀ (zones : List String) (body : Dict) (topic date startTime : String) (duration : Json)
      (timeZone : String), IsPayload body topic date startTime duration timeZone →
        AcceptedAsIntended zones body topic date startTime duration timeZone := by
  intro h
  have hp := payloadAt_isPayload "09:30\n"
  have hloose : LooseTime "09:30\n" := by
    refine ⟨'0', '9', '3', '0', ['\n'], by decide, .inl ⟨.inl rfl, by decide⟩, by decide, by decide,
      .inr rfl, .inr (.inr rfl)⟩
  have hregular : Regular ["UTC"] ⟨"Standup", "2026-01-05", "09:30\n", 30, "UTC"⟩ :=
    ⟨by decide, topicSafe_none.1 (by decide +kernel),
      ⟨2026, 1, 5, by decide, by decide, by decide, by decide⟩, by decide, by decide⟩
  obtain ⟨n, -, hintended, -⟩ := (h ["UTC"] _ _ _ _ _ _ hp _).1
    ((MeetingCreate.validate_iff hp).2 ⟨30, by decide, hregular, .inr hloose, rfl⟩)
  exact hloose.not_isTime hintended.startTime

end Teamspace.Api
