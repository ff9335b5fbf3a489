import Teamspace.Webapp.GroupNames

/-!
# Values of form inputs

What a browser sends for the value of an input. A text input holds no newlines, a URL input no
blanks around its text either, and the value of a checkbox is sent with its newlines as CRLF. A text
without newlines passes the first and the last unchanged, and a stripped one all three
(`urlInput_strip`).
-/

namespace Teamspace.Webapp

open Teamspace.Py

/-! ## Definitions -/

/-- A line feed or a carriage return. -/
def isNewline (c : Char) : Bool := c == '\n' || c == '\r'

/-- The ASCII whitespace of HTML. -/
def isAsciiSpace (c : Char) : Bool := isNewline c || c == ' ' || c == '\t' || c == '\x0c'

/-- The value of an `<input type="text">`. -/
def textInput (v : String) : String := String.ofList (v.toList.filter fun c => !isNewline c)

/-- The value of an `<input type="url">`. -/
def urlInput (v : String) : String :=
  String.ofList (((textInput v).toList.dropWhile isAsciiSpace).rdropWhile isAsciiSpace)

/-- Every newline as CRLF. -/
def crlf : List Char → List Char
  | [] => []
  | '\r' :: '\n' :: s => '\r' :: '\n' :: crlf s
  | c :: s => if isNewline c then '\r' :: '\n' :: crlf s else c :: crlf s

/-- The value that is sent for an `<input type="checkbox">` that is checked. -/
def checkboxInput (v : String) : String := String.ofList (crlf v.toList)

/-! ## Texts without newlines -/

/-- The text has no newline. -/
def OneLine (v : String) : Prop := ∀ c ∈ v.toList, isNewline c = false

variable {v : String}

/-- A text of one line is kept. -/
theorem OneLine.textInput (h : OneLine v) : textInput v = v := by
  unfold Webapp.textInput
  rw [List.filter_eq_self.2 fun c hc => by rw [h c hc]; rfl, String.ofList_toList]

/-- An input holds one line. -/
theorem oneLine_textInput (v : String) : OneLine (textInput v) := by
  intro c hc
  rw [textInput, String.toList_ofList] at hc
  simpa using (List.mem_filter.1 hc).2

/-- A text that a text input holds unchanged has no newline. -/
theorem oneLine_of_textInput (h : textInput v = v) : OneLine v := h ▸ oneLine_textInput v

/-- So does one for a URL. -/
theorem oneLine_urlInput (v : String) : OneLine (urlInput v) := by
  intro c hc
  rw [urlInput, String.toList_ofList] at hc
  have hc := (List.rdropWhile_prefix isAsciiSpace _).subset hc
  exact oneLine_textInput v c ((List.dropWhile_suffix isAsciiSpace).subset hc)

/-- What an input for a URL keeps is one line. -/
theorem oneLine_of_urlInput (h : urlInput v = v) : OneLine v := h ▸ oneLine_urlInput v

/-- Stripping one line leaves one line. -/
theorem OneLine.strip (h : OneLine v) : OneLine (strip v) := fun c hc => h c (strip_subset hc)

/-- The newlines of a text without any are as they are. -/
theorem OneLine.checkboxInput (h : OneLine v) : checkboxInput v = v := by
  have hcrlf : ∀ s : List Char, (∀ c ∈ s, isNewline c = false) → crlf s = s := by
    intro s hs
    induction s using crlf.induct with
    | case1 => rfl
    | case2 s ih => exact absurd (hs _ (.head _)) (by decide)
    | case3 c s hne hc ih => exact absurd (hs c (.head _)) (by simp [hc])
    | case4 c s hne hc ih =>
      rw [crlf, if_neg hc, ih fun d hd => hs d (.tail _ hd)]
      exact hne
  rw [Webapp.checkboxInput, hcrlf _ h, String.ofList_toList]

/-- The parts of a text between commas have no other characters. -/
theorem commaParts_subset {part s : List Char} :
    ∀ p ∈ commaParts part s, ∀ c ∈ p.toList, c ∈ part ∨ c ∈ s := by
  induction s generalizing part with
  | nil =>
    intro p hp c hc
    cases List.mem_singleton.1 hp
    exact .inl (by simpa using hc)
  | cons d s ih =>
    rw [commaParts]
    split
    · intro p hp c hc
      obtain rfl | hp := List.mem_cons.1 hp
      · exact .inl (by simpa using hc)
      · exact .inr (.tail _ ((ih p hp c hc).resolve_left List.not_mem_nil))
    · intro p hp c hc
      rcases ih p hp c hc with h | h
      · exact (List.mem_cons.1 h).elim (fun h => .inr (h ▸ .head _)) .inl
      · exact .inr (.tail _ h)

/-- The names in a field without newlines have none. -/
theorem oneLine_externalGroupNames {form : Form} (h : ∀ v, form.get "groups" = some v → OneLine v) :
    ∀ n ∈ externalGroupNames form, OneLine n := by
  have hfield : OneLine ((form.get "groups").getD "") := by
    cases hget : form.get "groups" with
    | none => exact fun c hc => absurd hc (by simp)
    | some v => exact h v hget
  intro n hn
  obtain ⟨p, hp, rfl⟩ := List.mem_map.1 (List.mem_filter.1 hn).1
  refine OneLine.strip fun c hc => hfield c ?_
  exact (commaParts_subset p hp c hc).resolve_left List.not_mem_nil

/-- Names without newlines, with commas between them. -/
theorem oneLine_intercalate {names : List String} (h : ∀ n ∈ names, OneLine n) :
    OneLine (", ".intercalate names) := by
  induction names with
  | nil => exact fun c hc => absurd hc (by simp)
  | cons n names ih =>
    obtain ⟨hn, hnames⟩ := List.forall_mem_cons.1 h
    cases names with
    | nil =>
      intro c hc
      exact hn c (by simpa using hc)
    | cons m names =>
      intro c hc
      rw [intercalate_toList_cons, List.mem_append, List.mem_cons, List.mem_cons] at hc
      obtain hc | rfl | rfl | hc := hc
      · exact hn c hc
      · rfl
      · rfl
      · exact ih hnames c hc

/-! ## Stripped texts -/

/-- The white space of HTML is white space of Python. -/
theorem isSpace_of_isAsciiSpace {c : Char} (h : isAsciiSpace c = true) : isSpace c = true := by
  simp only [isAsciiSpace, isNewline, Bool.or_eq_true, beq_iff_eq] at h
  obtain (((rfl | rfl) | rfl) | rfl) | rfl := h <;> decide

/-- A stripped text neither begins nor ends with a blank. -/
theorem dropWhile_strip (v : String) :
    (strip v).toList.dropWhile isAsciiSpace = (strip v).toList ∧
      (strip v).toList.rdropWhile isAsciiSpace = (strip v).toList := by
  have hagain := congrArg String.toList (strip_strip v)
  rw [strip_toList] at hagain
  generalize (strip v).toList = s at hagain ⊢
  have hprefix := List.rdropWhile_prefix isSpace (l := s.dropWhile isSpace)
  have hsuffix := List.dropWhile_suffix isSpace (l := s)
  have hlength := congrArg List.length hagain
  have hhead : s.dropWhile isSpace = s :=
    hsuffix.eq_of_length_le (hlength ▸ hprefix.length_le)
  have hlast : s.rdropWhile isSpace = s := by rwa [hhead] at hagain
  constructor
  · refine List.dropWhile_eq_self_iff.2 fun hl hc => ?_
    exact List.dropWhile_eq_self_iff.1 hhead hl (isSpace_of_isAsciiSpace hc)
  · refine List.rdropWhile_eq_self_iff.2 fun hl hc => ?_
    exact List.rdropWhile_eq_self_iff.1 hlast hl (isSpace_of_isAsciiSpace hc)

/-- A URL input holds a stripped text unchanged. -/
theorem urlInput_strip (h : OneLine v) : urlInput (strip v) = strip v := by
  unfold urlInput
  rw [h.strip.textInput, (dropWhile_strip v).1, (dropWhile_strip v).2, String.ofList_toList]

end Teamspace.Webapp
