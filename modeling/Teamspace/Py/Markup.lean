import Teamspace.Py.Format

/-!
# Templates of markup

A text with tags into which values without angle brackets are filled. Where the fields of the text
stand between its tags (`Tagged`), taking the tags off the filled text is filling the text without
its tags (`stripTags_fill`): nothing of the values is lost. All angle brackets of the filled text
are those of the text (`angles_fill`).
-/

namespace Teamspace.Py

/-- `<` or `>`. -/
def isAngle (c : Char) : Bool := c == '<' || c == '>'

/-- The angle brackets of a text, in order. -/
def angles (s : List Char) : List Char := s.filter isAngle

/-- A text without angle brackets. -/
def NoAngles (s : List Char) : Prop := ∀ c ∈ s, isAngle c = false

/-- `re.sub(r'<[^>]*>', '', s)`. `inTag` says whether a match has begun and not ended. -/
def stripTagsFrom : (inTag : Bool) → List Char → List Char
  | _, [] => []
  | true, c :: s => stripTagsFrom (c != '>') s
  | false, c :: s =>
    if c == '<' && s.contains '>' then stripTagsFrom true s else c :: stripTagsFrom false s

/-- `re.sub(r'<[^>]*>', '', s)`. -/
def stripTags (s : List Char) : List Char := stripTagsFrom false s

/-- A text of tags and, between them, of fields and of other characters. -/
inductive Tagged (names : List (List Char)) : List Char → Prop
  | nil : Tagged names []
  | cons {c : Char} {s : List Char} (hopen : c ≠ '\x7b') (hclose : c ≠ '\x7d')
    (hangle : isAngle c = false) (h : Tagged names s) : Tagged names (c :: s)
  | tag {body s : List Char} (hbraces : NoBraces body) (hbody : '>' ∉ body) (h : Tagged names s) :
    Tagged names ('<' :: (body ++ '>' :: s))
  | field {name s : List Char} (hname : name ∈ names) (h : Tagged names s) :
    Tagged names (bareField name ++ s)

section

variable {names : List (List Char)} {value : List Char → List Char} {c : Char} {s t : List Char}

/-- What is no angle bracket is neither of the two. -/
theorem isAngle_eq_false : isAngle c = false ↔ c ≠ '<' ∧ c ≠ '>' := by
  simp [isAngle]

@[simp] theorem angles_append : angles (s ++ t) = angles s ++ angles t := List.filter_append ..

/-- A text without angle brackets has none. -/
theorem angles_of_noAngles (h : NoAngles s) : angles s = [] := by
  rw [angles, List.filter_eq_nil_iff]
  intro c hc
  simp [h c hc]

/-! ## Tags -/

/-- A character that opens no tag is kept. -/
theorem stripTags_cons (hc : c ≠ '<') : stripTags (c :: s) = c :: stripTags s := by
  simp [stripTags, stripTagsFrom, hc]

/-- A text without angle brackets is kept. -/
theorem stripTags_append (ht : NoAngles t) : stripTags (t ++ s) = t ++ stripTags s := by
  induction t with
  | nil => rfl
  | cons c t ih =>
    have hc := isAngle_eq_false.1 (ht c (.head _))
    rw [List.cons_append, stripTags_cons hc.1, ih fun d hd => ht d (.tail _ hd), List.cons_append]

/-- A tag is taken off. -/
theorem stripTags_tag {body : List Char} (hbody : '>' ∉ body) :
    stripTags ('<' :: (body ++ '>' :: s)) = stripTags s := by
  have hskip : stripTagsFrom true (body ++ '>' :: s) = stripTags s := by
    induction body with
    | nil => rfl
    | cons c body ih =>
      have hc : (c != '>') = true := by
        rw [bne_iff_ne]
        rintro rfl
        exact hbody (.head _)
      rw [List.cons_append, stripTagsFrom, hc]
      exact ih fun h => hbody (.tail _ h)
  rw [stripTags, stripTagsFrom, if_pos (by simp), hskip]

/-! ## Filling -/

/-- Names and values without angle brackets. -/
structure Clean (names : List (List Char)) (value : List Char → List Char) : Prop where
  plain : PlainNames names
  noAngles : ∀ name ∈ names, NoAngles name
  shown : ∀ name ∈ names, NoAngles (value name)

/-- The field of a plain name has no angle brackets. -/
theorem noAngles_bareField {name : List Char} (h : NoAngles name) : NoAngles (bareField name) := by
  intro c hc
  simp only [bareField, List.mem_cons, List.mem_append, List.not_mem_nil, or_false] at hc
  rcases hc with rfl | hc | rfl
  · rfl
  · exact h c hc
  · rfl

/-- A tagged text has bare fields only. -/
theorem Tagged.onlyFields (h : Tagged names s) : OnlyFields names s := by
  have happend {t s : List Char} (ht : NoBraces t) (hs : OnlyFields names s) :
      OnlyFields names (t ++ s) := by
    induction t with
    | nil => exact hs
    | cons c t ih =>
      have hc := ht c (.head _)
      exact .cons hc.1 hc.2 (ih fun d hd => ht d (.tail _ hd))
  induction h with
  | nil => exact .nil
  | cons hopen hclose _ _ ih => exact .cons hopen hclose ih
  | tag hbraces _ _ ih =>
    exact .cons (by decide) (by decide) (happend hbraces (.cons (by decide) (by decide) ih))
  | field hname _ ih => exact .field hname ih

/-- The fields are still there without the tags. -/
theorem Tagged.onlyFields_stripTags (h : Tagged names s) (hnames : ∀ name ∈ names, NoAngles name) :
    OnlyFields names (stripTags s) := by
  induction h with
  | nil => exact .nil
  | cons hopen hclose hangle _ ih =>
    rw [stripTags_cons (isAngle_eq_false.1 hangle).1]
    exact .cons hopen hclose ih
  | tag _ hbody _ ih =>
    rw [stripTags_tag hbody]
    exact ih
  | field hname _ ih =>
    rw [stripTags_append (noAngles_bareField (hnames _ hname))]
    exact .field hname ih

/-- The angle brackets of a filled text are those of the text. -/
theorem angles_fill (hclean : Clean names value) (h : OnlyFields names s) :
    angles (fill names value s) = angles s := by
  induction h with
  | nil => rfl
  | @cons c s hopen _ _ ih =>
    rw [fill_cons hopen]
    exact (@angles_append [c] _).trans ((congrArg (angles [c] ++ ·) ih).trans
      (@angles_append [c] _).symm)
  | @field name s hname _ ih =>
    rw [fill_field hclean.plain hname, angles_append, angles_append, ih,
      angles_of_noAngles (hclean.shown name hname),
      angles_of_noAngles (noAngles_bareField (hclean.noAngles name hname))]

/-- To take the tags off a filled text is to fill the text without them, whatever follows. -/
theorem stripTags_fill_append (hclean : Clean names value) (h : Tagged names s) :
    stripTags (fill names value s ++ t) = fill names value (stripTags s) ++ stripTags t := by
  induction h with
  | nil => rfl
  | cons hopen hclose hangle _ ih =>
    have hc := (isAngle_eq_false.1 hangle).1
    rw [fill_cons hopen, List.cons_append, stripTags_cons hc, stripTags_cons hc, ih,
      fill_cons hopen, List.cons_append]
  | @tag body s hbraces hbody _ ih =>
    rw [fill_cons (by decide), fill_append hbraces, fill_cons (by decide), List.cons_append,
      List.append_assoc, List.cons_append, stripTags_tag hbody, stripTags_tag hbody, ih]
  | @field name s hname _ ih =>
    rw [fill_field hclean.plain hname, List.append_assoc,
      stripTags_append (hclean.shown name hname), ih,
      stripTags_append (noAngles_bareField (hclean.noAngles name hname)),
      fill_field hclean.plain hname, List.append_assoc]

/-- Clean data may be filled in before the tags are taken off, or after. -/
theorem stripTags_fill (hclean : Clean names value) (h : Tagged names s) :
    stripTags (fill names value s) = fill names value (stripTags s) := by
  have := @stripTags_fill_append _ _ _ [] hclean h
  simpa [stripTags, stripTagsFrom] using this

/-! ## Deciding it -/

/-- Whether the tags of a text are closed and without braces, and it has no other angle brackets. -/
def closedTags : (inTag : Bool) → List Char → Bool
  | inTag, [] => !inTag
  | true, c :: s =>
    if c == '>' then closedTags false s else c != '\x7b' && c != '\x7d' && closedTags true s
  | false, c :: s => if c == '<' then closedTags true s else c != '>' && closedTags false s

/-- What is left of a tag. -/
theorem tag_of_closedTags (h : closedTags true s = true) :
    ∃ body t, s = body ++ '>' :: t ∧ NoBraces body ∧ '>' ∉ body ∧ closedTags false t = true := by
  induction s with
  | nil => cases h
  | cons c s ih =>
    rw [closedTags] at h
    split at h
    · next hc =>
      have hnone : NoBraces [] := fun d hd => absurd hd List.not_mem_nil
      exact ⟨[], s, by rw [beq_iff_eq.1 hc]; rfl, hnone, List.not_mem_nil, h⟩
    · next hc =>
      simp only [Bool.and_eq_true, bne_iff_ne] at h
      obtain ⟨body, t, rfl, hbraces, hbody, ht⟩ := ih h.2
      refine ⟨c :: body, t, rfl, fun d hd => ?_, fun hmem => ?_, ht⟩
      · rcases List.mem_cons.1 hd with rfl | hd
        · exact h.1
        · exact hbraces d hd
      · rcases List.mem_cons.1 hmem with rfl | hmem
        · exact hc rfl
        · exact hbody hmem

/-- A text without angle brackets opens no tag. -/
theorem closedTags_append (ht : NoAngles t) : closedTags false (t ++ s) = closedTags false s := by
  induction t with
  | nil => rfl
  | cons c t ih =>
    have hc := isAngle_eq_false.1 (ht c (.head _))
    rw [List.cons_append, closedTags, if_neg (by simpa using hc.1), ih fun d hd => ht d (.tail _ hd),
      bne_iff_ne.2 hc.2, Bool.true_and]

/-- The fields after a text without braces. -/
theorem OnlyFields.of_append (ht : NoBraces t) (h : OnlyFields names (t ++ s)) :
    OnlyFields names s := by
  induction t with
  | nil => exact h
  | cons c t ih =>
    refine ih (fun d hd => ht d (.tail _ hd)) ?_
    generalize hcs : c :: t ++ s = u at h
    cases h with
    | nil => cases hcs
    | cons _ _ h =>
      obtain ⟨-, rfl⟩ := List.cons.inj hcs
      exact h
    | field hname h =>
      rw [bareField_append] at hcs
      exact absurd (List.cons.inj hcs).1 (ht c (.head _)).1

/-- Fields, and tags that are closed. -/
theorem tagged_of_closedTags (hnames : ∀ name ∈ names, NoAngles name) (h : OnlyFields names s)
    (htags : closedTags false s = true) : Tagged names s := by
  induction hn : s.length using Nat.strong_induction_on generalizing s with
  | _ n ih =>
    subst hn
    cases h with
    | nil => exact .nil
    | @cons c s hopen hclose h =>
      rw [closedTags] at htags
      split at htags
      · next hc =>
        obtain ⟨body, t, rfl, hbraces, hbody, ht⟩ := tag_of_closedTags htags
        rw [beq_iff_eq.1 hc]
        have hrest := OnlyFields.of_append (t := ['>']) (by simp [NoBraces]) (h.of_append hbraces)
        refine .tag hbraces hbody (ih t.length ?_ hrest ht rfl)
        simp only [List.length_cons, List.length_append]
        omega
      · next hc =>
        simp only [Bool.and_eq_true, bne_iff_ne] at htags
        have hangle : isAngle c = false := isAngle_eq_false.2 ⟨by simpa using hc, htags.1⟩
        exact .cons hopen hclose hangle (ih s.length (Nat.lt_succ_self _) h htags.2 rfl)
    | @field name s hname h =>
      rw [closedTags_append (noAngles_bareField (hnames name hname))] at htags
      refine .field hname (ih s.length ?_ h htags rfl)
      rw [bareField_append]
      simp only [List.length_cons, List.length_append]
      omega

end

end Teamspace.Py
