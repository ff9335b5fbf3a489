import Mathlib.Data.List.DropRight
import Teamspace.Webapp.IdentityProviders
import Teamspace.Webapp.Slugs

/-!
# Names of groups in a form

The edit page of an IdP shows the names of its groups in one field, with commas between them, and
what a form says there is read back (`externalGroupNames_shown`).
-/

namespace Teamspace.Webapp

open Teamspace.Py Teamspace.Lib Handling

/-! ## Names of groups -/

/-- A name that can be read back from a list of names with commas. -/
structure GroupName (n : String) : Prop where
  ne : n ≠ ""
  comma : ',' ∉ n.toList
  strip : strip n = n

/-- Stripping drops the white space at both ends. -/
theorem strip_toList (s : String) :
    (strip s).toList = (s.toList.dropWhile isSpace).rdropWhile isSpace := by
  rw [strip, String.toList_ofList]
  rfl

/-- A stripped text has nothing more to strip. -/
theorem strip_strip (s : String) : strip (strip s) = strip s := by
  refine String.toList_inj.1 ?_
  rw [strip_toList (strip s), strip_toList s]
  have hhead : ((s.toList.dropWhile isSpace).rdropWhile isSpace).dropWhile isSpace =
      (s.toList.dropWhile isSpace).rdropWhile isSpace := by
    refine List.dropWhile_eq_self_iff.2 fun hl => ?_
    have hself := List.dropWhile_eq_self_iff.1
      (List.dropWhile_idempotent (p := isSpace) (l := s.toList))
    have hprefix := List.rdropWhile_prefix isSpace (l := s.toList.dropWhile isSpace)
    have hpos := lt_of_lt_of_le hl hprefix.length_le
    have hget := List.IsPrefix.getElem hprefix hl
    simpa [hget] using hself hpos
  rw [hhead]
  exact List.rdropWhile_idempotent ..

/-- A space in front is stripped. -/
theorem strip_space (s : List Char) :
    strip (String.ofList (' ' :: s)) = strip (String.ofList s) := by
  have hspace : isSpace ' ' = true := by decide
  unfold strip
  rw [String.toList_ofList, String.toList_ofList, List.dropWhile_cons_of_pos hspace]

/-- Without a comma the rest is the last part. -/
theorem commaParts_of_none {part s : List Char} (hs : ',' ∉ s) :
    commaParts part s = [String.ofList (part.reverse ++ s)] := by
  induction s generalizing part with
  | nil => simp [commaParts]
  | cons c s ih =>
    obtain ⟨hc, hs⟩ := not_or.1 (mt List.mem_cons.2 hs)
    rw [commaParts, if_neg (Ne.symm hc), ih hs]
    simp

/-- A part ends at its comma. -/
theorem commaParts_comma {part s t : List Char} (hs : ',' ∉ s) :
    commaParts part (s ++ ',' :: t) = String.ofList (part.reverse ++ s) :: commaParts [] t := by
  induction s generalizing part with
  | nil => simp [commaParts]
  | cons c s ih =>
    obtain ⟨hc, hs⟩ := not_or.1 (mt List.mem_cons.2 hs)
    rw [List.cons_append, commaParts, if_neg (Ne.symm hc), ih hs]
    simp

/-- No part has a comma. -/
theorem commaParts_no_comma {part s : List Char} (hpart : ',' ∉ part) :
    ∀ p ∈ commaParts part s, ',' ∉ p.toList := by
  induction s generalizing part with
  | nil =>
    intro p hp
    cases List.mem_singleton.1 hp
    simpa using hpart
  | cons c s ih =>
    rw [commaParts]
    split
    · intro p hp
      obtain rfl | hp := List.mem_cons.1 hp
      · simpa using hpart
      · exact ih List.not_mem_nil p hp
    · next hc => exact ih fun h => (List.mem_cons.1 h).elim (fun h => hc h.symm) hpart

/-- What the form gives are names that can be read back. -/
theorem externalGroupNames_valid (form : Form) : ∀ n ∈ externalGroupNames form, GroupName n := by
  intro n hn
  obtain ⟨hn, hne⟩ := List.mem_filter.1 hn
  obtain ⟨p, hp, rfl⟩ := List.mem_map.1 hn
  have hcomma := commaParts_no_comma List.not_mem_nil p hp
  exact ⟨of_decide_eq_true hne, fun h => hcomma (strip_subset h), strip_strip p⟩

/-- The characters of names that are shown with commas. -/
theorem intercalate_toList_cons (n m : String) (names : List String) :
    (", ".intercalate (n :: m :: names)).toList =
      n.toList ++ ',' :: ' ' :: (", ".intercalate (m :: names)).toList := by
  simp [String.toList_intercalate]

/-- The name of a group is what is left of its part. -/
theorem GroupName.strip_part {n : String} (hn : GroupName n) {part : List Char}
    (hpart : part = [] ∨ part = [' ']) :
    Py.strip (String.ofList (part.reverse ++ n.toList)) = n := by
  have hread : Py.strip (String.ofList n.toList) = n := by rw [String.ofList_toList, hn.strip]
  obtain rfl | rfl := hpart
  · exact hread
  · exact (strip_space n.toList).trans hread

/-- Names that are shown with commas, after a blank or not, are read back. -/
theorem stripped_commaParts {names : List String} (h : ∀ n ∈ names, GroupName n) (hne : names ≠ [])
    {part : List Char} (hpart : part = [] ∨ part = [' ']) :
    (commaParts part (", ".intercalate names).toList).map strip = names := by
  induction names generalizing part with
  | nil => exact absurd rfl hne
  | cons n names ih =>
    have hn := h n (.head _)
    cases names with
    | nil =>
      have hone : (", ".intercalate [n]).toList = n.toList := by simp
      rw [hone, commaParts_of_none hn.comma, List.map_singleton, hn.strip_part hpart]
    | cons m names =>
      have hrest := @ih (fun x hx => h x (.tail _ hx)) (List.cons_ne_nil m names) [' '] (.inr rfl)
      rw [intercalate_toList_cons, commaParts_comma hn.comma, List.map_cons, hn.strip_part hpart]
      exact congrArg (n :: ·) hrest

/-- Names that are joined with commas are read back. -/
theorem externalGroupNames_shown {names : List String} (h : ∀ n ∈ names, GroupName n) {form : Form}
    (hform : form.get "groups" = some (", ".intercalate names)) :
    externalGroupNames form = names := by
  unfold externalGroupNames
  rw [hform]
  change ((commaParts [] (", ".intercalate names).toList).map strip).filter _ = names
  cases names with
  | nil => decide
  | cons n names =>
    rw [stripped_commaParts h (List.cons_ne_nil n names) (.inl rfl)]
    exact List.filter_eq_self.2 fun n hn => decide_eq_true (h n hn).ne

end Teamspace.Webapp
