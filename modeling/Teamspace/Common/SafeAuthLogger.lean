import Mathlib.Data.List.Basic
import Teamspace.Py.Json
import Teamspace.Py.Str

/-!
# Claim summaries and masked tokens

`mask_token`, `shorten_id`, `mask_email` and `format_claims` of `common/safe_auth_logger.py`. The
summary of the claims of a token fails on some values of its `scope` and on nothing else
(`format_claims_total`). A masked token hides something only when it has a character that is neither
in the prefix nor in the tail (`mask_token_hides`).
-/

namespace Teamspace.Common

open Teamspace.Py

/-! ## `mask_token` -/

/-- `mask_token`. -/
def maskToken (token : String) (visible : Nat) : String :=
  if token = "" ∨ token.length ≤ visible then token
  else String.ofList (token.toList.take visible) ++ "..." ++
    String.ofList (token.toList.drop (token.length - 4))

/-- Another token of the same length has the same mask. -/
def Hides (token : String) (visible : Nat) : Prop :=
  ∃ other : String, other ≠ token ∧ other.length = token.length ∧
    maskToken other visible = maskToken token visible

/-- A masked token shows its first characters and its last four. -/
theorem toList_maskToken {token : String} {visible : Nat} (h : visible < token.length) :
    (maskToken token visible).toList = token.toList.take visible ++ "...".toList ++
      token.toList.drop (token.length - 4) := by
  have hne : token ≠ "" := by
    rintro rfl
    exact absurd h (Nat.not_lt_zero _)
  unfold maskToken
  rw [if_neg (not_or.2 ⟨hne, Nat.not_le.2 h⟩)]
  simp only [String.toList_append, String.toList_ofList]

/-- The prefix and the tail are the same in tokens with the same mask. -/
theorem maskToken_inj {token other : String} {visible : Nat} (h : visible < token.length)
    (hlen : other.length = token.length) :
    maskToken other visible = maskToken token visible ↔
      other.toList.take visible = token.toList.take visible ∧
        other.toList.drop (token.length - 4) = token.toList.drop (token.length - 4) := by
  have hsame : other.toList.length = token.toList.length := by
    rw [String.length_toList, String.length_toList, hlen]
  rw [← String.toList_inj, toList_maskToken h, toList_maskToken (hlen.symm ▸ h), hlen]
  constructor
  · intro he
    obtain ⟨hpre, htail⟩ :=
      List.append_inj he (by simp only [List.length_append, List.length_take, hsame])
    exact ⟨(List.append_inj' hpre rfl).1, htail⟩
  · rintro ⟨hpre, htail⟩
    rw [hpre, htail]

/-- There is always another character. -/
theorem exists_char_ne (c : Char) : ∃ d : Char, d ≠ c := by
  by_cases h : 'a' = c
  · exact ⟨'b', by rw [← h]; decide⟩
  · exact ⟨'a', h⟩

/-- A token longer than the threshold is hidden in part just when it is longer than its prefix and
its tail together. -/
theorem mask_token_hides (token : String) (visible : Nat) (h : visible < token.length) :
    Hides token visible ↔ visible + 4 < token.length := by
  constructor
  · rintro ⟨other, hne, hlen, hmask⟩
    obtain ⟨hpre, htail⟩ := (maskToken_inj h hlen).1 hmask
    by_contra hle
    have hcut : token.length - 4 + (visible - (token.length - 4)) = visible := by omega
    have hdrop : other.toList.drop visible = token.toList.drop visible := by
      rw [← hcut, ← List.drop_drop, htail, List.drop_drop]
    refine hne (String.toList_inj.1 ?_)
    rw [← List.take_append_drop visible other.toList, hpre, hdrop, List.take_append_drop]
  · intro hlong
    have hv : visible < token.toList.length := by
      rw [String.length_toList]
      exact h
    obtain ⟨d, hd⟩ := exists_char_ne (token.toList[visible])
    refine ⟨String.ofList (token.toList.set visible d), ?_, ?_, ?_⟩
    · intro he
      have he := congrArg String.toList he
      rw [String.toList_ofList] at he
      have hget : (token.toList.set visible d)[visible]? = token.toList[visible]? := by rw [he]
      rw [List.getElem?_set_self hv, List.getElem?_eq_getElem hv] at hget
      exact hd (Option.some.inj hget)
    · rw [String.length_ofList, List.length_set, String.length_toList]
    · have hlen : (String.ofList (token.toList.set visible d)).length = token.length := by
        rw [String.length_ofList, List.length_set, String.length_toList]
      rw [maskToken_inj h hlen, String.toList_ofList]
      exact ⟨List.take_set_of_le (le_refl visible), List.drop_set_of_lt (by omega)⟩

/-- The default threshold hides the middle of a token of fifteen characters. -/
theorem mask_token_hides_fifteen : 10 < "abcdefghijklmno".length ∧
    (Hides "abcdefghijklmno" 10 ↔ 10 + 4 < "abcdefghijklmno".length) :=
  ⟨by decide, mask_token_hides "abcdefghijklmno" 10 (by decide)⟩

/-- A token of eleven characters is written in full. -/
theorem mask_token_overlaps :
    ¬ ∀ (token : String) (visible : Nat), visible < token.length → Hides token visible := by
  intro h
  obtain ⟨other, hne, hlen, hmask⟩ := h "abcdefghijk" 10 (by decide)
  obtain ⟨hpre, htail⟩ := (maskToken_inj (by decide) hlen).1 hmask
  refine hne (String.toList_inj.1 ?_)
  have hdrop : other.toList.drop 10 = ['k'] := by
    rw [show 10 = 7 + 3 from rfl, ← List.drop_drop, show 7 = "abcdefghijk".length - 4 from rfl,
      htail]
    rfl
  rw [← List.take_append_drop 10 other.toList, hpre, hdrop]
  rfl

/-! ## `format_claims` -/

/-- `_SUMMARISED_CLAIMS`. -/
def summarisedClaims : List String :=
  ["sub", "org_id", "user_org", "email", "scope", "act", "aut"]

/-- `shorten_id`, with `visible` 8. -/
def shortenId (value : String) : String :=
  if value = "" then "-"
  else if value.length ≤ 8 then value
  else String.ofList (value.toList.take 8) ++ "…"

/-- `mask_email`. -/
def maskEmail (email : String) : String :=
  if email = "" ∨ '@' ∉ email.toList then
    if email = "" then "-" else "***"
  else
    let parts := splitOnce email '@'
    let domain := splitOnce (parts.2.getD "") '.'
    let maskedDomain :=
      if domain.1 = "" then "***" else String.ofList (domain.1.toList.take 1) ++ "***"
    String.ofList (parts.1.toList.take 1) ++ "***@" ++
      (domain.2.elim maskedDomain fun tld => maskedDomain ++ "." ++ tld)

/-- An item of a list that is joined. -/
def textOf : Json → Except Exn String
  | .str s => .ok s
  | _ => .error .typeError

/-- `sep.join(items)`: every item must be a string. -/
def join (sep : String) (items : List Json) : Except Exn String := do
  return sep.intercalate (← items.mapM textOf)

/-- `scope.split() if isinstance(scope, str) else list(scope or [])`. -/
def scopesOf : Json → Except Exn (List Json)
  | .str s => .ok ((split s).map .str)
  | scope => iterate (pyOr scope (.arr []))

/-- The `sub` of the actor. -/
def actorOf : Json → Json
  | .obj act => (Dict.get act "sub").getD (.str "")
  | _ => .str ""

/-- The parts of a summary, joined; `granted` is the text of the scopes. -/
def summary (str : Json → String) (decoded : Dict) (granted : String) : String :=
  let org := pyOr ((Dict.get decoded "org_id").getD (.str ""))
    (pyOr ((Dict.get decoded "user_org").getD (.str "")) (.str "-"))
  let actor := actorOf (pyOr ((Dict.get decoded "act").getD .null) (.obj []))
  let email := (Dict.get decoded "email").getD .null
  let extra := decoded.countP fun f => f.1 ∉ summarisedClaims
  " ".intercalate (
    [ "sub=" ++ shortenId (str ((Dict.get decoded "sub").getD (.str ""))),
      "org=" ++ str org,
      "aut=" ++ str ((Dict.get decoded "aut").getD (.str "-")),
      "scope=[" ++ granted ++ "]" ] ++
    (if actor.truthy then ["act.sub=" ++ shortenId (str actor)] else []) ++
    (if email.truthy then ["email=" ++ maskEmail (str email)] else []) ++
    (if extra = 0 then [] else ["(+" ++ toString extra ++ " more claims)"]))

/-- `format_claims`. `str` writes a value as text, as the built-in of that name does. -/
def formatClaims (str : Json → String) : Json → Except Exn String
  | .obj decoded => do
    let scopes ← scopesOf ((Dict.get decoded "scope").getD (.str ""))
    let granted ← join "," scopes
    return summary str decoded granted
  | _ => .ok "<no claims>"

/-- The value of a `scope` claim that can be summarised. -/
def Renders (scope : Json) : Prop :=
  scope.truthy = false ∨ (∃ s, scope = .str s) ∨ (∃ d, scope = .obj d) ∨
    ∃ items, scope = .arr items ∧ ∀ item ∈ items, ∃ s, item = .str s

/-- The computation does not raise. -/
def Returns {α : Type} (x : Except Exn α) : Prop := ∃ a, x = .ok a

@[simp] theorem returns_ok {α : Type} (a : α) : Returns (.ok a) := ⟨a, rfl⟩
@[simp] theorem returns_pure {α : Type} (a : α) : Returns (pure a) := ⟨a, rfl⟩
@[simp] theorem not_returns_error {α : Type} (e : Exn) : ¬ Returns (.error e : Except Exn α) :=
  nofun

/-- What only computes with a result raises when the result is not there. -/
theorem returns_map {α β : Type} {x : Except Exn α} {f : α → β} :
    Returns (do return f (← x)) ↔ Returns x := by
  cases x with
  | ok a => exact iff_of_true (returns_ok _) (returns_ok a)
  | error e => exact iff_of_false (not_returns_error e) (not_returns_error e)

/-- Only a string is a text. -/
theorem textOf_returns {item : Json} : Returns (textOf item) ↔ ∃ s, item = .str s := by
  cases item with
  | str s => exact iff_of_true (returns_ok s) ⟨s, rfl⟩
  | null | bool | num | arr | obj => exact iff_of_false (not_returns_error _) nofun

/-- A list is joined exactly if all of it are strings. -/
theorem join_returns {sep : String} {items : List Json} :
    Returns (join sep items) ↔ ∀ item ∈ items, ∃ s, item = .str s := by
  refine returns_map.trans ?_
  induction items with
  | nil => exact iff_of_true (returns_ok []) nofun
  | cons item items ih =>
    rw [List.forall_mem_cons, ← ih, ← textOf_returns, List.mapM_cons]
    cases textOf item with
    | error e => exact iff_of_false (not_returns_error e) fun h => not_returns_error e h.1
    | ok text => exact returns_map.trans (and_iff_right (returns_ok text)).symm

/-- Strings are joined. -/
theorem join_texts (sep : String) (l : List String) : Returns (join sep (l.map .str)) := by
  refine join_returns.2 fun item hitem => ?_
  obtain ⟨s, -, rfl⟩ := List.mem_map.1 hitem
  exact ⟨s, rfl⟩

/-- A value that is no string is listed as it is, or as nothing when it is falsy. -/
theorem scopesOf_eq {scope : Json} (h : ∀ s, scope ≠ .str s) :
    scopesOf scope = if scope.truthy then iterate scope else .ok [] := by
  have hscopes : scopesOf scope = iterate (pyOr scope (.arr [])) := by
    cases scope with
    | str s => exact absurd rfl (h s)
    | null | bool | num | arr | obj => rfl
  rw [hscopes, pyOr]
  split <;> rfl

/-- The scopes can be listed and joined. -/
theorem scopes_returns (sep : String) {scope : Json} :
    Returns (scopesOf scope >>= join sep) ↔ Renders scope := by
  by_cases hs : ∃ s, scope = .str s
  · obtain ⟨s, rfl⟩ := hs
    exact iff_of_true (join_texts sep (split s)) (.inr (.inl ⟨s, rfl⟩))
  · rw [scopesOf_eq fun s h => hs ⟨s, h⟩]
    unfold Renders
    split
    · next ht =>
      rw [ht, or_iff_right (by decide), or_iff_right hs]
      cases scope with
      | str s => exact absurd ⟨s, rfl⟩ hs
      | null | bool | num =>
        refine iff_of_false (not_returns_error .typeError) ?_
        rintro (⟨_, ⟨⟩⟩ | ⟨_, ⟨⟩, -⟩)
      | obj d =>
        have hkeys : iterate (.obj d) = .ok ((d.map Prod.fst).map .str) := by
          rw [List.map_map]
          rfl
        rw [hkeys]
        exact iff_of_true (join_texts sep _) (.inl ⟨d, rfl⟩)
      | arr items =>
        refine join_returns.trans ⟨fun h => .inr ⟨items, rfl, h⟩, ?_⟩
        rintro (⟨_, ⟨⟩⟩ | ⟨_, ⟨⟩, h⟩)
        exact h
    · next ht => exact iff_of_true (join_texts sep []) (.inl (Bool.eq_false_iff.2 ht))

/-- The claims of an object are summed up with its scopes. -/
theorem formatClaims_obj (str : Json → String) (decoded : Dict) :
    formatClaims str (.obj decoded) = do
      return summary str decoded
        (← scopesOf ((Dict.get decoded "scope").getD (.str "")) >>= join ",") :=
  (bind_assoc ..).symm

/-- The claims of a token have a summary just when the `scope` is one of these values. -/
theorem format_claims_total (str : Json → String) (decoded : Dict) :
    (∃ s, formatClaims str (.obj decoded) = .ok s) ↔
      Renders ((Dict.get decoded "scope").getD (.str "")) := by
  rw [formatClaims_obj, ← scopes_returns ","]
  exact returns_map

/-- A number for a scope is not summarised. -/
theorem numeric_scope_raises :
    ¬ ∀ (str : Json → String) (decoded : Dict), ∃ s, formatClaims str (.obj decoded) = .ok s := by
  intro h
  obtain ⟨s, hs⟩ := h (fun _ => "") [("scope", .num (.int 1))]
  cases hs

end Teamspace.Common
