import Teamspace.Agent.Backends

/-!
# What `RedisStore.clear` deletes

The prefix of a `RedisStore` stands unescaped in the pattern of `clear`, before texts that are
plain. The pattern matches exactly the keys in its scope if and only if the prefix has no special
character (`Glob.exact_iff`); a server with one entry tells the difference.
-/

namespace Teamspace.Agent

open Teamspace.Lib Teamspace.Py

/-- `clear` is exact: every key in its scope is gone, and every other one is as it was. -/
def RedisStore.ClearsExactly (scan : ScanOrder) (keyPrefix : String) (scope' : Option String) :
    Prop :=
  ∀ (db : Redis) (now : Rat) (k : String),
    (startsWith k (owned keyPrefix scope') = true →
      (clear scan keyPrefix db now scope').get now k = none) ∧
    (startsWith k (owned keyPrefix scope') = false →
      (clear scan keyPrefix db now scope').lookup k = db.lookup k)

namespace RedisStore

variable {scan : ScanOrder} {keyPrefix : String} {scope' : Option String}

/-- A key is owned if it begins with what the store owns. -/
theorem startsWith_owned {k : String} :
    startsWith k (owned keyPrefix scope') = true ↔ (owned keyPrefix scope').toList <+: k.toList :=
  decide_eq_true_iff

/-- The pattern of an exact `clear` matches the keys in its scope and no other: the only entry of a
server shows it. -/
theorem ClearsExactly.isMatch (h : ClearsExactly scan keyPrefix scope') (k : String) :
    Glob.isMatch (owned keyPrefix scope' ++ "*") k = true ↔
      startsWith k (owned keyPrefix scope') = true := by
  let db : Redis := AList.insert k ⟨"", none⟩ ∅
  have hdb : db.lookup k = some ⟨"", none⟩ := AList.lookup_insert ..
  have hget : db.get 0 k = some "" := Redis.get_of_some hdb 0
  have hclear := get_clear scan keyPrefix db 0 scope' k
  constructor
  · intro hm
    by_contra hk
    rw [if_pos hm, Redis.get_congr ((h db 0 k).2 (Bool.eq_false_iff.2 hk)), hget] at hclear
    cases hclear
  · intro hk
    by_contra hm
    rw [if_neg hm, (h db 0 k).1 hk, hget] at hclear
    cases hclear

/-- **Scope of `clear`.** For every prefix, `clear` is exact if and only if no character of the
prefix is special in a pattern. -/
theorem clearsExactly_iff (scan : ScanOrder) (keyPrefix : String) {scope' : Option String}
    (hscope : ∀ n ∈ scope', PlainNamespace n) :
    ClearsExactly scan keyPrefix scope' ↔ ∀ c ∈ keyPrefix.toList, c ∉ ['*', '?', '[', '\\'] := by
  have hspecial : Glob.Plain keyPrefix.toList ↔
      ∀ c ∈ keyPrefix.toList, c ∉ ['*', '?', '[', '\\'] := by
    refine forall₂_congr fun c _ => ?_
    simp [Glob.special, and_assoc]
  rw [← hspecial]
  constructor
  · intro h
    have hne : ("teamspace:agent:" ++ scope scope').toList ≠ [] := by
      rw [String.toList_append]
      exact List.append_ne_nil_of_left_ne_nil (by decide) _
    refine (Glob.exact_iff (scope_plain hscope) hne).1 fun s => ?_
    have hstar : "*".toList = ['*'] := rfl
    have hm := h.isMatch (String.ofList s)
    rwa [startsWith_owned, Glob.isMatch, String.toList_append, hstar, String.toList_ofList,
      owned_toList] at hm
  · intro hp db now k
    have hm := isMatch_owned hp hscope (k := k)
    rw [← startsWith_owned] at hm
    refine ⟨fun hk => ?_, fun hk => ?_⟩
    · rw [get_clear, if_pos (hm.2 hk)]
    · rw [lookup_clear, if_neg fun hc => Bool.false_ne_true (hk.symm.trans (hm.1 hc.2))]

/-- A prefix of letters and a colon. -/
theorem clearsExactly_prod :
    ClearsExactly ⟨id, fun _ _ => Iff.rfl⟩ "prod:" (some "chat_history") := by
  have hplain : ("prod:".toList.all fun c => decide (c ∉ ['*', '?', '[', '\\'])) = true := by decide
  refine (clearsExactly_iff _ "prod:" (by rintro _ ⟨⟩; decide)).2 fun c hc => ?_
  exact of_decide_eq_true (List.all_eq_true.1 hplain c hc)

/-- The prefix `[prod]:` stands for one of four letters: keys of the store itself stay, and those of
the prefix `p:` are deleted. -/
theorem clear_not_exact : ¬ ∀ (scan : ScanOrder) (keyPrefix : String) (scope' : Option String),
    (∀ n ∈ scope', PlainNamespace n) → ClearsExactly scan keyPrefix scope' := by
  intro h
  have hexact := h ⟨id, fun _ _ => Iff.rfl⟩ "[prod]:" none nofun
  have hkept := hexact.isMatch "[prod]:teamspace:agent:chat_history:t"
  revert hkept
  decide +kernel

end RedisStore

end Teamspace.Agent
