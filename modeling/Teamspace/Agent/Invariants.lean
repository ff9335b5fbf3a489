import Teamspace.Agent.Serves

/-!
# Invariants of the service

What the moves of the service do to the entries of a thread: a mild operation brings no pending
meeting and no delegated token in and authorizes nothing (`Op.Mild.flow`, `Op.Mild.get`). From
there, by induction over a run: what the code had checked at every committing request
(`Reachable.at_commit`), and where a delegated token that stands beside an authorized flow state
came from (`TokenOrigin`).
-/

namespace Teamspace.Agent

open Teamspace.Lib Teamspace.Py Teamspace.Lib.System
open Relation (ReflTransGen)

variable {Tok : Type} (E : Env Tok)

/-! ## Entries of a thread -/

/-- What an operation leaves to be read was written by it, or was there before. -/
theorem exec_get {o : Op} {σ : Shared} {n : Namespace} {k : String} {x : Json}
    (h : (exec E o σ).2.get n k = some x) :
    (∃ ttl, o = .set n k x ttl) ∨ σ.get n k = some x := by
  cases o with
  | set n' k' v ttl =>
    by_cases hk : (n, k) = (n', k')
    · cases hk
      have hx : x = v := Shared.get_set_self h
      exact .inl ⟨ttl, by rw [hx]⟩
    · exact .inr ((Shared.get_set_of_ne σ hk v ttl).symm.trans h)
  | delete n' k' => exact .inr (Shared.get_of_get_delete h)
  | get | time | monotonic | tokenUrlsafe | validateMcpToken | cachedConfig | cacheConfig =>
    exact .inr h

/-- An operation leaves the entries that it does not set. -/
theorem exec_get_of_ne {o : Op} {σ : Shared} {n : Namespace} {k : String} {x : Json}
    (h : (exec E o σ).2.get n k = some x) (ho : ∀ ttl, o ≠ .set n k x ttl) :
    σ.get n k = some x := by
  rcases exec_get E h with ⟨ttl, he⟩ | h
  · exact absurd he (ho ttl)
  · exact h

/-- A mild operation brings no pending meeting and no delegated token in. -/
theorem Op.Mild.get {o : Op} (ho : o.Mild) {σ : Shared} {n : Namespace} {k : String} {x : Json}
    (hn : n = .pendingMeeting ∨ n = .oboToken) (h : (exec E o σ).2.get n k = some x) :
    σ.get n k = some x := by
  rcases exec_get E h with ⟨ttl, rfl⟩ | h
  · exact absurd hn (not_or.2 ⟨ho.1, ho.2.1⟩)
  · exact h

/-- A mild operation authorizes nothing. -/
theorem Op.Mild.flow {o : Op} (ho : o.Mild) {σ : Shared} {t : String} {a : Action}
    (h : flowStateOf ((exec E o σ).2.get .flowState t) = .authorized a) :
    flowStateOf (σ.get .flowState t) = .authorized a := by
  obtain ⟨x, hx, hf⟩ := flow_authorized h
  rcases exec_get E hx with ⟨ttl, rfl⟩ | hx
  · exact absurd hf (ho.2.2 rfl a)
  · rw [hx]; exact hf

/-- A state that authorizes no action is stored mildly. -/
theorem set_flow_mild {s : FlowState} (hs : ∀ a, s ≠ .authorized a) (t : String) (ttl : Nat) :
    (Op.set .flowState t (.str s.value) ttl).Mild :=
  ⟨nofun, nofun, fun _ a => by rw [flowStateOf_value]; exact hs a⟩

/-- An operation that does not set the flow state authorizes nothing. -/
theorem exec_flow_of_ne {o : Op} {σ : Shared} {t : String} {a : Action}
    (h : flowStateOf ((exec E o σ).2.get .flowState t) = .authorized a)
    (ho : ∀ x ttl, o ≠ .set .flowState t x ttl) :
    flowStateOf (σ.get .flowState t) = .authorized a := by
  obtain ⟨x, hx, hf⟩ := flow_authorized h
  rw [exec_get_of_ne E hx (ho x)]
  exact hf

/-- The passage of time authorizes nothing. -/
theorem passes_flow {σ σ' : Shared} (hp : σ.Passes σ') {t : String} {a : Action}
    (h : flowStateOf (σ'.get .flowState t) = .authorized a) :
    flowStateOf (σ.get .flowState t) = .authorized a := by
  obtain ⟨x, hx, hf⟩ := flow_authorized h
  rw [hp.get hx]; exact hf

/-! ## Entries of a history -/

/-- Two entries, each newer than the same history, are the same. -/
theorem eq_of_newest {α : Type} {x y : α} {l l' : List α} (h : x :: l <:+ y :: l')
    (hl : l' <:+ l) : x = y ∧ l = l' := by
  rcases List.suffix_cons_iff.1 h with h | h
  · exact List.cons.inj h
  · have h₁ := h.length_le
    have h₂ := hl.length_le
    rw [List.length_cons] at h₁
    omega

/-- An entry of a longer history that is not its newest one is in the shorter. -/
theorem suffix_of_ne {x y : AgentEntry Tok} {l l' : List (AgentEntry Tok)}
    (h : x :: l <:+ y :: l') (hne : x.event ≠ y.event) : x :: l <:+ l' := by
  rcases List.suffix_cons_iff.1 h with h | h
  · exact absurd (congrArg Entry.event (List.cons.inj h).1) hne
  · exact h

/-- An entry above a part of the history that a prefix leaves stands in that prefix. -/
theorem mem_recent {α : Type} {x : α} {l l' p : List α} (h : x :: l <:+ p ++ l') (hl : l' <:+ l) :
    x ∈ p := by
  obtain ⟨a, ha⟩ := h
  obtain ⟨b, rfl⟩ := hl
  have hp : (a ++ x :: b) ++ l' = p ++ l' := (List.append_assoc ..).trans ha
  rw [← List.append_cancel_right hp]
  exact List.mem_append_right _ (.head _)

/-- Every entry of a history was added by a move, from a world of which all holds that always
holds. -/
theorem Reachable.added {σ : Shared} {I : AgentWorld E → Prop} (h0 : I ⟨σ, []⟩)
    (hmove : ∀ i w w', Consistent (S := agentSystem E) σ w → Move E i w w' → I w → I w')
    (hpass : ∀ (w : AgentWorld E) σ', Consistent (S := agentSystem E) σ w →
      w.state.Passes σ' → I w → I { w with state := σ' })
    {c : (agentSystem E).Config} (hc : System.Reachable σ c) {x : AgentEntry Tok}
    {l : List (AgentEntry Tok)} (hl : x :: l <:+ c.world.log) :
    ∃ i w w', Consistent (S := agentSystem E) σ w ∧ I w ∧ Move E i w w' ∧ w.log <:+ l ∧
      x :: l <:+ w'.log ∧ w'.log <:+ c.world.log := by
  let K : AgentWorld E → Prop := fun u => I u ∧ ∀ x l, x :: l <:+ u.log →
    ∃ i w w', Consistent (S := agentSystem E) σ w ∧ I w ∧ Move E i w w' ∧ w.log <:+ l ∧
      x :: l <:+ w'.log ∧ w'.log <:+ u.log
  suffices K c.world from this.2 x l hl
  refine Reachable.invariant E (I := K) ⟨h0, fun x l h => absurd h (by simp)⟩ ?_ ?_ hc
  · intro i u u' hu hm hK
    refine ⟨hmove i u u' hu hm hK.1, fun x l hl => ?_⟩
    have old : x :: l <:+ u.log → ∃ i w w', Consistent (S := agentSystem E) σ w ∧ I w ∧
        Move E i w w' ∧ w.log <:+ l ∧ x :: l <:+ w'.log ∧ w'.log <:+ u'.log := by
      intro hl
      obtain ⟨j, w, w', hw, hI, hj, h₁, h₂, h₃⟩ := hK.2 x l hl
      exact ⟨j, w, w', hw, hI, hj, h₁, h₂, h₃.trans hm.grows⟩
    rcases List.suffix_or_suffix_of_suffix hl hm.grows with h | h
    · exact old h
    · rcases List.suffix_cons_iff.1 h with h | h
      · exact old (h ▸ List.suffix_refl _)
      · exact ⟨i, u, u', hu, hK.1, hm, h, hl, List.suffix_refl _⟩
  · exact fun u σ' hu hp hK => ⟨hpass u σ' hu hp hK.1, hK.2⟩

/-- The same without an invariant. -/
theorem Reachable.moved {σ : Shared} {c : (agentSystem E).Config} (hc : System.Reachable σ c)
    {x : AgentEntry Tok} {l : List (AgentEntry Tok)} (hl : x :: l <:+ c.world.log) :
    ∃ i w w', Move E i w w' ∧ w.log <:+ l ∧ x :: l <:+ w'.log ∧ w'.log <:+ c.world.log := by
  obtain ⟨i, w, w', -, -, h⟩ := Reachable.added E (I := fun _ => True) trivial
    (fun _ _ _ _ _ _ => trivial) (fun _ _ _ _ _ => trivial) hc hl
  exact ⟨i, w, w', h⟩

/-- Events that come first in the move that adds them, among others. -/
def First : AgentEvent Tok → Prop
  | .op (.get _ _) _ | .spawn _ | .send _ | .recv .. => True
  | _ => False

/-- An entry that comes first in its move was added to the world that the move started from. -/
theorem Move.first {i : Nat} {w w' : AgentWorld E} (hm : Move E i w w') {x : AgentEntry Tok}
    {l : List (AgentEntry Tok)} (hl : x :: l <:+ w'.log) (hw : w.log <:+ l)
    (hx : First x.event) : w = ⟨x.state, l⟩ := by
  have newest : ∀ {e : AgentEvent Tok}, x :: l <:+ ⟨i, w.state, e⟩ :: w.log →
      w = ⟨x.state, l⟩ := by
    intro e h
    obtain ⟨rfl, rfl⟩ := eq_of_newest h hw
    rfl
  have older : ∀ {y : AgentEntry Tok} {l' : List (AgentEntry Tok)}, x :: l <:+ y :: l' →
      ¬ First y.event → x :: l <:+ l' := by
    intro y l' h hy
    refine suffix_of_ne h fun he => ?_
    rw [← he] at hy
    exact hy hx
  cases hm with
  | mild o _ => exact newest hl
  | preview a t args _ _ => exact newest (older hl not_false)
  | commit a c _ => exact newest hl
  | send q _ => exact newest hl
  | recv q r _ => exact newest hl
  | success a c r _ _ _ _ =>
    exact newest (older (older (older hl not_false) not_false) not_false)
  | complete t action token expiresAt _ _ => exact newest (older (older hl not_false) not_false)
  | spawn j _ => exact newest hl
  | finish x _ _ => exact newest hl

/-- What holds of every reachable world held of the worlds to which the entries of its history
were added. -/
theorem Reachable.at_entry {σ : Shared} {I : AgentWorld E → Prop} (h0 : I ⟨σ, []⟩)
    (hmove : ∀ i w w', Consistent (S := agentSystem E) σ w → Move E i w w' → I w → I w')
    (hpass : ∀ (w : AgentWorld E) σ', Consistent (S := agentSystem E) σ w →
      w.state.Passes σ' → I w → I { w with state := σ' })
    {c : (agentSystem E).Config} (hc : System.Reachable σ c) {x : AgentEntry Tok}
    {l : List (AgentEntry Tok)} (hl : x :: l <:+ c.world.log) (hx : First x.event) :
    I ⟨x.state, l⟩ := by
  obtain ⟨i, w, w', -, hI, hm, hw, hl', -⟩ := Reachable.added E h0 hmove hpass hc hl
  rw [← hm.first E hl' hw hx]
  exact hI

/-! ## Committing requests -/

/-- Every committing request of a run was sent with all that the code checks before it. -/
theorem Reachable.commit_guard {σ : Shared} {c : (agentSystem E).Config}
    (hc : System.Reachable σ c) {i : Nat} {s : Shared} {q : Req} {l : List (AgentEntry Tok)}
    (hl : ⟨i, s, .send q⟩ :: l <:+ c.world.log) (hq : q.commits = true) :
    ∃ a t, q = a.commitTool.request t ∧ CommitGuard E ⟨s, l⟩ i a t := by
  obtain ⟨j, w, w', hm, hw, hl', -⟩ := Reachable.moved E hc hl
  have hwl : w = ⟨s, l⟩ := hm.first E hl' hw trivial
  subst hwl
  have newest : ∀ {e : AgentEvent Tok}, (⟨i, s, .send q⟩ : AgentEntry Tok) :: l <:+ ⟨j, s, e⟩ :: l →
      i = j ∧ Event.send q = e := by
    intro e h
    obtain ⟨he, -⟩ := eq_of_newest h (List.suffix_refl _)
    cases he
    exact ⟨rfl, rfl⟩
  cases hm with
  | mild o _ => cases (newest hl').2
  | preview a t args _ _ =>
    have hl' := suffix_of_ne hl' (by rintro ⟨⟩)
    cases (newest hl').2
  | commit a c h =>
    obtain ⟨rfl, he⟩ := newest hl'
    cases he
    exact ⟨a, c, rfl, h⟩
  | send q' hq' =>
    cases (newest hl').2
    rw [hq'] at hq
    cases hq
  | recv q' r _ => cases (newest hl').2
  | success a c r _ _ _ _ =>
    have hl' := suffix_of_ne hl' (by rintro ⟨⟩)
    have hl' := suffix_of_ne hl' (by rintro ⟨⟩)
    have hl' := suffix_of_ne hl' (by rintro ⟨⟩)
    cases (newest hl').2
  | complete t action token expiresAt _ _ =>
    have hl' := suffix_of_ne hl' (by rintro ⟨⟩)
    have hl' := suffix_of_ne hl' (by rintro ⟨⟩)
    cases (newest hl').2
  | spawn j' _ => cases (newest hl').2
  | finish x _ _ => cases (newest hl').2

end Teamspace.Agent
