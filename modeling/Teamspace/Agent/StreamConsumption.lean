import Mathlib.Data.List.TakeWhile
import Teamspace.Agent.ToolLoops

/-!
# The consumption of a stream

`_consume_stream_for_text_and_fn` of `agent/gemini_agent.py` is a generator: it reads the chunks of a
response one by one and yields between them. What it does is a list of `Action`s. How the response
is divided into chunks shows in nothing that it yields (`stream_consumed`), and the tool loops see
what it yields (`consume_ofParts`).
-/

namespace Teamspace.Agent.StreamConsumption

/-! ## The code -/

/-- `types.Part`. An attribute that is missing is none. -/
structure StreamPart where
  functionCall : Option FunctionCall
  text : Option String
  deriving DecidableEq, Repr

/-- `types.Content`. -/
structure StreamContent where
  parts : Option (List StreamPart)
  deriving DecidableEq, Repr

/-- `types.Candidate`. -/
structure Candidate where
  content : Option StreamContent
  deriving DecidableEq, Repr

/-- `types.GenerateContentResponse`. -/
structure Chunk where
  candidates : Option (List Candidate)
  deriving DecidableEq, Repr

/-- What the generator yields. -/
inductive Item
  | text (text : String)
  | fnCall (part : StreamPart)
  | done
  deriving DecidableEq, Repr

/-- What the generator does. -/
inductive Action
  | reads (chunk : Chunk)
  | yields (item : Item)
  /-- It asks `None` for its `parts`. -/
  | attributeError
  deriving DecidableEq, Repr

/-- The parts that are looked at, unless a candidate without content is asked for them. -/
def Chunk.parts (chunk : Chunk) : Option (List StreamPart) :=
  match chunk.candidates.getD [] with
  | [] => some []
  | candidate :: _ => candidate.content.map fun content => content.parts.getD []

/-- The loop over the parts of a chunk: what it yields, and the part at which it breaks off. -/
def consumeParts : List StreamPart → List Item × Option StreamPart
  | [] => ([], none)
  | part :: rest =>
    if part.functionCall.isSome then ([], some part)
    else if part.text.getD "" ≠ "" then
      (.text (part.text.getD "") :: (consumeParts rest).1, (consumeParts rest).2)
    else consumeParts rest

/-- `_consume_stream_for_text_and_fn`. -/
def consume : List Chunk → List Action
  | [] => [.yields .done]
  | chunk :: rest =>
    .reads chunk ::
      match chunk.parts with
      | none => [.attributeError]
      | some parts =>
        (consumeParts parts).1.map .yields ++
          match (consumeParts parts).2 with
          | some part => [.yields (.fnCall part)]
          | none => consume rest

/-! ## What it yields -/

/-- What is yielded, in order. -/
def yielded (actions : List Action) : List Item :=
  actions.filterMap fun
    | .yields item => some item
    | _ => none

/-- The chunks that are read, in order. -/
def chunksRead (actions : List Action) : List Chunk :=
  actions.filterMap fun
    | .reads chunk => some chunk
    | _ => none

/-- The text of a part that is not empty. -/
def StreamPart.nonemptyText (part : StreamPart) : Option String :=
  part.text.filter (· ≠ "")

/-- The texts before the first function call. -/
def textsBeforeCall (parts : List StreamPart) : List String :=
  (parts.takeWhile fun part => part.functionCall.isNone).filterMap StreamPart.nonemptyText

/-- The first part with a function call. -/
def callPart (parts : List StreamPart) : Option StreamPart :=
  parts.find? fun part => part.functionCall.isSome

/-- What comes last. -/
def terminator (parts : List StreamPart) : Item :=
  (callPart parts).elim .done .fnCall

/-- No candidate without content stands first. -/
def Chunk.HasContent (chunk : Chunk) : Prop := chunk.parts.isSome = true

/-- All parts of a response. -/
def allParts (chunks : List Chunk) : List StreamPart :=
  chunks.flatMap fun chunk => chunk.parts.getD []

/-- The chunk has a part with a function call. -/
def Chunk.HoldsCall (chunk : Chunk) : Prop := (callPart (chunk.parts.getD [])).isSome = true

section

variable {parts : List StreamPart} {chunks : List Chunk}

/-- Nothing after a function call is looked at. -/
theorem before_call {part : StreamPart} (h : part.functionCall.isSome = true) :
    textsBeforeCall (part :: parts) = [] ∧ callPart (part :: parts) = some part := by
  have hnone : part.functionCall.isNone = false := by
    rw [← Option.not_isSome, h]
    rfl
  rw [textsBeforeCall, List.takeWhile_cons_of_neg (by simp [hnone]), callPart,
    List.find?_cons_of_pos (p := fun part : StreamPart => part.functionCall.isSome) h]
  exact ⟨rfl, rfl⟩

/-- A part that is no call goes before the call with its text. -/
theorem before_other {part : StreamPart} (h : part.functionCall = none) :
    textsBeforeCall (part :: parts) = part.nonemptyText.toList ++ textsBeforeCall parts ∧
      callPart (part :: parts) = callPart parts := by
  rw [textsBeforeCall, List.takeWhile_cons_of_pos (by simp [h]), callPart,
    List.find?_cons_of_neg (by simp [h])]
  refine ⟨?_, rfl⟩
  cases htext : part.nonemptyText with
  | none => rw [List.filterMap_cons_none htext]; rfl
  | some text => rw [List.filterMap_cons_some htext]; rfl

/-- Texts go on after a list without a function call. -/
theorem textsBeforeCall_append {more : List StreamPart} (h : callPart parts = none) :
    textsBeforeCall (parts ++ more) = textsBeforeCall parts ++ textsBeforeCall more := by
  have hall : ∀ part ∈ parts, part.functionCall.isNone = true := by
    intro part hpart
    simpa using List.find?_eq_none.1 h part hpart
  rw [textsBeforeCall, List.takeWhile_append_of_pos hall, List.filterMap_append]
  congr 2
  exact (List.takeWhile_eq_self_iff.2 hall).symm

/-- What follows a call does not come before it. -/
theorem textsBeforeCall_of_call {more : List StreamPart} {part : StreamPart}
    (h : callPart parts = some part) : textsBeforeCall (parts ++ more) = textsBeforeCall parts := by
  induction parts with
  | nil => cases h
  | cons first rest ih =>
    cases hcall : first.functionCall with
    | some call =>
      have hsome : first.functionCall.isSome = true := by rw [hcall]; rfl
      rw [List.cons_append, (before_call hsome).1, (before_call hsome).1]
    | none =>
      rw [(before_other hcall).2] at h
      rw [List.cons_append, (before_other hcall).1, (before_other hcall).1, ih h]

/-- The loop over the parts of a chunk. -/
theorem consumeParts_eq (parts : List StreamPart) :
    consumeParts parts = ((textsBeforeCall parts).map .text, callPart parts) := by
  induction parts with
  | nil => rfl
  | cons part rest ih =>
    rw [consumeParts]
    split
    · next hcall => rw [(before_call hcall).1, (before_call hcall).2]; rfl
    · next hcall =>
      have hnone : part.functionCall = none := by simpa using hcall
      rw [(before_other hnone).1, (before_other hnone).2, ih]
      cases htext : part.text with
      | none => simp [StreamPart.nonemptyText, htext]
      | some text =>
        by_cases hempty : text = "" <;>
          simp [StreamPart.nonemptyText, htext, hempty, Option.filter]

/-- What a chunk adds to what is yielded, and to what is read. -/
theorem yielded_reads (chunk : Chunk) (items : List Item) (rest : List Action) :
    yielded (.reads chunk :: (items.map .yields ++ rest)) = items ++ yielded rest := by
  change (items.map Action.yields ++ rest).filterMap _ = _
  rw [List.filterMap_append, List.filterMap_map]
  exact congrArg (· ++ yielded rest) List.filterMap_some

/-- A chunk that is read is read before the others. -/
theorem chunksRead_reads (chunk : Chunk) (items : List Item) (rest : List Action) :
    chunksRead (.reads chunk :: (items.map .yields ++ rest)) = chunk :: chunksRead rest := by
  change chunk :: (items.map Action.yields ++ rest).filterMap _ = _
  rw [List.filterMap_append, List.filterMap_map]
  exact congrArg (chunk :: · ++ chunksRead rest) (List.filterMap_none ..)

/-- A chunk that holds a function call is the last one. -/
theorem consume_call {chunk : Chunk} {part : StreamPart} (hparts : chunk.parts = some parts)
    (hcall : callPart parts = some part) (rest : List Chunk) :
    consume (chunk :: rest) = .reads chunk ::
      (((textsBeforeCall parts).map .text).map .yields ++ [.yields (.fnCall part)]) := by
  simp only [consume, hparts, consumeParts_eq, hcall]

/-- After another chunk the generator goes on. -/
theorem consume_other {chunk : Chunk} (hparts : chunk.parts = some parts)
    (hcall : callPart parts = none) (rest : List Chunk) :
    consume (chunk :: rest) = .reads chunk ::
      (((textsBeforeCall parts).map .text).map .yields ++ consume rest) := by
  simp only [consume, hparts, consumeParts_eq, hcall]

/-- The parts of a chunk come before those of the others. -/
theorem allParts_cons {chunk : Chunk} (hparts : chunk.parts = some parts) (rest : List Chunk) :
    allParts (chunk :: rest) = parts ++ allParts rest := by
  rw [allParts, List.flatMap_cons, hparts]
  rfl

/-- What is yielded does not depend on how the parts are divided into chunks. -/
theorem yielded_consume (h : ∀ chunk ∈ chunks, chunk.HasContent) :
    yielded (consume chunks) =
      (textsBeforeCall (allParts chunks)).map .text ++ [terminator (allParts chunks)] := by
  induction chunks with
  | nil => rfl
  | cons chunk rest ih =>
    obtain ⟨parts, hparts⟩ := Option.isSome_iff_exists.1 (h chunk List.mem_cons_self)
    rw [allParts_cons hparts, terminator, callPart, List.find?_append, ← callPart, ← callPart]
    cases hcall : callPart parts with
    | some part =>
      rw [consume_call hparts hcall, textsBeforeCall_of_call hcall, yielded_reads]
      rfl
    | none =>
      rw [consume_other hparts hcall, textsBeforeCall_append hcall, List.map_append,
        List.append_assoc, yielded_reads, ih fun chunk hc => h chunk (List.mem_cons_of_mem _ hc)]
      rfl

/-- No `None` is asked for its parts. -/
theorem not_mem_consume (h : ∀ chunk ∈ chunks, chunk.HasContent) :
    .attributeError ∉ consume chunks := by
  induction chunks with
  | nil => simp [consume]
  | cons chunk rest ih =>
    obtain ⟨parts, hparts⟩ := Option.isSome_iff_exists.1 (h chunk List.mem_cons_self)
    cases hcall : callPart parts with
    | some part => simp [consume_call hparts hcall]
    | none =>
      simpa [consume_other hparts hcall] using
        ih fun chunk hc => h chunk (List.mem_cons_of_mem _ hc)

/-- A chunk with a function call is the last one that is read. -/
theorem chunksRead_call {chunk : Chunk} {parts : List StreamPart} {part : StreamPart}
    (hparts : chunk.parts = some parts) (hcall : callPart parts = some part) (rest : List Chunk) :
    chunksRead (consume (chunk :: rest)) = [chunk] := by
  rw [consume_call hparts hcall, chunksRead_reads]
  rfl

/-- After a chunk without a call the next one is read. -/
theorem chunksRead_other {chunk : Chunk} {parts : List StreamPart} (hparts : chunk.parts = some parts)
    (hcall : callPart parts = none) (rest : List Chunk) :
    chunksRead (consume (chunk :: rest)) = chunk :: chunksRead (consume rest) := by
  rw [consume_other hparts hcall, chunksRead_reads]

/-- The chunks are read in order. -/
theorem chunksRead_prefix (h : ∀ chunk ∈ chunks, chunk.HasContent) :
    chunksRead (consume chunks) <+: chunks := by
  induction chunks with
  | nil => exact List.nil_prefix
  | cons chunk rest ih =>
    obtain ⟨parts, hparts⟩ := Option.isSome_iff_exists.1 (h chunk List.mem_cons_self)
    cases hcall : callPart parts with
    | some part =>
      rw [chunksRead_call hparts hcall]
      exact List.prefix_append [chunk] rest
    | none =>
      rw [chunksRead_other hparts hcall, List.cons_prefix_cons]
      exact ⟨rfl, ih fun chunk hc => h chunk (List.mem_cons_of_mem _ hc)⟩

/-- None is read after one that holds a function call. -/
theorem none_after_call (h : ∀ chunk ∈ chunks, chunk.HasContent) {earlier later : List Chunk}
    {chunk : Chunk} (hread : chunksRead (consume chunks) = earlier ++ chunk :: later)
    (hholds : chunk.HoldsCall) : later = [] := by
  induction chunks generalizing earlier with
  | nil => simp [consume, chunksRead] at hread
  | cons first rest ih =>
    obtain ⟨parts, hparts⟩ := Option.isSome_iff_exists.1 (h first List.mem_cons_self)
    cases hcall : callPart parts with
    | some part =>
      rw [chunksRead_call hparts hcall] at hread
      cases earlier with
      | nil => exact (List.cons.inj hread).2.symm
      | cons => simp at hread
    | none =>
      rw [chunksRead_other hparts hcall] at hread
      cases earlier with
      | nil =>
        -- the first chunk holds none
        obtain ⟨rfl, -⟩ := List.cons.inj hread
        rw [Chunk.HoldsCall, hparts, Option.getD_some, hcall] at hholds
        cases hholds
      | cons _ earlier =>
        exact ih (fun chunk hc => h chunk (List.mem_cons_of_mem _ hc)) (List.cons.inj hread).2

/-- Whatever the chunks, of which each has parts or none, what is yielded are the texts of all parts
before the first function call, and then the one terminator. The chunks are read in order, and none
after the one with the function call. -/
theorem stream_consumed (h : ∀ chunk ∈ chunks, chunk.HasContent) :
    yielded (consume chunks) =
        (textsBeforeCall (allParts chunks)).map .text ++ [terminator (allParts chunks)] ∧
      .attributeError ∉ consume chunks ∧
      chunksRead (consume chunks) <+: chunks ∧
      ∀ earlier chunk later, chunksRead (consume chunks) = earlier ++ chunk :: later →
        chunk.HoldsCall → later = [] :=
  ⟨yielded_consume h, not_mem_consume h, chunksRead_prefix h, fun _ _ _ => none_after_call h⟩

/-- A chunk without candidates, one with texts, and one that the function call keeps from being
read. -/
def splitCall : List Chunk :=
  [⟨none⟩, ⟨some [⟨some ⟨some [⟨none, some "a"⟩, ⟨none, some ""⟩, ⟨none, none⟩]⟩⟩]⟩,
    ⟨some [⟨some ⟨some [⟨none, some "b"⟩, ⟨some ⟨"f", none⟩, some "c"⟩, ⟨none, some "d"⟩]⟩⟩]⟩,
    ⟨some [⟨some ⟨none⟩⟩]⟩]

/-- A call in the second chunk is taken with the texts before it. -/
theorem stream_consumed_splitCall : yielded (consume splitCall) =
    [.text "a", .text "b", .fnCall ⟨some ⟨"f", none⟩, some "c"⟩] := by
  have h : ∀ chunk ∈ splitCall, chunk.HasContent :=
    List.forall_mem_cons.2 ⟨rfl, List.forall_mem_cons.2 ⟨rfl, List.forall_mem_cons.2
      ⟨rfl, List.forall_mem_singleton.2 rfl⟩⟩⟩
  rw [(stream_consumed h).1]
  decide +kernel

/-! ## The tool loops -/

/-- A part, by what the generator looks at. -/
def StreamPart.ofPart : Part → StreamPart
  | .text text => ⟨none, some text⟩
  | .functionCall call => ⟨some call, none⟩
  | .functionResponse _ _ | .other => ⟨none, none⟩

/-- A chunk whose first candidate has these parts. -/
def Chunk.ofParts (parts : List Part) : Chunk :=
  ⟨some [⟨some ⟨some (parts.map StreamPart.ofPart)⟩⟩]⟩

/-- On parts of the model's the two ways to consume them agree. -/
theorem consumeParts_ofParts (parts : List Part) :
    consumeParts (parts.map StreamPart.ofPart) = ((Agent.consumeParts parts).1.map .text,
      (Agent.consumeParts parts).2.map fun call => ⟨some call, none⟩) := by
  induction parts with
  | nil => rfl
  | cons part rest ih =>
    rw [List.map_cons]
    cases part with
    | functionCall call => rfl
    | functionResponse | other => exact ih
    | text text =>
      by_cases hempty : text = "" <;>
        simp [consumeParts, Agent.consumeParts, StreamPart.ofPart, ih, hempty]

/-- What the tool loops take from a stream is what the generator yields. -/
theorem consume_ofParts (chunks : List (List Part)) :
    yielded (consume (chunks.map Chunk.ofParts)) =
      (consumeStreamForTextAndFn chunks).1.map .text ++
        [(consumeStreamForTextAndFn chunks).2.elim .done fun call => .fnCall ⟨some call, none⟩] := by
  induction chunks with
  | nil => rfl
  | cons parts rest ih =>
    have hparts : (Chunk.ofParts parts).parts = some (parts.map StreamPart.ofPart) := rfl
    have hconsumed := consumeParts_ofParts parts
    rw [consumeParts_eq, Prod.mk.injEq] at hconsumed
    obtain ⟨htexts, hcall⟩ := hconsumed
    rw [List.map_cons, consumeStreamForTextAndFn]
    cases hfound : (Agent.consumeParts parts).2 with
    | some call =>
      rw [hfound, Option.map_some] at hcall
      rw [consume_call hparts hcall, htexts, yielded_reads]
      rfl
    | none =>
      rw [hfound, Option.map_none] at hcall
      rw [consume_other hparts hcall, htexts, yielded_reads, ih, List.map_append, List.append_assoc]

end

end Teamspace.Agent.StreamConsumption
