import Teamspace.Lib.Separator

/-!
# The framing of a chat reply

The agent streams a reply as its text, a marker and its metadata. The portal
(`webapp/blueprints/chat.py`, `_stream_response_chunks`) and the chat panel in the browser
(`webapp/templates/chat/panel.html`, `submitChat`) take the stream apart chunk by chunk, and look
for the marker in each chunk by itself. So they find it exactly when one chunk holds all of it
(`stream_round_trip`); when the transport divides it, it is shown as text, with the metadata that
follows (`divided_marker`).
-/

namespace Teamspace.Webapp

open Teamspace.Lib

/-- A decoded text. -/
abbrev Text := List Char

/-- The marker between the text and the metadata. -/
def metadataStart : Text := "__METADATA_START__".toList

/-- `s.split(marker)`. -/
def splitAtMarker (s : Text) : List Text := pieces metadataStart s.length s

/-- The local variables of the two loops. -/
structure Reader where
  fullText : Text
  metadata : Text
  isMetadata : Bool
  deriving DecidableEq, Repr

/-- The variables before the first chunk. -/
def Reader.start : Reader := ⟨[], [], false⟩

/-! ## The portal -/

/-- What `_stream_response_chunks` yields. -/
inductive StreamPart
  | text (s : Text)
  | done (fullText metadata : Text)
  deriving DecidableEq, Repr

/-- One round of the loop of `_stream_response_chunks`. -/
def readChunk (r : Reader) (chunk : Text) : List StreamPart × Reader :=
  if chunk = [] then ([], r)
  else if metadataStart <:+: chunk then
    let parts := splitAtMarker chunk
    ([.text (parts.getD 0 [])],
      { fullText := r.fullText ++ parts.getD 0 [], metadata := parts.getD 1 [], isMetadata := true })
  else if r.isMetadata then ([], { r with metadata := r.metadata ++ chunk })
  else ([.text chunk], { r with fullText := r.fullText ++ chunk })

/-- The loop from a state of the variables, with the last yield. -/
def readChunks (r : Reader) : List Text → List StreamPart
  | [] => [.done r.fullText r.metadata]
  | chunk :: chunks => (readChunk r chunk).1 ++ readChunks (readChunk r chunk).2 chunks

/-- `_stream_response_chunks`. -/
def streamResponseChunks (chunks : List Text) : List StreamPart := readChunks .start chunks

/-! ## The chat panel -/

/-- One round of the loop of `submitChat`. -/
def submitChatChunk (r : Reader) (chunk : Text) : Reader :=
  if metadataStart <:+: chunk then
    let parts := splitAtMarker chunk
    { fullText := r.fullText ++ parts.getD 0 [], metadata := parts.getD 1 [], isMetadata := true }
  else if r.isMetadata then { r with metadata := r.metadata ++ chunk }
  else { r with fullText := r.fullText ++ chunk }

/-- The variables of `submitChat` after its loop. -/
def submitChat (chunks : List Text) : Reader := chunks.foldl submitChatChunk .start

/-! ## The two loops do the same -/

/-- An empty text has no marker. -/
theorem marker_not_infix_nil : ¬ metadataStart <:+: ([] : Text) := by decide

/-- A round of the portal changes its variables as a round of the panel does. -/
theorem readChunk_snd (r : Reader) (chunk : Text) :
    (readChunk r chunk).2 = submitChatChunk r chunk := by
  unfold readChunk submitChatChunk
  split
  · next h =>
    subst h
    rw [if_neg marker_not_infix_nil]
    split
    · rw [List.append_nil]
    · rw [List.append_nil]
  · split
    · rfl
    · split <;> rfl

/-- A round yields what it adds to the text. -/
theorem readChunk_fst (r : Reader) (chunk : Text) : ∃ texts : List Text,
    (readChunk r chunk).1 = texts.map .text ∧
      (readChunk r chunk).2.fullText = r.fullText ++ texts.flatten := by
  unfold readChunk
  split
  · exact ⟨[], rfl, (List.append_nil _).symm⟩
  · split
    · exact ⟨[_], rfl, by simp⟩
    · split
      · exact ⟨[], rfl, (List.append_nil _).symm⟩
      · exact ⟨[chunk], rfl, by simp⟩

/-- The portal yields the text of the reply, and then what the panel would end with. -/
theorem readChunks_eq (r : Reader) (chunks : List Text) : ∃ texts : List Text,
    readChunks r chunks = texts.map .text ++ [.done (chunks.foldl submitChatChunk r).fullText
      (chunks.foldl submitChatChunk r).metadata] ∧
      (chunks.foldl submitChatChunk r).fullText = r.fullText ++ texts.flatten := by
  induction chunks generalizing r with
  | nil => exact ⟨[], rfl, (List.append_nil _).symm⟩
  | cons chunk chunks ih =>
    obtain ⟨texts, hy, hf⟩ := readChunk_fst r chunk
    obtain ⟨texts', hy', hf'⟩ := ih (readChunk r chunk).2
    rw [readChunk_snd] at hf hy' hf'
    refine ⟨texts ++ texts', ?_, ?_⟩
    · rw [readChunks, hy, readChunk_snd, hy', List.map_append, List.append_assoc]
      rfl
    · rw [List.foldl_cons, hf', hf, List.flatten_append, List.append_assoc]

/-! ## Rounds without and with the marker -/

/-- Chunks without the marker before it are text. -/
theorem foldl_text {chunks : List Text} (h : ∀ c ∈ chunks, ¬ metadataStart <:+: c) {r : Reader}
    (hr : r.isMetadata = false) :
    chunks.foldl submitChatChunk r = { r with fullText := r.fullText ++ chunks.flatten } := by
  induction chunks generalizing r with
  | nil => simp
  | cons c chunks ih =>
    have hc : submitChatChunk r c = { r with fullText := r.fullText ++ c } := by
      rw [submitChatChunk, if_neg (h c (.head _)), hr]
      rfl
    rw [List.foldl_cons, hc]
    refine (ih (fun c hc => h c (.tail _ hc)) (r := { r with fullText := r.fullText ++ c }) hr).trans ?_
    simp

/-- Chunks without the marker after it are metadata. -/
theorem foldl_metadata {chunks : List Text} (h : ∀ c ∈ chunks, ¬ metadataStart <:+: c) {r : Reader}
    (hr : r.isMetadata = true) :
    chunks.foldl submitChatChunk r = { r with metadata := r.metadata ++ chunks.flatten } := by
  induction chunks generalizing r with
  | nil => simp
  | cons c chunks ih =>
    have hc : submitChatChunk r c = { r with metadata := r.metadata ++ c } := by
      rw [submitChatChunk, if_neg (h c (.head _)), hr]
      rfl
    rw [List.foldl_cons, hc]
    refine (ih (fun c hc => h c (.tail _ hc)) (r := { r with metadata := r.metadata ++ c }) hr).trans ?_
    simp

/-- A chunk with the marker is cut at its first occurrence. -/
theorem submitChatChunk_cut {chunk a b : Text} (h : cut metadataStart chunk = some (a, b))
    (r : Reader) : ∃ p, submitChatChunk r chunk = ⟨r.fullText ++ a, p, true⟩ ∧ p <+: b ∧
      (¬ metadataStart <:+: b → p = b) := by
  obtain ⟨p, rest, hp, hpre, hall⟩ := pieces_cut (by decide) h
  refine ⟨p, ?_, hpre, hall⟩
  have hin : metadataStart <:+: chunk := by
    obtain ⟨rfl, -⟩ := cut_eq_some.1 h
    exact ⟨a, b, rfl⟩
  rw [submitChatChunk, if_pos hin, splitAtMarker, hp]
  rfl

/-- The characters that a state of the variables holds. -/
def Reader.size (r : Reader) : Nat := r.fullText.length + r.metadata.length

/-- The chunk has the marker. -/
def hasMarker (chunk : Text) : Bool := decide (metadataStart <:+: chunk)

/-- A round keeps no more than the characters of its chunk, and a marker in it is not kept. -/
theorem size_submitChatChunk (r : Reader) (chunk : Text) :
    (submitChatChunk r chunk).size + metadataStart.length * [chunk].countP hasMarker ≤
      r.size + chunk.length := by
  by_cases h : metadataStart <:+: chunk
  · obtain ⟨a, b, hc⟩ := exists_cut h
    obtain ⟨p, he, hp, -⟩ := submitChatChunk_cut hc r
    have hcount : [chunk].countP hasMarker = 1 :=
      List.countP_eq_length.2 (by simpa [hasMarker] using h)
    obtain ⟨rfl, -⟩ := cut_eq_some.1 hc
    have := hp.length_le
    simp only [he, hcount, Reader.size, List.length_append]
    omega
  · have hcount : [chunk].countP hasMarker = 0 :=
      List.countP_eq_zero.2 (by simpa [hasMarker] using h)
    rw [hcount]
    unfold submitChatChunk
    rw [if_neg h]
    split <;> simp only [Reader.size, List.length_append] <;> omega

/-- Nor are the markers of many chunks. -/
theorem size_foldl (r : Reader) (chunks : List Text) :
    (chunks.foldl submitChatChunk r).size + metadataStart.length * chunks.countP hasMarker ≤
      r.size + chunks.flatten.length := by
  induction chunks generalizing r with
  | nil => exact Nat.le_add_right ..
  | cons c chunks ih =>
    have h₁ := ih (submitChatChunk r c)
    have h₂ := size_submitChatChunk r c
    have hcount : (c :: chunks).countP hasMarker =
        [c].countP hasMarker + chunks.countP hasMarker := by
      rw [← List.countP_append, List.singleton_append]
    rw [hcount, Nat.mul_add]
    simp only [List.foldl_cons, List.flatten_cons, List.length_append]
    omega

/-! ## Round trips -/

/-- The portal yields the text `T`, all of it and nothing else, and then the metadata `M`. -/
def Delivers (parts : List StreamPart) (T M : Text) : Prop :=
  ∃ texts : List Text, parts = texts.map .text ++ [.done texts.flatten M] ∧ texts.flatten = T

/-- One chunk holds the whole marker that follows the text `T`, and nothing in that chunk reads as
the marker before it. -/
def MarkerWhole (T : Text) (chunks : List Text) : Prop :=
  ∃ pre a b post, chunks = pre ++ (a ++ metadataStart ++ b) :: post ∧ T = pre.flatten ++ a ∧
    ∀ k < a.length, ¬ metadataStart <+: (a ++ metadataStart ++ b).drop k

/-- The panel and the portal agree on what they deliver. -/
theorem delivers_iff {chunks : List Text} {T M : Text} :
    Delivers (streamResponseChunks chunks) T M ↔
      (submitChat chunks).fullText = T ∧ (submitChat chunks).metadata = M := by
  obtain ⟨texts, hy, hf⟩ := readChunks_eq .start chunks
  have hf : (submitChat chunks).fullText = texts.flatten := hf
  have hy : streamResponseChunks chunks = texts.map .text ++
    [.done (submitChat chunks).fullText (submitChat chunks).metadata] := hy
  constructor
  · rintro ⟨texts', he, rfl⟩
    have hlast := List.append_inj_right' (hy.symm.trans he) rfl
    simp only [List.cons.injEq, StreamPart.done.injEq, and_true] at hlast
    exact hlast
  · rintro ⟨hT, hM⟩
    exact ⟨texts, by rw [hy, hM, hf], hf.symm.trans hT⟩

/-- A chunk of a text without the marker has none. -/
theorem not_infix_of_mem {chunks : List Text} {s : Text} (hs : ¬ metadataStart <:+: s)
    (h : chunks.flatten <:+: s) : ∀ c ∈ chunks, ¬ metadataStart <:+: c := by
  intro c hc hm
  exact hs (hm.trans ((List.infix_of_mem_flatten hc).trans h))

/-- Where the marker is whole, the panel delivers the reply. -/
theorem submitChat_of_whole {chunks : List Text} {T M : Text} (hT : ¬ metadataStart <:+: T)
    (hM : ¬ metadataStart <:+: M) (hflat : chunks.flatten = T ++ metadataStart ++ M)
    (h : MarkerWhole T chunks) :
    (submitChat chunks).fullText = T ∧ (submitChat chunks).metadata = M := by
  obtain ⟨pre, a, b, post, rfl, rfl, hfirst⟩ := h
  have hrest : b ++ post.flatten = M := by
    simpa [List.append_assoc] using hflat
  have hcut : cut metadataStart (a ++ metadataStart ++ b) = some (a, b) :=
    cut_eq_some.2 ⟨rfl, hfirst⟩
  obtain ⟨p, hstep, -, hp⟩ := submitChatChunk_cut hcut { Reader.start with fullText := pre.flatten }
  have hb : ¬ metadataStart <:+: b := fun h => hM (h.trans ⟨[], post.flatten, by simpa using hrest⟩)
  rw [hp hb] at hstep
  have hpre := foldl_text (not_infix_of_mem hT (List.prefix_append _ a).isInfix) (r := .start) rfl
  have hpost := foldl_metadata (r := ⟨pre.flatten ++ a, b, true⟩)
    (not_infix_of_mem hM ⟨b, [], by simpa using hrest⟩) rfl
  have hrun : submitChat (pre ++ (a ++ metadataStart ++ b) :: post) =
      ⟨pre.flatten ++ a, b ++ post.flatten, true⟩ := by
    rw [submitChat, List.foldl_append, List.foldl_cons, hpre]
    exact (congrArg (fun r => List.foldl submitChatChunk r post) hstep).trans hpost
  rw [hrun]
  exact ⟨rfl, hrest⟩

/-- The panel delivers the reply only where the marker is whole: otherwise the chunks that have the
marker keep too few characters. -/
theorem whole_of_submitChat {chunks : List Text} {T M : Text}
    (hflat : chunks.flatten = T ++ metadataStart ++ M) (hT : (submitChat chunks).fullText = T)
    (hM : (submitChat chunks).metadata = M) : MarkerWhole T chunks := by
  have hlen : 0 < metadataStart.length := by decide
  have hsize : (submitChat chunks).size = T.length + M.length := by
    rw [Reader.size, hT, hM]
  have hcount : chunks.countP hasMarker ≤ 1 := by
    have h : (submitChat chunks).size + metadataStart.length * chunks.countP hasMarker ≤
        0 + chunks.flatten.length := size_foldl .start chunks
    simp only [hsize, hflat, List.length_append] at h
    refine Nat.le_of_mul_le_mul_left ?_ hlen
    omega
  by_cases h : ∃ c ∈ chunks, metadataStart <:+: c
  · obtain ⟨chunk, hmem, hc⟩ := h
    obtain ⟨pre, post, rfl⟩ := List.append_of_mem hmem
    -- the only chunk that has the marker
    have hone : hasMarker chunk = true := decide_eq_true hc
    rw [List.countP_append, List.countP_cons_of_pos hone] at hcount
    have free : ∀ {l : List Text}, l.countP hasMarker = 0 → ∀ c ∈ l, ¬ metadataStart <:+: c := by
      intro l hl c hc
      simpa [hasMarker] using List.countP_eq_zero.1 hl c hc
    have hpre := foldl_text (free (l := pre) (by omega)) (r := .start) rfl
    obtain ⟨a, b, hcut⟩ := exists_cut hc
    obtain ⟨p, hstep, -, -⟩ := submitChatChunk_cut hcut { Reader.start with fullText := pre.flatten }
    have hpost := foldl_metadata (r := ⟨pre.flatten ++ a, p, true⟩)
      (free (l := post) (by omega)) rfl
    have hrun : submitChat (pre ++ chunk :: post) = ⟨pre.flatten ++ a, p ++ post.flatten, true⟩ := by
      rw [submitChat, List.foldl_append, List.foldl_cons, hpre]
      exact (congrArg (fun r => List.foldl submitChatChunk r post) hstep).trans hpost
    obtain ⟨rfl, hfirst⟩ := cut_eq_some.1 hcut
    refine ⟨pre, a, b, post, rfl, ?_, hfirst⟩
    rw [← hT, hrun]
  · -- without a chunk that has the marker, all is text
    have hall := foldl_text (fun c hc hm => h ⟨c, hc, hm⟩) (r := .start) rfl
    have htext : (submitChat chunks).fullText = chunks.flatten := by
      rw [submitChat, hall]
      rfl
    have := congrArg List.length (hT.symm.trans (htext.trans hflat))
    simp only [List.length_append] at this
    omega

/-- For a reply without the marker in its text and its metadata, and any division of its stream
into chunks, the portal yields exactly the text and then the metadata, and the panel ends with
them, exactly where the marker is whole. -/
theorem stream_round_trip {T M : Text} (hT : ¬ metadataStart <:+: T) (hM : ¬ metadataStart <:+: M)
    {chunks : List Text} (hflat : chunks.flatten = T ++ metadataStart ++ M) :
    (Delivers (streamResponseChunks chunks) T M ↔ MarkerWhole T chunks) ∧
      ((submitChat chunks).fullText = T ∧ (submitChat chunks).metadata = M ↔
        MarkerWhole T chunks) := by
  have hpanel : (submitChat chunks).fullText = T ∧ (submitChat chunks).metadata = M ↔
      MarkerWhole T chunks := by
    constructor
    · rintro ⟨h₁, h₂⟩
      exact whole_of_submitChat hflat h₁ h₂
    · exact submitChat_of_whole hT hM hflat
  exact ⟨delivers_iff.trans hpanel, hpanel⟩

/-- A short reply in chunks of its parts. -/
theorem stream_round_trip_short :
    (Delivers (streamResponseChunks [['h', 'i'], metadataStart, ['{', '}']]) ['h', 'i'] ['{', '}'] ↔
      MarkerWhole ['h', 'i'] [['h', 'i'], metadataStart, ['{', '}']]) ∧
      ((submitChat [['h', 'i'], metadataStart, ['{', '}']]).fullText = ['h', 'i'] ∧
        (submitChat [['h', 'i'], metadataStart, ['{', '}']]).metadata = ['{', '}'] ↔
        MarkerWhole ['h', 'i'] [['h', 'i'], metadataStart, ['{', '}']]) :=
  stream_round_trip (by decide) (by decide) rfl

/-- A reply whose marker arrives in two chunks is yielded as text, with its metadata. -/
theorem divided_marker : ¬ ∀ (T M : Text) (chunks : List Text), ¬ metadataStart <:+: T →
    ¬ metadataStart <:+: M → (∀ c ∈ chunks, c ≠ []) →
    chunks.flatten = T ++ metadataStart ++ M →
    Delivers (streamResponseChunks chunks) T M := by
  intro h
  obtain ⟨texts, hy, ht⟩ := h ['h', 'i'] ['{', '}']
    [['h', 'i'] ++ metadataStart.take 9, metadataStart.drop 9 ++ ['{', '}']]
    (by decide) (by decide) (by decide) (by decide)
  have hlast := congrArg List.getLast? hy
  rw [List.getLast?_concat, ht] at hlast
  exact absurd hlast (by decide)

end Teamspace.Webapp
