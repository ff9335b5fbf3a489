import Teamspace.Py.Format

/-!
# The system instruction

`_build_system_instruction` of the agent: the prompt that an administrator has stored, or the
default one, with the organization, the agent and the date filled in. It formats the prompt with
`str.format`, so a prompt comes out as it looks exactly if all its braces belong to one of the four
placeholders (`custom_prompt_exact`).
-/

namespace Teamspace.Agent

open Teamspace.Py

/-! ## What is filled in -/

/-- `html.escape` of a character. -/
def htmlEscapeChar (c : Char) : List Char :=
  if c = '&' then "&amp;".toList
  else if c = '<' then "&lt;".toList
  else if c = '>' then "&gt;".toList
  else if c = '"' then "&quot;".toList
  else if c = '\'' then "&#x27;".toList
  else [c]

/-- `html.escape(s)`. -/
def htmlEscape (s : String) : List Char := s.toList.flatMap htmlEscapeChar

/-- A day of the calendar. -/
structure Date where
  year : Nat
  month : Nat
  day : Nat
  four_digits : 1000 ≤ year ∧ year < 10000
  in_year : 1 ≤ month ∧ month ≤ 12
  in_month : 1 ≤ day ∧ day ≤ 31

def twoDigits (n : Nat) : List Char :=
  if n < 10 then '0' :: Nat.toDigits 10 n else Nat.toDigits 10 n

/-- `strftime("%Y-%m-%d")`. -/
def Date.text (d : Date) : List Char :=
  Nat.toDigits 10 d.year ++ '-' :: (twoDigits d.month ++ '-' :: twoDigits d.day)

inductive Weekday
  | monday
  | tuesday
  | wednesday
  | thursday
  | friday
  | saturday
  | sunday
  deriving DecidableEq, Repr

/-- `strftime("%A")`. -/
def Weekday.text : Weekday → List Char
  | .monday => "Monday".toList
  | .tuesday => "Tuesday".toList
  | .wednesday => "Wednesday".toList
  | .thursday => "Thursday".toList
  | .friday => "Friday".toList
  | .saturday => "Saturday".toList
  | .sunday => "Sunday".toList

/-- The keywords that a prompt is formatted with. -/
def placeholderNames : List (List Char) :=
  ["org_name".toList, "agent_name".toList, "current_date".toList, "current_weekday".toList]

/-- Their values. -/
def placeholderValue (orgName agentName : String) (date : Date) (weekday : Weekday)
    (name : List Char) : List Char :=
  if name = "org_name".toList then htmlEscape orgName
  else if name = "agent_name".toList then htmlEscape agentName
  else if name = "current_date".toList then date.text
  else weekday.text

/-- `SYSTEM_PROMPT`, in pieces. -/
def systemPromptLines : List String := [
  "You are the AI Agent \x7bagent_name\x7d for \x7borg_name\x7d.\n",
  "You help users manage scheduled video conference meetings, including scheduling new ",
  "ones, listing existing ones, updating meeting details, and deleting meetings.\n\n",
  "Today is \x7bcurrent_date\x7d (\x7bcurrent_weekday\x7d).\n\n",
  "IMPORTANT: You must format your responses in clean, semantic HTML. Use <p> for ",
  "paragraphs, <strong> for bold text, <ul>/<li> for lists, <code> for inline code, ",
  "<pre><code> for code blocks, and <a> with target=\"_blank\" for links. Do NOT use ",
  "markdown. Return raw HTML directly.\n\n",
  "When a user wants to schedule a meeting, you need to collect:\n",
  "- topic: What the meeting is about\n",
  "- date: The date (YYYY-MM-DD format)\n",
  "- start_time: Start time (HH:MM format, 24-hour)\n",
  "- duration: Duration in minutes (default 60)\n",
  "- time_zone: Timezone (default to America/Sao_Paulo)\n\n",
  "Once you have all the details, use the schedule_meeting_preview tool to show a\n",
  "preview and request user authorization. After the user authorizes, use the\n",
  "schedule_meeting tool to finalize the booking.\n\n",
  "If a user wants to view, check, or list their meetings, use the list_meetings tool. ",
  "If not authorized, it will request authorization. Once authorized, list the ",
  "meetings clearly.\n\n",
  "If a user wants to delete a meeting:\n",
  "1. First, call list_meetings to find the correct meeting and its ID if you don't ",
  "already have it in context.\n",
  "2. Call delete_meeting_preview with the meeting's ID and topic.\n",
  "3. After the user authorizes, call delete_meeting to finalize the deletion.\n\n",
  "If a user wants to update or modify a meeting (such as rescheduling time, changing ",
  "topic, duration, etc.):\n",
  "1. First, call list_meetings to find the correct meeting and its ID if you don't ",
  "already have it in context.\n",
  "2. Formulate the update by merging the changes with the existing fields.\n",
  "3. Call update_meeting_preview with the meeting ID and the updated/complete values ",
  "for all fields (topic, date, start_time, duration, time_zone).\n",
  "4. After the user authorizes, call update_meeting with the meeting ID and all ",
  "updated/complete values to finalize the update. This prevents duplicate meetings ",
  "from being created!\n\n",
  "Be conversational and helpful. If the user is vague about dates, ask for\n",
  "clarification. If they say \"tomorrow\", calculate the actual date.\n"]

/-- `SYSTEM_PROMPT`. -/
def systemPrompt : String := String.join systemPromptLines

/-- `lang_instruction`. -/
def langInstruction (language : String) : String :=
  if language = "pt" then "You must respond in Portuguese (Brazil)."
  else "You must respond in English."

/-- `_build_system_instruction`, where the clock tells a date and then a weekday. -/
def buildSystemInstruction (F : FieldReader) (date : Date) (weekday : Weekday)
    (customPrompt orgName agentName language : String) : Except Exn String :=
  let promptTemplate := if customPrompt ≠ "" then customPrompt else systemPrompt
  (format F placeholderNames (placeholderValue orgName agentName date weekday)
    promptTemplate.toList).map fun systemInstruction =>
      String.ofList systemInstruction ++ "\n\n" ++ langInstruction language

/-! ## What a prompt is meant to become -/

/-- The prompt with its placeholders replaced and nothing else changed, and the language. -/
def expectedInstruction (date : Date) (weekday : Weekday)
    (prompt orgName agentName language : String) : String :=
  String.ofList (fill placeholderNames (placeholderValue orgName agentName date weekday)
    prompt.toList) ++ "\n\n" ++ langInstruction language

/-- A prompt becomes what it is meant to, whatever it is filled in with. -/
def SafePrompt (F : FieldReader) (prompt : String) : Prop :=
  ∀ (date : Date) (weekday : Weekday) (orgName agentName language : String),
    buildSystemInstruction F date weekday prompt orgName agentName language =
      .ok (expectedInstruction date weekday prompt orgName agentName language)

/-- A text that looks nothing up in a value: no name that begins a field is followed by a dot or a
bracket. -/
def NoLookups (s : List Char) : Prop :=
  ∀ name ∈ placeholderNames, ∀ c, c = '.' ∨ c = '[' → ¬ '\x7b' :: (name ++ [c]) <:+: s

/-- Conversions and format specifications bring no braces in. -/
def LawfulReader (F : FieldReader) : Prop :=
  ∀ value field shown, (∀ name ∈ placeholderNames, NoBraces (value name)) →
    NoLookups ('\x7b' :: field) → F value field = .ok shown → NoBraces shown

section

variable {F : FieldReader} {prompt : String}

/-- The names of the placeholders are plain. -/
theorem placeholderNames_plain : PlainNames placeholderNames := by
  have hall : (placeholderNames.all fun name => name.all fun c =>
      decide (c ∉ ['\x7b', '\x7d', '.', '[', ':', '!'])) = true := by decide +kernel
  intro name hname c hc
  exact of_decide_eq_true (List.all_eq_true.1 (List.all_eq_true.1 hall name hname) c hc)

/-- Whether all braces of a prompt belong to placeholders. -/
instance (s : List Char) : Decidable (OnlyFields placeholderNames s) :=
  decidable_of_iff _ (onlyFieldsFrom_iff placeholderNames_plain)

example : ¬ OnlyFields placeholderNames "\x7b\x7borg_name\x7d\x7d".toList := by decide +kernel

/-- A custom prompt is formatted as expected exactly if its text is. -/
theorem buildSystemInstruction_custom (hprompt : prompt ≠ "") (date : Date) (weekday : Weekday)
    (orgName agentName language : String) :
    buildSystemInstruction F date weekday prompt orgName agentName language =
        .ok (expectedInstruction date weekday prompt orgName agentName language) ↔
      format F placeholderNames (placeholderValue orgName agentName date weekday) prompt.toList =
        .ok (fill placeholderNames (placeholderValue orgName agentName date weekday)
          prompt.toList) := by
  simp only [buildSystemInstruction, if_pos hprompt, map_eq_ok, expectedInstruction]
  constructor
  · rintro ⟨out, hout, h⟩
    rw [hout]
    have h := String.toList_inj.2 h
    simp only [String.toList_append, String.toList_ofList, List.append_cancel_right_eq] at h
    rw [h]
  · intro h
    exact ⟨_, h, rfl⟩

/-- A prompt whose braces all belong to placeholders is safe. -/
theorem safePrompt_of_onlyFields (hprompt : prompt ≠ "")
    (h : OnlyFields placeholderNames prompt.toList) : SafePrompt F prompt := by
  intro date weekday orgName agentName language
  rw [buildSystemInstruction_custom hprompt]
  exact format_onlyFields placeholderNames_plain h

/-- A Monday. -/
def someDate : Date := ⟨2024, 1, 1, by decide, by decide, by decide⟩

/-- Names that are empty are shorter than their placeholders. -/
theorem shortValues_empty :
    ShortValues placeholderNames (placeholderValue "" "" someDate .monday) := by
  have hall : (placeholderNames.all fun name =>
      ((placeholderValue "" "" someDate .monday name).all fun c => c != '\x7b' && c != '\x7d') &&
        decide ((placeholderValue "" "" someDate .monday name).length + 2 ≤ name.length)) =
          true := by decide +kernel
  intro name hname
  have hboth := Bool.and_eq_true_iff.1 (List.all_eq_true.1 hall name hname)
  refine ⟨fun c hc => ?_, of_decide_eq_true hboth.2⟩
  have hc := Bool.and_eq_true_iff.1 (List.all_eq_true.1 hboth.1 c hc)
  exact ⟨bne_iff_ne.1 hc.1, bne_iff_ne.1 hc.2⟩

/-- A prompt that is safe where its fields bring no braces in has no other braces. -/
theorem onlyFields_of_safePrompt (hprompt : prompt ≠ "")
    (hread : ∀ field shown, '\x7b' :: field <:+: prompt.toList →
      F (placeholderValue "" "" someDate .monday) field = .ok shown → NoBraces shown)
    (h : SafePrompt F prompt) : OnlyFields placeholderNames prompt.toList :=
  onlyFields_of_format placeholderNames_plain shortValues_empty hread
    ((buildSystemInstruction_custom hprompt ..).1 (h someDate .monday "" "" ""))

/-- A check of all lines is one of each. -/
theorem all_toList_cons (p : List Char → Bool) {s : List Char} {l : List String} :
    ((String.ofList s :: l).all fun line => p line.toList) =
      (p s && l.all fun line => p line.toList) := by
  rw [List.all_cons, String.toList_ofList]

/-- The prompt of the system has bare fields only. -/
theorem onlyFields_systemPrompt : OnlyFields placeholderNames systemPrompt.toList := by
  have hlines : (systemPromptLines.all fun line =>
      onlyFieldsFrom placeholderNames 0 line.toList) = true := by
    rw [systemPromptLines]
    repeat rw [all_toList_cons (onlyFieldsFrom placeholderNames 0)]
    decide +kernel
  rw [systemPrompt, String.toList_join]
  exact OnlyFields.flatMap fun line hline =>
    onlyFields_of_onlyFieldsFrom (List.all_eq_true.1 hlines line hline)

/-- The default prompt is safe. -/
theorem safePrompt_systemPrompt (date : Date) (weekday : Weekday)
    (orgName agentName language : String) :
    buildSystemInstruction F date weekday "" orgName agentName language =
      .ok (expectedInstruction date weekday systemPrompt orgName agentName language) := by
  have hdefault : ¬ ("" : String) ≠ "" := fun h => h rfl
  simp only [buildSystemInstruction, if_neg hdefault]
  rw [format_onlyFields placeholderNames_plain onlyFields_systemPrompt]
  rfl

/-- A custom prompt is safe exactly if all its braces belong to placeholders: whatever fields show
that go on after the name, and also for what they do show as long as the prompt looks nothing up in
the values. -/
theorem custom_prompt_exact (hprompt : prompt ≠ "") :
    ((∀ F, SafePrompt F prompt) ↔ OnlyFields placeholderNames prompt.toList) ∧
      ∀ F, LawfulReader F → NoLookups prompt.toList →
        (SafePrompt F prompt ↔ OnlyFields placeholderNames prompt.toList) := by
  constructor
  · constructor
    · intro h
      -- fields that go on after the name may always raise
      exact onlyFields_of_safePrompt hprompt (fun _ _ _ hshown => by cases hshown)
        (h fun _ _ => .error .valueError)
    · exact fun h F => safePrompt_of_onlyFields hprompt h
  · intro F hF hlookups
    constructor
    · refine onlyFields_of_safePrompt hprompt fun field shown hfield hshown => ?_
      refine hF _ field shown (fun name hname => (shortValues_empty name hname).1) ?_ hshown
      intro name hname c hc hwithin
      exact hlookups name hname c hc (hwithin.trans hfield)
    · exact safePrompt_of_onlyFields hprompt

/-- What is shown of a field with the conversion to a string and nothing else. -/
def convertingReader : FieldReader := fun value field =>
  (placeholderNames.find? fun name => decide (field = name ++ ['!', 's'])).elim
    (.error .valueError) fun name => .ok (value name)

/-- The reader of the example obeys the law. -/
theorem convertingReader_lawful : LawfulReader convertingReader := by
  intro value field shown hvalue _ h
  unfold convertingReader at h
  cases hfind : placeholderNames.find? fun name => decide (field = name ++ ['!', 's']) with
  | none =>
    rw [hfind] at h
    cases h
  | some name =>
    rw [hfind] at h
    obtain rfl := Except.ok.inj h
    exact hvalue name (List.mem_of_find?_eq_some hfind)

/-- The greeting is safe with every reader. -/
theorem greeting_safe : (∀ F, SafePrompt F "Greet the people of \x7borg_name\x7d.") ∧
    SafePrompt convertingReader "Greet the people of \x7borg_name\x7d." := by
  have hprompt : "Greet the people of \x7borg_name\x7d." ≠ "" := by decide +kernel
  have honly : OnlyFields placeholderNames "Greet the people of \x7borg_name\x7d.".toList := by
    decide +kernel
  have hlookups : (placeholderNames.all fun name => ['.', '['].all fun c =>
      decide (¬ '\x7b' :: (name ++ [c]) <:+: "Greet the people of \x7borg_name\x7d.".toList)) =
        true := by decide +kernel
  refine ⟨(custom_prompt_exact hprompt).1.2 honly,
    ((custom_prompt_exact hprompt).2 convertingReader convertingReader_lawful ?_).2 honly⟩
  intro name hname c hc
  have hmem : c ∈ ['.', '['] := by simpa using hc
  exact of_decide_eq_true (List.all_eq_true.1 (List.all_eq_true.1 hlookups name hname) c hmem)

/-- A prompt with other braces raises, here because it has a field of another name. -/
theorem braces_raise :
    ¬ ∃ F : FieldReader, ∀ prompt : String, prompt ≠ "" → SafePrompt F prompt := by
  rintro ⟨F, h⟩
  have hsafe := h "Answer as \x7b\"text\": ...\x7d" (by decide +kernel) someDate .monday "" "" ""
  have hraised : buildSystemInstruction F someDate .monday
      "Answer as \x7b\"text\": ...\x7d" "" "" "" = .error .keyError := rfl
  rw [hraised] at hsafe
  cases hsafe

end

end Teamspace.Agent
