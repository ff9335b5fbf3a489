import Teamspace.Agent.Confirmation
import Teamspace.Agent.Symbolic
import Teamspace.Agent.SystemInstruction
import Teamspace.Py.Markup

/-!
# The messages of the agent

The catalog of `agent/gemini_agent.py` and what makes HTML of it. All data is escaped before it is
filled into a text of the catalog, so it brings no markup in, and when `run_agent` takes the tags
off the reply to a confirmation, it takes off those of the texts and nothing else
(`data_never_markup`).
-/

namespace Teamspace.Agent.Messages

open Teamspace.Lib Teamspace.Py

/-! ## The catalog -/

/-- An entry of the catalog: its two languages. -/
structure Bilingual where
  pt : String
  en : String
  deriving DecidableEq, Repr

/-- `entry.get(language, entry.get("en", ...))`. -/
def Bilingual.get (entry : Bilingual) (language : String) : String :=
  if language = "pt" then entry.pt else entry.en

/-- `MESSAGES`. -/
def messages : List (String × Bilingual) := [
  ("greeting", {
    pt := "<p>Olá! Sou o Assistente de Reuniões do Teamspace. Experimente dizer <em>'Agendar uma reunião para amanhã às 15h'</em>.</p>"
    en := "<p>Hi there! I am the Teamspace Meeting Assistant. Try saying <em>'Schedule a meeting for tomorrow at 2 PM'</em>.</p>" }),
  ("no_meetings", {
    pt := "<p>Você não possui reuniões agendadas.</p>"
    en := "<p>You have no scheduled meetings.</p>" }),
  ("not_authorized_prompt", {
    pt := "<p>Não encontrei sua autorização. Por favor, autorize-me pelo link primeiro.</p>"
    en := "<p>I couldn't find your authorization. Please authorize me using the link first.</p>" }),
  ("deleted_ok", {
    pt := "<p>O agendamento foi deletado com sucesso.</p>"
    en := "<p>I have successfully deleted the meeting.</p>" }),
  ("delete_failed", {
    pt := "<p>Falha ao deletar: \x7bmessage\x7d</p>"
    en := "<p>Deletion failed: \x7bmessage\x7d</p>" }),
  ("update_ok", {
    pt := "<p>Agendamento atualizado com sucesso! Tópico: <strong>\x7btopic\x7d</strong>.</p>"
    en := "<p>I have updated the meeting successfully! Topic: <strong>\x7btopic\x7d</strong>.</p>" }),
  ("update_failed", {
    pt := "<p>Falha na atualização: \x7bmessage\x7d</p>"
    en := "<p>Update failed: \x7bmessage\x7d</p>" }),
  ("delete_preview_failed", {
    pt := "<p>Desculpe, falha ao preparar a prévia de exclusão: \x7bmessage\x7d</p>"
    en := "<p>Sorry, I failed to prepare the deletion preview: \x7bmessage\x7d</p>" }),
  ("update_preview_failed", {
    pt := "<p>Desculpe, falha ao preparar a prévia de atualização: \x7bmessage\x7d</p>"
    en := "<p>Sorry, I failed to prepare the update preview: \x7bmessage\x7d</p>" }),
  ("schedule_preview_failed", {
    pt := "<p>Desculpe, falha ao preparar a prévia de agendamento: \x7bmessage\x7d</p>"
    en := "<p>Sorry, I failed to prepare the meeting preview: \x7bmessage\x7d</p>" }),
  ("auth_list_intro", {
    pt := "<p>Por favor, autorize \x7bagent_name\x7d a visualizar suas reuniões clicando no link abaixo:</p>"
    en := "<p>Please authorize \x7bagent_name\x7d to view your meetings by clicking the link below:</p>" }),
  ("auth_list_header", {
    pt := "<p>Autorizado com sucesso! Aqui estão suas reuniões agendadas:</p>"
    en := "<p>I have authorized successfully! Here are your scheduled meetings:</p>" }),
  ("auth_list_header_no_auth", {
    pt := "<p>Aqui estão suas reuniões agendadas:</p>"
    en := "<p>Here are your scheduled meetings:</p>" }),
  ("delete_intro", {
    pt := "<p>Preparei uma prévia para deletar sua reunião:</p><p>ID da Reunião: <code>\x7bmeeting_id\x7d</code></p><p>Para confirmar esta exclusão, por favor autorize \x7bagent_name\x7d clicando no link abaixo:</p>"
    en := "<p>I have prepared a preview to delete your meeting:</p><p>Meeting ID: <code>\x7bmeeting_id\x7d</code></p><p>To finalize this deletion, please authorize \x7bagent_name\x7d by clicking the link below:</p>" }),
  ("update_intro", {
    pt := "<p>Preparei uma prévia para atualizar sua reunião:</p><ul><li>ID da Reunião: <code>\x7bmeeting_id\x7d</code></li><li>Novo Tópico: <strong>\x7btopic\x7d</strong></li><li>Novo Horário: <strong>\x7bstart_time\x7d</strong></li></ul><p>Para confirmar esta atualização, por favor autorize \x7bagent_name\x7d clicando no link abaixo:</p>"
    en := "<p>I have prepared a preview to update your meeting:</p><ul><li>Meeting ID: <code>\x7bmeeting_id\x7d</code></li><li>New Topic: <strong>\x7btopic\x7d</strong></li><li>New Time: <strong>\x7bstart_time\x7d</strong></li></ul><p>To finalize this update, please authorize \x7bagent_name\x7d by clicking the link below:</p>" }),
  ("schedule_intro", {
    pt := "<p>Preparei uma prévia para sua reunião:</p><ul><li>Tópico: <strong>\x7btopic\x7d</strong></li><li>Data: \x7bdate\x7d</li><li>Horário: \x7bstart_time\x7d</li><li>Duração: \x7bduration\x7d minutos</li></ul><p>Para confirmar e agendar esta reunião, por favor autorize \x7bagent_name\x7d clicando no link abaixo:</p>"
    en := "<p>I have prepared a preview for your meeting:</p><ul><li>Topic: <strong>\x7btopic\x7d</strong></li><li>Date: \x7bdate\x7d</li><li>Time: \x7bstart_time\x7d</li><li>Duration: \x7bduration\x7d minutes</li></ul><p>To finalize and book this meeting, please authorize \x7bagent_name\x7d by clicking the link below:</p>" }),
  ("booking_ok", {
    pt := "<p>Agendamento realizado com sucesso! Tópico: <strong>\x7btopic\x7d</strong>.</p>"
    en := "<p>I have booked the meeting successfully! Topic: <strong>\x7btopic\x7d</strong>.</p>" }),
  ("booking_ok_with_id", {
    pt := "<p>Agendamento realizado com sucesso! Tópico: <strong>\x7btopic\x7d</strong> (ID: <code>\x7bmeeting_id\x7d</code>).</p>"
    en := "<p>I have booked the meeting successfully! Topic: <strong>\x7btopic\x7d</strong> (ID: <code>\x7bmeeting_id\x7d</code>).</p>" }),
  ("booking_failed", {
    pt := "<p>Falha no agendamento: \x7bmessage\x7d</p>"
    en := "<p>Booking failed: \x7bmessage\x7d</p>" }),
  ("meeting_list_item", {
    pt := "<li><strong>\x7btopic\x7d</strong> (\x7bdate\x7d às \x7bstart_time\x7d, ID: <code>\x7bid\x7d</code>)</li>"
    en := "<li><strong>\x7btopic\x7d</strong> (\x7bdate\x7d at \x7bstart_time\x7d, ID: <code>\x7bid\x7d</code>)</li>" })]

/-- `AUTH_BUTTON_LABELS`. -/
def authButtonLabels : List (String × Bilingual) := [
  ("list", ⟨"Autorizar Lista", "Authorize List"⟩),
  ("delete", ⟨"Autorizar Exclusão", "Authorize Delete"⟩),
  ("update", ⟨"Autorizar Atualização", "Authorize Update"⟩),
  ("schedule", ⟨"Autorizar Reunião", "Authorize Meeting"⟩)]

/-! ## The code -/

/-- The value of a keyword, escaped. -/
def escapedValue (kwargs : List (String × String)) (name : List Char) : List Char :=
  htmlEscape ((kwargs.lookup (String.ofList name)).getD "")

/-- `template.format(**safe_kwargs)`, where `str` has been applied to the values before. -/
def formatEscaped (F : FieldReader) (template : List Char) (kwargs : List (String × String)) :
    Except Exn (List Char) :=
  format F (kwargs.map fun kw => kw.1.toList) (escapedValue kwargs) template

/-- `_msg`. -/
def msg (F : FieldReader) (language key : String) (kwargs : List (String × String)) :
    Except Exn (List Char) :=
  match messages.lookup key with
  | none => .ok []
  | some entry => formatEscaped F (entry.get language).toList kwargs

/-- `_button_label`. -/
def buttonLabel (action language : String) : String :=
  match authButtonLabels.lookup action with
  | none => "Authorize"
  | some entry => entry.get language

/-- `_auth_button`. -/
def authButton (url label : String) : List Char :=
  "<div style=\"margin-top: 10px;\">".toList ++
  "<a href=\"".toList ++ htmlEscape url ++
    "\" target=\"_blank\" class=\"btn btn-primary\">".toList ++
  htmlEscape label ++ "</a></div>".toList

/-- The text of the items of a list. -/
def itemTemplate (language : String) : String :=
  ((messages.lookup "meeting_list_item").map fun entry => entry.get language).getD ""

/-- `_meeting_list_item`, for what it reads of the meeting. -/
def itemHtml (F : FieldReader) (language : String) (shown : List String) :
    Except Exn (List Char) :=
  formatEscaped F (itemTemplate language).toList (["topic", "date", "start_time", "id"].zip shown)

/-- `_meeting_list_item`. -/
def meetingListItem (F : FieldReader) (language : String) (meeting : Json) :
    Except Exn (List Char) :=
  if itemTemplate language = "" then .ok []
  else do itemHtml F language (← Agent.meetingListItem meeting)

/-- `_meeting_list_html`. -/
def meetingListHtml (F : FieldReader) (meetings : List Json) (language : String) :
    Except Exn (List Char) := do
  return (← meetings.mapM (meetingListItem F language)).flatten

/-- The HTML of a reply of the handlers. `str` is `str`, of what a keyword is given. -/
def replyHtml (F : FieldReader) (str : Json → String) (language : String) :
    Reply → Except Exn (List Char)
  | .msg key kwargs => msg F language key (kwargs.map fun kw => (kw.1, str kw.2))
  | .meetingList items => do
    let header ← msg F language "auth_list_header" []
    let list ← items.mapM (itemHtml F language)
    return header ++ "<ul>".toList ++ list.flatten ++ "</ul>".toList

/-- What `run_agent` returns for a reply of the handlers. -/
def replyText (F : FieldReader) (str : Json → String) (language : String) (reply : Reply) :
    Except Exn (List Char) :=
  (replyHtml F str language reply).map stripTags

/-! ## The texts of the catalog -/

/-- The fields of the texts of a key. -/
def messageFields (key : String) : List (List Char) :=
  let fields : List (String × List String) := [
    ("delete_failed", ["message"]),
    ("update_ok", ["topic"]),
    ("update_failed", ["message"]),
    ("delete_preview_failed", ["message"]),
    ("update_preview_failed", ["message"]),
    ("schedule_preview_failed", ["message"]),
    ("auth_list_intro", ["agent_name"]),
    ("delete_intro", ["meeting_id", "agent_name"]),
    ("update_intro", ["meeting_id", "topic", "start_time", "agent_name"]),
    ("schedule_intro", ["topic", "date", "start_time", "duration", "agent_name"]),
    ("booking_ok", ["topic"]),
    ("booking_ok_with_id", ["topic", "meeting_id"]),
    ("booking_failed", ["message"]),
    ("meeting_list_item", ["topic", "date", "start_time", "id"])]
  ((fields.lookup key).getD []).map String.toList

/-- The text has no fields but these, all of them between its tags. -/
def isTemplate (key : String) (text : List Char) : Bool :=
  onlyFieldsFrom (messageFields key) 0 text && closedTags false text

/-- A check of all texts is one of both texts of each entry. -/
theorem all_texts (p : String → List Char → Bool) {key : String} {s t : List Char}
    {l : List (String × Bilingual)} :
    (((key, ⟨String.ofList s, String.ofList t⟩) :: l).all fun e =>
      p e.1 e.2.pt.toList && p e.1 e.2.en.toList) =
        ((p key s && p key t) && l.all fun e => p e.1 e.2.pt.toList && p e.1 e.2.en.toList) := by
  rw [List.all_cons, String.toList_ofList, String.toList_ofList]

/-- Both texts of every entry are templates. -/
theorem messages_templates : (messages.all fun e =>
    isTemplate e.1 e.2.pt.toList && isTemplate e.1 e.2.en.toList) = true := by
  rw [messages]
  repeat rw [all_texts isTemplate]
  decide +kernel

/-- The fields of every entry have plain names. -/
theorem messages_names : (messages.all fun e => (messageFields e.1).all fun name => name.all fun c =>
    decide (c ∉ ['\x7b', '\x7d', '.', '[', ':', '!', '<', '>'])) = true := by decide +kernel

section

variable {F : FieldReader} {language key : String} {entry : Bilingual}
  {kwargs : List (String × String)} {html : List Char}

/-- No name of a field has an angle bracket. -/
theorem noAngles_messageFields (h : messages.lookup key = some entry) :
    ∀ name ∈ messageFields key, NoAngles name := by
  intro name hname c hc
  have := List.all_eq_true.1 (List.all_eq_true.1 (List.all_eq_true.1 messages_names _
    (mem_of_lookup h)) name hname) c hc
  simp only [decide_eq_true_eq, List.mem_cons, not_or] at this
  exact isAngle_eq_false.2 ⟨this.2.2.2.2.2.2.1, this.2.2.2.2.2.2.2.1⟩

/-- The fields of the texts of the catalog stand between their tags. -/
theorem tagged_get (h : messages.lookup key = some entry) (language : String) :
    Tagged (messageFields key) (entry.get language).toList := by
  have hboth := Bool.and_eq_true_iff.1 (List.all_eq_true.1 messages_templates _ (mem_of_lookup h))
  have htemplate {text : String} (htext : isTemplate key text.toList = true) :
      Tagged (messageFields key) text.toList := by
    obtain ⟨hfields, htags⟩ := Bool.and_eq_true_iff.1 htext
    exact tagged_of_closedTags (noAngles_messageFields h) (onlyFields_of_onlyFieldsFrom hfields)
      htags
  rw [Bilingual.get]
  split
  · exact htemplate hboth.1
  · exact htemplate hboth.2

/-- Escaped data has no angle brackets and no quotes. -/
theorem htmlEscape_plain (s : String) :
    ∀ c ∈ htmlEscape s, isAngle c = false ∧ c ≠ '"' ∧ c ≠ '\'' := by
  intro c hc
  obtain ⟨d, -, hd⟩ := List.mem_flatMap.1 hc
  have hentities : ["&amp;", "&lt;", "&gt;", "&quot;", "&#x27;"].all (fun entity =>
      entity.toList.all fun c => !isAngle c && c != '"' && c != '\'') = true := by decide +kernel
  have hentity {entity : String} (he : entity ∈ ["&amp;", "&lt;", "&gt;", "&quot;", "&#x27;"])
      (hd : c ∈ entity.toList) : isAngle c = false ∧ c ≠ '"' ∧ c ≠ '\'' := by
    have := List.all_eq_true.1 (List.all_eq_true.1 hentities _ he) c hd
    simpa [and_assoc] using this
  unfold htmlEscapeChar at hd
  split at hd
  · exact hentity (by simp) hd
  · split at hd
    · exact hentity (by simp) hd
    · split at hd
      · exact hentity (by simp) hd
      · split at hd
        · exact hentity (by simp) hd
        · split at hd
          · exact hentity (by simp) hd
          · next hamp hlt hgt hquot hapos =>
            obtain rfl := List.mem_singleton.1 hd
            exact ⟨isAngle_eq_false.2 ⟨hlt, hgt⟩, hquot, hapos⟩

/-- The fields of a text and escaped data. -/
theorem clean_messageFields (h : messages.lookup key = some entry)
    (kwargs : List (String × String)) : Clean (messageFields key) (escapedValue kwargs) where
  plain name hname c hc := by
    have := List.all_eq_true.1 (List.all_eq_true.1 (List.all_eq_true.1 messages_names _
      (mem_of_lookup h)) name hname) c hc
    simp only [decide_eq_true_eq, List.mem_cons, not_or] at this
    simp [this]
  noAngles := noAngles_messageFields h
  shown _ _ c hc := (htmlEscape_plain _ c hc).1

/-! ## Messages -/

/-- The text of a key. -/
def messageText (language key : String) : List Char :=
  (((messages.lookup key).map fun entry => entry.get language).getD "").toList

/-- The keywords name all fields of the texts of a key. -/
def covers (key : String) (kwargs : List String) : Bool :=
  (messageFields key).all fun name => kwargs.any fun kw => decide (kw.toList = name)

/-- The keywords that the code gives with a key. -/
def givenKeywords : List (String × List String) := [
  ("delete_failed", ["message"]),
  ("update_failed", ["message"]),
  ("booking_failed", ["message"]),
  ("update_ok", ["topic"]),
  ("booking_ok", ["topic"]),
  ("booking_ok_with_id", ["topic", "meeting_id"]),
  ("auth_list_header", []),
  ("meeting_list_item", ["topic", "date", "start_time", "id"])]

/-- Every message is given the keywords of all its fields. -/
theorem covers_givenKeywords : (givenKeywords.all fun given => covers given.1 given.2) = true := by
  decide +kernel

/-- The keywords that are given for a key are all of it. -/
theorem covers_given {given : List String} (h : (key, given) ∈ givenKeywords) :
    covers key given = true := List.all_eq_true.1 covers_givenKeywords _ h

/-- Keywords that cover a key have every field of it. -/
theorem mem_names_of_covers (h : covers key (kwargs.map Prod.fst) = true) :
    ∀ name ∈ messageFields key, name ∈ kwargs.map fun kw => kw.1.toList := by
  intro name hname
  obtain ⟨kw, hkw, heq⟩ := List.any_eq_true.1 (List.all_eq_true.1 h name hname)
  obtain ⟨kw', hkw', rfl⟩ := List.mem_map.1 hkw
  exact List.mem_map.2 ⟨kw', hkw', of_decide_eq_true heq⟩

/-- What is filled into a text of the catalog brings no angle brackets in. -/
theorem angles_formatEscaped (h : messages.lookup key = some entry)
    (hout : formatEscaped F (entry.get language).toList kwargs = .ok html) :
    angles html = angles (entry.get language).toList := by
  have hclean := clean_messageFields h kwargs
  have hfields := (tagged_get h language).onlyFields
  rw [eq_fill_of_format hclean.plain hfields hout, angles_fill hclean hfields]

/-- If the keywords name all its fields, the text is filled, and without its tags likewise. -/
theorem formatEscaped_covers (h : messages.lookup key = some entry)
    (hcovers : covers key (kwargs.map Prod.fst) = true) :
    ∃ html, formatEscaped F (entry.get language).toList kwargs = .ok html ∧
      formatEscaped F (stripTags (entry.get language).toList) kwargs = .ok (stripTags html) ∧
      ∀ t, stripTags (html ++ t) = stripTags html ++ stripTags t := by
  have hclean := clean_messageFields h kwargs
  have htagged := tagged_get h language
  have hsub := mem_names_of_covers hcovers
  refine ⟨_, format_fields hclean.plain htagged.onlyFields hsub, ?_, fun t => ?_⟩
  · rw [stripTags_fill hclean htagged]
    exact format_fields hclean.plain (htagged.onlyFields_stripTags hclean.noAngles) hsub
  · rw [stripTags_fill_append hclean htagged, stripTags_fill hclean htagged]

/-- A message has the angle brackets of its text. -/
theorem angles_msg (hout : msg F language key kwargs = .ok html) :
    angles html = angles (messageText language key) := by
  unfold msg at hout
  cases h : messages.lookup key with
  | none =>
    rw [h] at hout
    rw [messageText, h, ← Except.ok.inj hout]
    rfl
  | some entry =>
    rw [h] at hout
    rw [messageText, h]
    exact angles_formatEscaped h hout

/-- What is said of a message whose tags are taken off. -/
def plainMsg (F : FieldReader) (language key : String) (kwargs : List (String × String)) :
    Except Exn (List Char) :=
  formatEscaped F (stripTags (messageText language key)) kwargs

/-- With all keywords a message can be made, and its plain form is the message without tags. -/
theorem msg_covers {key : String} (h : covers key (kwargs.map Prod.fst) = true) :
    ∃ html, msg F language key kwargs = .ok html ∧
      plainMsg F language key kwargs = .ok (stripTags html) ∧
      ∀ t, stripTags (html ++ t) = stripTags html ++ stripTags t := by
  unfold plainMsg messageText msg
  cases hentry : messages.lookup key with
  | none => exact ⟨[], rfl, rfl, fun _ => rfl⟩
  | some entry => exact formatEscaped_covers hentry h

/-! ## Lists of meetings -/

/-- The fields that are shown of the meeting are strings. -/
def HasStringFields (meeting : Json) : Prop :=
  ∀ k ∈ ["topic", "date", "start_time", "id"], ∃ s, meeting.getItem k = .ok (.str s)

/-- A list is mapped if each of its members is. -/
theorem exists_mapM {α β ε : Type} {f : α → Except ε β} {R : β → Prop} {l : List α}
    (h : ∀ a ∈ l, ∃ b, f a = .ok b ∧ R b) :
    ∃ r, l.mapM f = .ok r ∧ r.length = l.length ∧ ∀ b ∈ r, R b := by
  induction l with
  | nil => exact ⟨[], rfl, rfl, nofun⟩
  | cons a l ih =>
    obtain ⟨b, hb, hR⟩ := h a List.mem_cons_self
    obtain ⟨r, hr, hlength, hall⟩ := ih fun a ha => h a (List.mem_cons_of_mem _ ha)
    refine ⟨b :: r, ?_, congrArg (· + 1) hlength, List.forall_mem_cons.2 ⟨hR, hall⟩⟩
    rw [List.mapM_cons, hb, hr]
    rfl

/-- A meeting whose fields are strings can be shown. -/
theorem HasStringFields.shown {meeting : Json} (h : HasStringFields meeting) :
    ∃ shown, Agent.meetingListItem meeting = .ok shown := by
  have hread : ∀ k ∈ ["topic", "date", "start_time", "id"],
      ∃ s, (do escapable (← meeting.getItem k)) = .ok s ∧ True := by
    intro k hk
    obtain ⟨s, hs⟩ := h k hk
    exact ⟨s, by rw [hs]; rfl, trivial⟩
  obtain ⟨shown, hshown, -⟩ := exists_mapM hread
  exact ⟨shown, hshown⟩

/-- Four fields of a meeting are shown. -/
theorem length_of_shown {meeting : Json} {shown : List String}
    (h : Agent.meetingListItem meeting = .ok shown) : shown.length = 4 :=
  (mapM_eq_ok.1 h).length_eq.symm

/-- There is a message for an item of the list, in both languages. -/
theorem lookup_item : ∃ entry, messages.lookup "meeting_list_item" = some entry ∧
    (entry.pt != "" && entry.en != "") = true :=
  (Option.any_eq_true ..).1 (by decide +kernel)

/-- The fields of an item are given. -/
theorem covers_item {shown : List String} (h : shown.length = 4) :
    covers "meeting_list_item" ((["topic", "date", "start_time", "id"].zip shown).map Prod.fst) =
      true := by
  rw [List.map_fst_zip (by simp [h])]
  exact covers_given (by simp [givenKeywords])

/-- What is said of an item whose tags are taken off. -/
def plainItem (F : FieldReader) (language : String) (shown : List String) :
    Except Exn (List Char) :=
  plainMsg F language "meeting_list_item" (["topic", "date", "start_time", "id"].zip shown)

/-- An item can be made, with the angle brackets of its text, and stripped to its plain form. -/
theorem itemHtml_ok {shown : List String} (h : shown.length = 4) :
    ∃ html, itemHtml F language shown = .ok html ∧
      plainItem F language shown = .ok (stripTags html) ∧
      angles html = angles (messageText language "meeting_list_item") ∧
      ∀ t, stripTags (html ++ t) = stripTags html ++ stripTags t := by
  have hmsg : itemHtml F language shown =
      msg F language "meeting_list_item" (["topic", "date", "start_time", "id"].zip shown) := by
    obtain ⟨entry, hentry, -⟩ := lookup_item
    rw [itemHtml, itemTemplate, msg, hentry]
    rfl
  obtain ⟨html, hok, hplain, happend⟩ := msg_covers (covers_item h)
  exact ⟨html, hmsg.trans hok, hplain, angles_msg hok, happend⟩

/-- The text of an item is not empty. -/
theorem itemTemplate_ne_empty (language : String) : itemTemplate language ≠ "" := by
  obtain ⟨entry, hentry, hboth⟩ := lookup_item
  rw [Bool.and_eq_true, bne_iff_ne, bne_iff_ne] at hboth
  rw [itemTemplate, hentry, Option.map_some, Option.getD_some, Bilingual.get]
  split
  · exact hboth.1
  · exact hboth.2

/-- The HTML of a list of meetings has the angle brackets of its items' texts. -/
theorem angles_meetingListHtml {meetings : List Json} (h : ∀ m ∈ meetings, HasStringFields m) :
    ∃ html, meetingListHtml F meetings language = .ok html ∧
      angles html = meetings.flatMap fun _ => angles (messageText language "meeting_list_item") := by
  have hitem : ∀ m ∈ meetings, ∃ html, meetingListItem F language m = .ok html ∧
      angles html = angles (messageText language "meeting_list_item") := by
    intro m hm
    obtain ⟨shown, hshown⟩ := (h m hm).shown
    obtain ⟨html, hok, -, hangles, -⟩ := @itemHtml_ok F language _ (length_of_shown hshown)
    refine ⟨html, ?_, hangles⟩
    rw [meetingListItem, if_neg (itemTemplate_ne_empty language), hshown]
    exact hok
  obtain ⟨list, hlist, hlength, hangles⟩ := exists_mapM hitem
  refine ⟨list.flatten, by rw [meetingListHtml, hlist]; rfl, ?_⟩
  have hmap : list.map angles =
      meetings.map fun _ => angles (messageText language "meeting_list_item") := by
    rw [List.map_const', ← hlength, List.eq_replicate_iff]
    exact ⟨List.length_map .., fun b hb => by
      obtain ⟨html, hhtml, rfl⟩ := List.mem_map.1 hb
      exact hangles html hhtml⟩
  rw [List.flatMap_def, ← hmap]
  exact List.filter_flatten ..

/-! ## Replies -/

/-- The reply has what its texts ask for. -/
def Complete : Reply → Prop
  | .msg key kwargs => covers key (kwargs.map Prod.fst) = true
  | .meetingList items => ∀ shown ∈ items, shown.length = 4

/-- What is said of a reply whose tags are taken off: the texts without their tags, filled with the
same data. -/
def plainReply (F : FieldReader) (str : Json → String) (language : String) :
    Reply → Except Exn (List Char)
  | .msg key kwargs => plainMsg F language key (kwargs.map fun kw => (kw.1, str kw.2))
  | .meetingList items => do
    let header ← plainMsg F language "auth_list_header" []
    let list ← items.mapM (plainItem F language)
    return header ++ list.flatten

/-- The items of a list are made, and stripped to their plain form one by one. -/
theorem stripTags_items {items : List (List String)} (h : ∀ shown ∈ items, shown.length = 4) :
    ∃ list plain, items.mapM (itemHtml F language) = .ok list ∧
      items.mapM (plainItem F language) = .ok plain ∧
      ∀ t, stripTags (list.flatten ++ t) = plain.flatten ++ stripTags t := by
  induction items with
  | nil => exact ⟨[], [], rfl, rfl, fun _ => rfl⟩
  | cons shown items ih =>
    obtain ⟨list, plain, hlist, hplain, hrest⟩ := ih fun s hs => h s (List.mem_cons_of_mem _ hs)
    obtain ⟨html, hok, hitem, -, happend⟩ := @itemHtml_ok F language _ (h shown List.mem_cons_self)
    refine ⟨html :: list, stripTags html :: plain, ?_, ?_, fun t => ?_⟩
    · rw [List.mapM_cons, hok, hlist]
      rfl
    · rw [List.mapM_cons, hitem, hplain]
      rfl
    · rw [List.flatten_cons, List.append_assoc, happend, hrest, List.flatten_cons,
        List.append_assoc]

/-- A complete reply has an HTML, and without its tags it is the reply of the texts without
theirs. -/
theorem replyHtml_ok (str : Json → String) {reply : Reply} (h : Complete reply) :
    ∃ html, replyHtml F str language reply = .ok html ∧
      plainReply F str language reply = .ok (stripTags html) := by
  cases reply with
  | msg key kwargs =>
    have hcovers : covers key ((kwargs.map fun kw => (kw.1, str kw.2)).map Prod.fst) = true := by
      rw [List.map_map]
      exact h
    obtain ⟨html, hok, hplain, -⟩ := @msg_covers F language _ key hcovers
    exact ⟨html, hok, hplain⟩
  | meetingList items =>
    obtain ⟨header, hheader, hplainHeader, happend⟩ :=
      @msg_covers F language [] "auth_list_header" (covers_given (by simp [givenKeywords]))
    obtain ⟨list, plain, hlist, hplainList, hstrip⟩ := @stripTags_items F language items h
    refine ⟨header ++ "<ul>".toList ++ list.flatten ++ "</ul>".toList, ?_, ?_⟩
    · rw [replyHtml, hheader, hlist]
      rfl
    · rw [plainReply, hplainHeader, hplainList, List.append_assoc, List.append_assoc, happend]
      have hopen : stripTags ("<ul>".toList ++ (list.flatten ++ "</ul>".toList)) =
          stripTags (list.flatten ++ "</ul>".toList) :=
        @stripTags_tag _ "ul".toList (by decide)
      have hclose : stripTags "</ul>".toList = [] := by decide
      rw [hopen, hstrip, hclose, List.append_nil]
      rfl

end

/-! ## The handlers -/

section

variable {Tok : Type} {E : Env Tok} {threadId language : String} {pending : Json} {reply : Reply}

/-- What a value can return is the value. -/
theorem canReturn_ofExcept {α : Type} {x : Except Exn α} {a : α}
    (h : (ofExcept x).CanReturn a) : x = .ok a := Program.canReturn_ofExcept.1 h

/-- The angle brackets of a button are those of one without data. -/
theorem angles_authButton (url label : String) :
    angles (authButton url label) = angles (authButton "" "") := by
  have hdata (s : String) : angles (htmlEscape s) = [] :=
    angles_of_noAngles fun c hc => (htmlEscape_plain s c hc).1
  have hbutton (a b c d : List Char) (url label : String) :
      angles (a ++ b ++ htmlEscape url ++ c ++ htmlEscape label ++ d) = angles (a ++ b ++ c ++ d) := by
    simp only [angles_append, hdata, List.append_nil]
  exact (hbutton ..).trans (hbutton ..).symm

/-- The quotes of a button are those of one without data, so that no address ends the attribute that
it stands in. -/
theorem quotes_authButton (url label : String) :
    (authButton url label).count '"' = (authButton "" "").count '"' := by
  have hdata (s : String) : (htmlEscape s).count '"' = 0 :=
    List.count_eq_zero.2 fun h => (htmlEscape_plain s _ h).2.1 rfl
  have hbutton (a b c d : List Char) (url label : String) :
      (a ++ b ++ htmlEscape url ++ c ++ htmlEscape label ++ d).count '"' =
        (a ++ b ++ c ++ d).count '"' := by
    simp only [List.count_append, hdata, Nat.add_zero]
  exact (hbutton ..).trans (hbutton ..).symm

/-- The reply to a failure has what its text asks for. -/
theorem complete_failure {key : String} (h : covers key ["message"] = true) (res : Dict)
    (unknown : String) : Complete (failure key res unknown) := h

/-- Every reply to a deletion is complete. -/
theorem complete_delete
    (h : (handleDeleteAuthorized E threadId pending language).CanReturn reply) : Complete reply := by
  obtain ⟨meetingId, -, h⟩ := Program.canReturn_bind.1 h
  obtain ⟨res, -, h⟩ := Program.canReturn_bind.1 h
  split at h
  · cases h; rfl
  · cases h; exact complete_failure (covers_given (by simp [givenKeywords])) ..

/-- Every reply to an update is complete. -/
theorem complete_update
    (h : (handleUpdateAuthorized E threadId pending language).CanReturn reply) : Complete reply := by
  obtain ⟨args, -, h⟩ := Program.canReturn_bind.1 h
  obtain ⟨res, -, h⟩ := Program.canReturn_bind.1 h
  split at h
  · obtain ⟨meeting, -, h⟩ := Program.canReturn_bind.1 h
    obtain ⟨topic, -, h⟩ := Program.canReturn_bind.1 h
    cases h
    change covers "update_ok" ["topic"] = true
    exact covers_given (by simp [givenKeywords])
  · cases h; exact complete_failure (covers_given (by simp [givenKeywords])) ..

/-- Every reply to a booking is complete. -/
theorem complete_booking
    (h : (handleBookingAuthorized E threadId pending language).CanReturn reply) : Complete reply := by
  obtain ⟨args, -, h⟩ := Program.canReturn_bind.1 h
  obtain ⟨res, -, h⟩ := Program.canReturn_bind.1 h
  split at h
  · obtain ⟨meetingId, -, h⟩ := Program.canReturn_bind.1 h
    obtain ⟨topic, -, h⟩ := Program.canReturn_bind.1 h
    split at h
    · cases h
      change covers "booking_ok_with_id" ["topic", "meeting_id"] = true
      exact covers_given (by simp [givenKeywords])
    · cases h
      change covers "booking_ok" ["topic"] = true
      exact covers_given (by simp [givenKeywords])
  · cases h; exact complete_failure (covers_given (by simp [givenKeywords])) ..

/-- Every item of the list shows four fields. -/
theorem length_of_mem_meetingListHtml {meetings : Json} {items : List (List String)}
    (h : Agent.meetingListHtml meetings = .ok items) : ∀ shown ∈ items, shown.length = 4 := by
  unfold Agent.meetingListHtml at h
  cases hl : iterate meetings with
  | error e => rw [hl] at h; cases h
  | ok l =>
    rw [hl] at h
    have hall := mapM_eq_ok.1 h
    intro shown hshown
    clear h hl
    induction hall with
    | nil => cases hshown
    | cons hm _ ih =>
      rcases List.mem_cons.1 hshown with rfl | hshown
      · exact length_of_shown hm
      · exact ih hshown

/-- Every reply to a listing is complete. -/
theorem complete_list
    (h : (handleListAuthorized E threadId pending language).CanReturn reply) : Complete reply := by
  obtain ⟨res, -, h⟩ := Program.canReturn_bind.1 h
  split at h
  · dsimp only at h
    split at h
    · obtain ⟨items, hitems, h⟩ := Program.canReturn_bind.1 h
      cases h
      exact length_of_mem_meetingListHtml (canReturn_ofExcept hitems)
    · cases h; rfl
  · cases h; rfl

/-- Every reply of the first handler that fits is complete, if those of all handlers are. -/
theorem complete_dispatch {state : FlowState}
    {entries : List (FlowState × PendingGuard × (String → Json → String → Coro Reply))}
    (hentries : ∀ e ∈ entries, ∀ reply, (e.2.2 threadId pending language).CanReturn reply →
      Complete reply)
    (h : (dispatchAuthorizedState state threadId pending language entries).CanReturn (some reply)) :
    Complete reply := by
  induction entries with
  | nil => cases h
  | cons e entries ih =>
    have hrest := ih fun e he => hentries e (List.mem_cons_of_mem _ he)
    rw [dispatchAuthorizedState] at h
    split at h
    · obtain ⟨allowed, -, h⟩ := Program.canReturn_bind.1 h
      split at h
      · obtain ⟨reply', hreply, h⟩ := Program.canReturn_bind.1 h
        cases h
        exact hentries e List.mem_cons_self _ hreply
      · exact hrest h
    · exact hrest h

/-- Every reply of the handlers has what its texts ask for. -/
theorem complete_reply {message : String}
    (h : (handleAuthorizationCallback E message threadId language).CanReturn (some reply)) :
    Complete reply := by
  have hentries {pending : Json} : ∀ e ∈ authorizedStateDispatch E, ∀ reply,
      (e.2.2 threadId pending language).CanReturn reply → Complete reply := by
    intro e he reply hreply
    simp only [authorizedStateDispatch, List.mem_cons, List.not_mem_nil, or_false] at he
    obtain rfl | rfl | rfl | rfl := he
    · exact @complete_delete _ _ _ language _ _ hreply
    · exact @complete_update _ _ _ language _ _ hreply
    · exact complete_booking hreply
    · exact @complete_list _ _ _ language pending _ hreply
  obtain ⟨state, -, h⟩ := Program.canReturn_bind.1 h
  split at h
  · split at h
    · obtain ⟨pending, -, h⟩ := Program.canReturn_bind.1 h
      obtain ⟨dispatched, hdispatched, h⟩ := Program.canReturn_bind.1 h
      cases dispatched with
      | none => cases h; rfl
      | some reply' =>
        cases h
        exact complete_dispatch hentries hdispatched
    · cases h; rfl
  · cases h

/-- No data brings markup in: the HTML of a message, a button and a list of meetings has the angle
brackets of its texts and no others, and a button no other quotes either. And what `run_agent`
returns for a reply of the handlers is the reply of the texts without their tags, with the same
data. -/
theorem data_never_markup (E : Env Tok) (F : FieldReader) (language : String) :
    (∀ key kwargs html, msg F language key kwargs = .ok html →
      angles html = angles (messageText language key)) ∧
    (∀ url label, angles (authButton url label) = angles (authButton "" "") ∧
      (authButton url label).count '"' = (authButton "" "").count '"') ∧
    (∀ meetings : List Json, (∀ m ∈ meetings, HasStringFields m) →
      ∃ html, meetingListHtml F meetings language = .ok html ∧ angles html =
        meetings.flatMap fun _ => angles (messageText language "meeting_list_item")) ∧
    ∀ message threadId reply,
      (handleAuthorizationCallback E message threadId language).CanReturn (some reply) →
        ∃ text, replyText F E.str language reply = .ok text ∧
          plainReply F E.str language reply = .ok text := by
  refine ⟨fun key kwargs html => angles_msg,
    fun url label => ⟨angles_authButton url label, quotes_authButton url label⟩,
    fun meetings => angles_meetingListHtml, fun message threadId reply h => ?_⟩
  obtain ⟨html, hhtml, hplain⟩ := replyHtml_ok E.str (complete_reply h)
  exact ⟨_, by rw [replyText, hhtml]; rfl, hplain⟩

/-- Fields that go on after their names are in no text. -/
def noReader : FieldReader := fun _ _ => .error .valueError

/-- A thread whose user has authorized the deletion of a meeting. -/
def deleting : Shared :=
  (((Shared.start 0 0).set .flowState "t" (.str (FlowState.authorized .delete).value) 600).set
    .pendingMeeting "t" (.obj [("meeting_id", .num (.int 7))]) 600).set .oboToken "t"
      (.obj [("token", .str "obo"), ("expires_at", .num (.int 100))]) 600

/-- The reply to a deletion that the Business API refuses with markup. -/
def refusedReply : Reply := .msg "delete_failed" [("message", .str "Error: 409 — <b>no</b>")]

/-- The reply to the refused deletion is one that the confirmation path can give. -/
theorem refusedReply_canReturn : (handleAuthorizationCallback Symbolic.env "authorized" "t"
    "en").CanReturn (some refusedReply) := by
  let refuse (_ : Req) (σ : Shared) : Rep × Shared := (.response ⟨409, "<b>no</b>", none⟩, σ)
  have hrun : ((handleAuthorizationCallback Symbolic.env "authorized" "t" "en").run
      (I := interface) (exec Symbolic.env) refuse deleting).1.toOption =
      some (some refusedReply) := by
    decide +kernel
  exact Program.canReturn_of_run (I := interface) hrun

/-- A meeting whose topic is markup. -/
def markedMeeting : Json := .obj [("topic", .str "<i>"), ("date", .str "\"d\""),
  ("start_time", .str "&"), ("id", .str "\x7b7\x7d")]

/-- The message of a tool that is markup, in a message and in a reply whose tags are taken off, and a
meeting whose topic is. -/
theorem data_never_markup_script :
    (∃ html, msg noReader "en" "delete_failed" [("message", "<script>\x7b0\x7d</script>")] =
        .ok html ∧ angles html = angles (messageText "en" "delete_failed")) ∧
    (∃ html, meetingListHtml noReader [markedMeeting] "en" = .ok html ∧
      angles html = angles (messageText "en" "meeting_list_item")) ∧
    ∃ text, replyText noReader Symbolic.env.str "en" refusedReply = .ok text ∧
      plainReply noReader Symbolic.env.str "en" refusedReply = .ok text := by
  have h := data_never_markup Symbolic.env noReader "en"
  have hcovers : covers "delete_failed"
      ([("message", "<script>\x7b0\x7d</script>")].map Prod.fst) = true :=
    covers_given (by simp [givenKeywords])
  have hfields : ∀ m ∈ [markedMeeting], HasStringFields m := by
    intro m hm k hk
    cases List.mem_singleton.1 hm
    simp only [List.mem_cons, List.not_mem_nil, or_false] at hk
    obtain rfl | rfl | rfl | rfl := hk
    · exact ⟨"<i>", rfl⟩
    · exact ⟨"\"d\"", rfl⟩
    · exact ⟨"&", rfl⟩
    · exact ⟨"\x7b7\x7d", rfl⟩
  obtain ⟨html, hok, -⟩ := @msg_covers noReader "en" _ _ hcovers
  obtain ⟨list, hlist, hangles⟩ := h.2.2.1 [markedMeeting] hfields
  refine ⟨⟨html, hok, h.1 _ _ _ hok⟩, ⟨list, hlist, ?_⟩, h.2.2.2 _ _ _ refusedReply_canReturn⟩
  rwa [List.flatMap_singleton] at hangles

end

end Teamspace.Agent.Messages
