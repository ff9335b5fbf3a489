import Mathlib.Algebra.GroupWithZero.Nat
import Teamspace.Api.Models
import Teamspace.Py.IntText
import Teamspace.Py.Pydantic

/-!
# The request models of the Business API

The fields of `api/schemas.py` with their validators. Which zones are known is a parameter. The
regular expressions for dates and times are as the code matches them: they take digits of other
scripts, and a line break after the text.
-/

namespace Teamspace.Api

open Teamspace.Py

/-! ## Dates and times -/

/-- `\d`: a decimal digit of any script. -/
def isDecimal (c : Char) : Bool := (decimalValue c).isSome

/-- `$`: the end of the text, or a line break that ends it. -/
def atEnd (s : List Char) : Bool := s == [] || s == ['\n']

/-- `_ISO_DATE_RE.match`. -/
def isoDateMatch (s : String) : Bool :=
  match s.toList with
  | y₁ :: y₂ :: y₃ :: y₄ :: sep :: m₁ :: m₂ :: sep' :: d₁ :: d₂ :: rest =>
    [y₁, y₂, y₃, y₄, m₁, m₂, d₁, d₂].all isDecimal && sep == '-' && sep' == '-' && atEnd rest
  | _ => false

/-- `_ISO_TIME_RE.match`. -/
def isoTimeMatch (s : String) : Bool :=
  match s.toList with
  | h₁ :: h₂ :: sep :: m₁ :: m₂ :: rest =>
    ((h₁ == '0' || h₁ == '1') && isDecimal h₂ || h₁ == '2' && '0' ≤ h₂ && h₂ ≤ '3') &&
      sep == ':' && '0' ≤ m₁ && m₁ ≤ '5' && isDecimal m₂ && atEnd rest
  | _ => false

/-- `calendar.monthrange`: the days of a month. -/
def daysInMonth (year month : Nat) : Nat :=
  if month = 2 then
    if year % 4 = 0 ∧ (year % 100 ≠ 0 ∨ year % 400 = 0) then 29 else 28
  else if month ∈ [4, 6, 9, 11] then 30 else 31

/-- The number that ASCII digits stand for. -/
def asciiNumber (digits : List Char) : Nat := Nat.ofDigitChars 10 digits 0

/-- `date.fromisoformat`, of a text that `_ISO_DATE_RE` matches: the message of its `ValueError`, if
it raises. A text whose encoding is longer than ten bytes is no date. -/
def dateFromIsoformat (s : String) : Option String :=
  if (s.toList.map Char.utf8Size).sum ≠ 10 then
    some ("Invalid isoformat string: '" ++
      (if s.toList.getLast? = some '\n' then String.ofList s.toList.dropLast ++ "\\n" else s) ++ "'")
  else
    let year := asciiNumber (s.toList.take 4)
    let month := asciiNumber ((s.toList.drop 5).take 2)
    let day := asciiNumber (s.toList.drop 8)
    if year = 0 then some "year 0 is out of range"
    else if ¬ (1 ≤ month ∧ month ≤ 12) then some "month must be in 1..12"
    else if ¬ (1 ≤ day ∧ day ≤ daysInMonth year month) then some "day is out of range for month"
    else none

/-! ## `MeetingCreate` -/

/-- `_FORBIDDEN_TOPIC_CHARS`, and the quote that is asked for beside it. -/
def forbiddenTopicChars : List Char := ['<', '>', '&', '"', '\'']

/-- `repr` of a forbidden character. -/
def reprForbidden (c : Char) : String :=
  if c = '\'' then "\"'\"" else "'" ++ String.singleton c ++ "'"

/-- `_topic_safe`. -/
def topicSafe (v : String) : Option String :=
  let bad := (v.toList.filter fun c => c ∈ forbiddenTopicChars).mergeSort (· ≤ ·)
  if bad = [] then none
  else some ("topic contains forbidden characters: [" ++ ", ".intercalate (bad.map reprForbidden) ++
    "]")

/-- `_date_iso`. -/
def dateIso (v : String) : Option String :=
  if isoDateMatch v then
    (dateFromIsoformat v).map fun e => "date is not a valid calendar date: " ++ e
  else some "date must be ISO format YYYY-MM-DD"

/-- `_start_time_hhmm`. -/
def startTimeHhmm (v : String) : Option String :=
  if isoTimeMatch v then none else some "start_time must be HH:MM (24-hour)"

/-- `_time_zone_known`. -/
def timeZoneKnown (zones : List String) (v : String) : Option String :=
  if v ∈ zones then none else some ("unknown IANA time zone: " ++ v)

/-- `int(v)`, for a text. -/
def durationOfText (s : String) : Except Rejection Json :=
  match intOfStr s with
  | .ok n => .ok (.num (.int n))
  | .error _ => valueError "duration must be an integer number of minutes" (.str s)

/-- `_duration_coerce`. -/
def durationCoerce : Check
  | .str s => durationOfText s
  | v => .ok v

/-- The fields of `MeetingCreate`. -/
def MeetingCreate.fields (zones : List String) : List Field :=
  [ ⟨"topic", none, (strCheck (some 500)).after topicSafe⟩,
    ⟨"date", none, (strCheck none).after dateIso⟩,
    ⟨"start_time", none, (strCheck none).after startTimeHhmm⟩,
    ⟨"duration", none, fun v => durationCoerce v >>= intCheck 1 480⟩,
    ⟨"time_zone", none, (strCheck none).after (timeZoneKnown zones)⟩ ]

/-- `model_dump()`. -/
def MeetingCreate.dump (data : MeetingCreate) : Dict :=
  [("topic", .str data.topic), ("date", .str data.date), ("start_time", .str data.startTime),
    ("duration", .num (.int data.duration)), ("time_zone", .str data.timeZone)]

/-! ## Other models -/

/-- The `str` that a field has, required. -/
def requiredStr (name : String) : Field := ⟨name, none, strCheck none⟩

/-- The `Optional[str]` that a field has, with this default. -/
def optionalField (name : String) (default' : Json) : Field := ⟨name, some default', optionalStr⟩

/-- The fields of `AgentConfigCreate`. -/
def AgentConfigCreate.fields : List Field :=
  [ requiredStr "org", requiredStr "agent_id", requiredStr "agent_secret",
    requiredStr "display_name", optionalField "description" .null,
    optionalField "gemini_api_key" .null, optionalField "org_client_id" .null,
    optionalField "org_client_secret" .null, optionalField "custom_prompt" .null ]

/-- The fields of `PersonalizationUpsert`. -/
def PersonalizationUpsert.fields : List Field :=
  [ requiredStr "org", optionalField "logo_url" .null, optionalField "logo_alt_text" .null,
    optionalField "favicon_url" .null, optionalField "primary_color" .null,
    optionalField "secondary_color" .null ]

/-- The fields of `OrganizationPlanUpsert`. -/
def OrganizationPlanUpsert.fields : List Field := [requiredStr "org", requiredStr "plan"]

end Teamspace.Api
