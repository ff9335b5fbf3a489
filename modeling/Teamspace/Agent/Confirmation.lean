import Teamspace.Agent.Tools

/-!
# The confirmation path

`_handle_authorization_callback` of `agent/gemini_agent.py`: a chat message that says the user has
authorized the agent is not given to the model, but carries out what the flow state of the thread
allows. The replies are entries of the message catalog with their arguments; the catalog's texts
and their rendering to HTML are left out.
-/

namespace Teamspace.Agent

open Teamspace.Lib Teamspace.Py

variable {Tok : Type} (E : Env Tok)

/-- A reply of the agent: `_msg(language, key, **kwargs)`, or the list of meetings. -/
inductive Reply
  | msg (key : String) (kwargs : Dict)
  | meetingList (items : List (List String))
  deriving DecidableEq, Repr

/-- The text of `html.escape(v)`: only a `str` has the methods it calls. -/
def escapable (v : Json) : Except Exn String :=
  match v with
  | .str s => .ok s
  | _ => .error .attributeError

/-- What `_meeting_list_item` shows of a meeting. -/
def meetingListItem (meeting : Json) : Except Exn (List String) :=
  ["topic", "date", "start_time", "id"].mapM fun k => do escapable (← meeting.getItem k)

/-- `_meeting_list_html`. -/
def meetingListHtml (meetings : Json) : Except Exn (List (List String)) := do
  (← iterate meetings).mapM meetingListItem

/-- `dict(v)` for the `args` of `dispatch_tool`: what a thread has pending is a `dict`. -/
def dictOf (v : Json) : Except Exn Dict :=
  match v with
  | .obj d => .ok d
  | _ => .error .typeError

/-- `res.get("status") == status`. -/
def hasStatus (res : Dict) (status : String) : Bool := Dict.get res "status" = some (.str status)

/-- `message=res.get("message", "Unknown error")`. -/
def failure (key : String) (res : Dict) (unknown : String) : Reply :=
  .msg key [("message", (Dict.get res "message").getD (.str unknown))]

/-- `_handle_delete_authorized`. -/
def handleDeleteAuthorized (threadId : String) (pending : Json) (_language : String) :
    Coro Reply := do
  let meetingId ← ofExcept (pending.getItem "meeting_id")
  let res ← dispatchTool E "delete_meeting" [("meeting_id", meetingId)] threadId
  if hasStatus res "deleted" then return .msg "deleted_ok" []
  else return failure "delete_failed" res "Unknown error"

/-- `_handle_update_authorized`. -/
def handleUpdateAuthorized (threadId : String) (pending : Json) (_language : String) :
    Coro Reply := do
  let args ← ofExcept (dictOf pending)
  let res ← dispatchTool E "update_meeting" args threadId
  if hasStatus res "updated" then
    let meeting ← ofExcept ((Json.obj res).getItem "meeting")
    return .msg "update_ok" [("topic", ← ofExcept (meeting.getItem "topic"))]
  else return failure "update_failed" res "Unknown error"

/-- `_handle_booking_authorized`. -/
def handleBookingAuthorized (threadId : String) (pending : Json) (language : String) :
    Coro Reply := do
  let args ← ofExcept (dictOf pending)
  let res ← dispatchTool E "schedule_meeting" args threadId
  if hasStatus res "booked" then
    let meeting := (Dict.get res "meeting").getD (.obj [])
    let meetingId ← ofExcept (getOr meeting "id" (.str ""))
    let topic ← ofExcept (pending.getItem "topic")
    if meetingId.truthy then
      return .msg "booking_ok_with_id" [("topic", topic), ("meeting_id", meetingId)]
    else return .msg "booking_ok" [("topic", topic)]
  else
    return failure "booking_failed" res
      (if language = "en" then "Unknown error" else "Erro desconhecido")

/-- `_handle_list_authorized`. -/
def handleListAuthorized (threadId : String) (_pending : Json) (_language : String) :
    Coro Reply := do
  let res ← dispatchTool E "list_meetings" [] threadId
  if hasStatus res "success" then
    let meetings := (Dict.get res "meetings").getD (.arr [])
    if meetings.truthy then return .meetingList (← ofExcept (meetingListHtml meetings))
    else return .msg "no_meetings" []
  else return .msg "not_authorized_prompt" []

/-- The guard of an entry of `_AUTHORIZED_STATE_DISPATCH`, on what is pending. -/
abbrev PendingGuard := Json → Except Exn Bool

/-- `_AUTHORIZED_STATE_DISPATCH`. -/
def authorizedStateDispatch :
    List (FlowState × PendingGuard × (String → Json → String → Coro Reply)) := [
  (.authorized .delete,
    fun p => do if p.truthy then return (← getOr p "meeting_id" .null).truthy else return false,
    handleDeleteAuthorized E),
  (.authorized .update,
    fun p => do if p.truthy then p.contains "meeting_id" else return false,
    handleUpdateAuthorized E),
  (.authorized .book,
    fun p => do if p.truthy then p.contains "topic" else return false,
    handleBookingAuthorized E),
  (.listAuthorized, fun _ => return true, handleListAuthorized E)]

/-- `_dispatch_authorized_state`, over the entries that are left. -/
def dispatchAuthorizedState (state : FlowState) (threadId : String) (pending : Json)
    (language : String) :
    List (FlowState × PendingGuard × (String → Json → String → Coro Reply)) →
    Coro (Option Reply)
  | [] => return none
  | (target, guard, handler) :: rest => do
    if state = target then
      if ← ofExcept (guard pending) then return some (← handler threadId pending language)
      else dispatchAuthorizedState state threadId pending language rest
    else dispatchAuthorizedState state threadId pending language rest

/-- The message claims that the user has authorized the agent. -/
def saysAuthorized (message : String) : Bool :=
  ["authorized", "check", "autorizado", "verifique"].any (contains (E.lower message))

/-- The states in which such a message is followed up. -/
def FlowState.isAuthorized : FlowState → Bool
  | .authorized _ | .listAuthorized => true
  | _ => false

/-- `_handle_authorization_callback`; `none` when the message is not intercepted. -/
def handleAuthorizationCallback (message threadId language : String) : Coro (Option Reply) := do
  let state ← getState threadId
  if saysAuthorized E message then
    if state.isAuthorized then
      let pending ← getPendingMeeting threadId
      match ← dispatchAuthorizedState state threadId (pending.getD .null) language
          (authorizedStateDispatch E) with
      | some reply => return some reply
      | none => return some (.msg "not_authorized_prompt" [])
    else return some (.msg "not_authorized_prompt" [])
  else return none

end Teamspace.Agent
