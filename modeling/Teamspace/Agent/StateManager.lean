import Teamspace.Agent.Basic

/-!
# Flow state of a thread

`agent/state_manager.py`: the flow state of a thread, its pending meeting, authorization URL,
agent credentials and names. Every write takes the default time to live.
-/

namespace Teamspace.Agent

open Teamspace.Lib Teamspace.Py

/-- The meeting actions that a user authorizes before they are committed. -/
inductive Action
  | book
  | update
  | delete
  deriving DecidableEq, Repr

/-- `FlowState`. The three committing actions run through the same pair of states. -/
inductive FlowState
  | initial
  | previewInitiated (a : Action)
  | authorized (a : Action)
  | listPreviewInitiated
  | listAuthorized
  deriving DecidableEq, Repr

/-- The value of a flow state. -/
def FlowState.value : FlowState → String
  | .initial => "INITIAL"
  | .previewInitiated .book => "BOOKING_PREVIEW_INITIATED"
  | .authorized .book => "BOOKING_AUTHORIZED"
  | .listPreviewInitiated => "LIST_PREVIEW_INITIATED"
  | .listAuthorized => "LIST_AUTHORIZED"
  | .previewInitiated .update => "UPDATE_PREVIEW_INITIATED"
  | .authorized .update => "UPDATE_AUTHORIZED"
  | .previewInitiated .delete => "DELETE_PREVIEW_INITIATED"
  | .authorized .delete => "DELETE_AUTHORIZED"

/-- The members of `FlowState`. -/
def FlowState.all : List FlowState :=
  [.initial, .previewInitiated .book, .authorized .book, .listPreviewInitiated, .listAuthorized,
    .previewInitiated .update, .authorized .update, .previewInitiated .delete, .authorized .delete]

/-- `FlowState(raw)`, where `none` is the `ValueError` of an unknown value. -/
def FlowState.ofValue (raw : Json) : Option FlowState :=
  FlowState.all.find? fun s => decide (raw = .str s.value)

/-- A flow state is read back from its value. -/
@[simp] theorem FlowState.ofValue_value (s : FlowState) : ofValue (.str s.value) = some s := by
  cases s with
  | previewInitiated a | authorized a => cases a <;> decide
  | initial | listPreviewInitiated | listAuthorized => decide

/-- `DEFAULT_AGENT_NAME`. -/
def defaultAgentName : String := "Worklink Assistant"

/-- `_put`. -/
def put (n : Namespace) (threadId : String) (value : Json) : Coro Unit :=
  storeSet n threadId value defaultTtlSeconds

/-- `value is not None`. -/
def notNone : Option Json → Option Json
  | some .null => none
  | v => v

/-- `_fetch`, with `none` as the default. -/
def fetch (n : Namespace) (threadId : String) : Coro (Option Json) := do
  return notNone (← storeGet n threadId)

/-- The flow state that a stored value stands for: an absent or unknown one is `INITIAL`. -/
def flowStateOf (raw : Option Json) : FlowState :=
  match notNone raw with
  | none => .initial
  | some raw => (FlowState.ofValue raw).getD .initial

@[simp] theorem flowStateOf_none : flowStateOf none = .initial := rfl

@[simp] theorem flowStateOf_value (s : FlowState) : flowStateOf (some (.str s.value)) = s := by
  simp [flowStateOf, notNone]

def getState (threadId : String) : Coro FlowState := do
  return flowStateOf (← storeGet .flowState threadId)

def setState (threadId : String) (state : FlowState) : Coro Unit :=
  put .flowState threadId (.str state.value)

def setPendingMeeting (threadId : String) (meeting : Dict) : Coro Unit :=
  put .pendingMeeting threadId (.obj meeting)

def getPendingMeeting (threadId : String) : Coro (Option Json) := fetch .pendingMeeting threadId

def clearPendingMeeting (threadId : String) : Coro Unit := storeDelete .pendingMeeting threadId

def setAuthUrl (threadId : String) (url : String) : Coro Unit := put .authUrl threadId (.str url)

def getAuthUrl (threadId : String) : Coro (Option Json) := fetch .authUrl threadId

def setAgentCredentials (threadId : String) (agentId agentSecret : Json) : Coro Unit :=
  put .agentCredentials threadId (.arr [agentId, agentSecret])

/-- The pair that stored credentials stand for. -/
def credentialsOf (stored : Option Json) : Except Exn (Json × Json) :=
  match notNone stored with
  | none => .ok (.str "", .str "")
  | some v =>
    if v.truthy then
      match v with
      | .arr (agentId :: agentSecret :: _) => .ok (agentId, agentSecret)
      | .arr _ => .error .indexError
      | .obj _ => .error .keyError
      | _ => .error .typeError
    else .ok (.str "", .str "")

def getAgentCredentials (threadId : String) : Coro (Json × Json) := do
  ofExcept (credentialsOf (← storeGet .agentCredentials threadId))

def setOrgName (threadId orgName : String) : Coro Unit := put .orgName threadId (.str orgName)

def getOrgName (threadId : String) : Coro Json := do
  return (← fetch .orgName threadId).getD (.str "")

def setAgentName (threadId agentName : String) : Coro Unit :=
  put .agentName threadId (.str agentName)

def getAgentName (threadId : String) : Coro Json := do
  return (← fetch .agentName threadId).getD (.str defaultAgentName)

/-- `_ALL_NAMESPACES`. -/
def allNamespaces : List Namespace :=
  [.flowState, .pendingMeeting, .authUrl, .agentCredentials, .agentName, .orgName]

def clearState (threadId : String) : Coro Unit :=
  allNamespaces.forM fun n => storeDelete n threadId

end Teamspace.Agent
