import Teamspace.Agent.System

/-!
# A deployment with symbolic tokens

A deployment in which a JWT is the pair of its claims and the key that signed it, random tokens are
numbered, and every token of WSO2 IS carries the delegated scopes. The noncharacter U+FFFF stands for
an unpaired surrogate, which no text can be encoded with. Runs of the service in it can be computed.
-/

namespace Teamspace.Agent.Symbolic

open Teamspace.Lib Teamspace.Py Teamspace.Lib.System

/-- A string that a browser may present: a JWT, or anything else. -/
inductive Tok
  | signed (claims : StateClaims) (key : String)
  | raw (text : String)
  deriving DecidableEq, Repr

/-- JWTs whose signature is the key itself. -/
def jwt : JwtLib Tok where
  encode := .signed
  verify
    | .signed claims key, key' => if key = key' then some claims else none
    | .raw _, _ => none
  text
    | .signed _ _ => "jwt"
    | .raw s => s
  verify_encode c k := by simp
  text_encode_ne_empty _ _ := (by decide : "jwt" ≠ "")

/-- The random token of a draw: as many characters as there were draws, and one. -/
def randomToken (draw : Nat) : String := String.ofList (List.replicate (draw + 1) 'x')

/-- Draws are never repeated. -/
theorem randomToken_injective {m n : Nat} (h : randomToken m = randomToken n) : m = n := by
  have h := congrArg (fun s => s.toList.length) h
  simpa [randomToken] using h

/-- The settings of the deployment. -/
def settings : Settings where
  isBaseUrl := "https://is"
  tenantPath := ""
  clientId := "client"
  clientSecret := "secret"
  agentRedirectUri := "https://agent/callback"
  agentServiceUrl := "https://agent"
  businessApiUrl := "https://api"
  mockLlm := false
  stateSigningSecret := "key"

/-- The deployment. -/
def env : Env Tok where
  settings := settings
  jwt := jwt
  codeChallenge v := "S256:" ++ v
  tokenUrlsafe draw _ := randomToken draw
  tokenUrlsafe_ne_empty draw _ _ h := by
    have h := congrArg (fun s => s.toList.length) h
    simp [randomToken] at h
  validateMcpToken _ _ :=
    .ok [("scope", .str "create_meeting_agent update_meeting_agent delete_meeting_agent")]
  lower := id
  repr s := "'" ++ s ++ "'"
  str
    | .str s => s
    | _ => ""
  str_str _ := rfl
  encodable s := !s.toList.contains '\uffff'

/-- A response with a JSON body. -/
def ok (statusCode : Nat) (fields : Dict) : Rep := .response ⟨statusCode, "", some (.obj fields)⟩

/-- The scheduling of a run. -/
abbrev Schedule := List (agentSystem env).Choice

/-- The service after a schedule, from an empty store. -/
def play (cs : Schedule) : (agentSystem env).Config :=
  cs.foldl Config.play (Config.start (Shared.start 0 0))

/-- What is played is reachable. -/
theorem play_reachable (cs : Schedule) :
    Reachable (S := agentSystem env) (Shared.start 0 0) (play cs) := Reachable.play .refl cs

/-- Prepare a chat on thread `t`, whose agent has credentials; its token is not to be had yet. -/
def chat (i : Nat) : Schedule :=
  [.spawn i (.chat ⟨"t", "", "", "agent", "pw", ""⟩), .reply i .failed]

/-- A meeting, with the fields that the `inputSchema` of a tool requires of it. -/
def meeting (topic : String) : Dict :=
  [("topic", .str topic), ("date", .str "2026-05-22"), ("start_time", .str "14:00"),
    ("duration", .str "60"), ("time_zone", .str "America/Sao_Paulo")]

/-- An MCP client calls a tool on thread `t`. -/
def tool (i : Nat) (token name : String) (arguments : Dict) : Schedule :=
  [.spawn i (.mcp token name (("thread_id", .str "t") :: arguments))]

/-- The state that the `n`-th draw goes into, for an `/authorize` at time zero. -/
def state (action : String) (draw : Nat) : Tok :=
  .signed (statePayload "t" action (randomToken draw) 0) "key"

/-- WSO2 IS answers the three requests for a token of the agent. -/
def agentToken (i : Nat) : Schedule :=
  [.reply i (ok 200 [("flowId", .str "f"),
      ("nextStep", .obj [("authenticators", .arr [.obj [("authenticatorId", .str "b")]])])]),
    .reply i (ok 200 [("code", .str "c")]),
    .reply i (ok 200 [("access_token", .str "agent")])]

/-- A browser presents a state with its cookie, and WSO2 IS grants the delegated token `obo`. -/
def callback (i : Nat) (s : Tok) (obo : String) : Schedule :=
  .spawn i (.callback "code" s (some s)) :: agentToken i ++
    [.reply i (ok 200 [("access_token", .str obo)])]

end Teamspace.Agent.Symbolic
