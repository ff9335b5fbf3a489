import Teamspace.Common.JwtValidation

/-!
# Fetching a JWKS

The request that both services send for the JWKS of WSO2 IS, and what they read of the reply:
`resp.raise_for_status()` and `resp.json()`. They differ in what they do when it cannot be read.
-/

namespace Teamspace.Common

open Teamspace.Py

/-- `jwks_url`. -/
def jwksUrl (isBaseUrl tenantPath : String) : String := isBaseUrl ++ tenantPath ++ "/oauth2/jwks"

/-- What becomes of `httpx.get(url)`: an `httpx.HTTPError`, or a response, with its body if it is
JSON. -/
inductive JwksReply
  | httpError
  | response (statusCode : Nat) (json : Option Json)
  deriving DecidableEq

/-- A status at which `raise_for_status` does not raise. -/
def IsSuccess (statusCode : Nat) : Prop := 200 ≤ statusCode ∧ statusCode < 300

instance (statusCode : Nat) : Decidable (IsSuccess statusCode) :=
  inferInstanceAs (Decidable (_ ∧ _))

/-- The body of a reply, after `raise_for_status` and `json`. An `HTTPStatusError` is an
`HTTPError`. -/
def JwksReply.body : JwksReply → Except Exn Json
  | .httpError => .error .httpError
  | .response statusCode json =>
    if IsSuccess statusCode then json.elim (.error .valueError) .ok else .error .httpError

/-- A body is that of a successful response. -/
theorem JwksReply.eq_of_body {r : JwksReply} {data : Json} (h : r.body = .ok data) :
    ∃ statusCode, IsSuccess statusCode ∧ r = .response statusCode (some data) := by
  cases r with
  | httpError => cases h
  | response statusCode json =>
    have h : (if IsSuccess statusCode then json.elim (Except.error Exn.valueError) .ok
      else .error .httpError) = .ok data := h
    split at h
    · next hs =>
      cases json with
      | none => cases h
      | some data' =>
        cases h
        exact ⟨statusCode, hs, rfl⟩
    · cases h

end Teamspace.Common
