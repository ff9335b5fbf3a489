import Teamspace.Common.JwtValidation

/-!
# Authentication of services, on the receiving side

The receiving half of `common/m2m_auth.py`: the dependency that authenticates an inbound call by the
service token in its `X-Service-Authorization` header. Both services build it with their own JWKS
getter.
-/

namespace Teamspace.Common

open Teamspace.Py

/-- `SERVICE_SCOPE`. -/
def serviceScope : String := "teamspace_internal_service"

/-- `SERVICE_AUTH_HEADER`. -/
def serviceAuthHeader : String := "X-Service-Authorization"

/-- `raise HTTPException(status_code, detail)`. -/
def httpException {α : Type} (statusCode : Nat) (detail : String) : Except AuthExn α :=
  .error (.py (.httpException statusCode detail))

/-- `parse_bearer`. Only ASCII letters have one of the letters of `bearer` in lower case. -/
def parseBearer (headerValue : Option String) : Option String :=
  match headerValue.filter (· ≠ "") with
  | none => none
  | some value =>
    match splitFirst (strip value) with
    | [] => none
    | [part] => if part.toLower = "bearer" then none else some part
    | part :: rest :: _ =>
      if part.toLower = "bearer" then some (strip rest) |>.filter (· ≠ "") else none

/-- The scopes that `verify_service_claims` reads. -/
def grantedScopes (decoded : Dict) : Except Exn (List Json) :=
  match (Dict.get decoded "scope").getD (.str "") with
  | .str granted => .ok ((split granted).map .str)
  | granted => iterate (pyOr granted (.arr []))

/-- `verify_service_claims`, with `repr` for the texts of its errors. -/
def verifyServiceClaims (repr : Json → String) (decoded : Dict) (scope : String) :
    Except AuthExn Unit := do
  let scopes ← liftPy (grantedScopes decoded)
  if .str scope ∉ scopes then
    .error (.serviceAuth ("Service token is missing the required " ++ repr (.str scope) ++ " scope"))
  else
    let authType := (Dict.get decoded "aut").getD .null
    if authType ≠ .null ∧ authType ≠ .str "APPLICATION" then
      .error (.serviceAuth ("Token has the " ++ repr (.str scope) ++ " scope but aut=" ++
        repr authType ++ "; expected an application-only (client-credentials) token"))
    else return ()

/-- What a service builds its authenticator with. The JWKS is the outcome of its getter. -/
structure ServiceAuth (Key : Type) where
  jwt : PyJwt Key
  jwks : Except AuthExn Dict
  expected : Expected
  repr : Json → String

variable {Key : Type} (S : ServiceAuth Key)

/-- The body of the `try` of `require_service_auth`. -/
def serviceClaims (token : String) : Except AuthExn Dict := do
  let jwks ← S.jwks
  let decoded ← verify S.jwt jwks token S.expected
  verifyServiceClaims S.repr decoded serviceScope
  return decoded

/-- The `except` clauses of `require_service_auth`. -/
def serviceRefusal : AuthExn → AuthExn
  | .signingKeyNotFound => .py (.httpException 401 "Signing key not found")
  | .expiredSignature => .py (.httpException 401 "Service token expired")
  | .invalidToken message => .py (.httpException 401 ("Invalid service token: " ++ message))
  | .serviceAuth message => .py (.httpException 403 message)
  | e => e

/-- `require_service_auth`, without the debug line after the checks: what it shows of the claims is
taken to be shown. -/
def requireServiceAuth (serviceAuthorization : Option String) : Except AuthExn Dict :=
  match parseBearer serviceAuthorization with
  | none => httpException 401 ("Missing " ++ serviceAuthHeader ++ " header with a service token")
  | some token => (serviceClaims S token).mapError serviceRefusal

end Teamspace.Common
