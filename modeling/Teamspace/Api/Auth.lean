import Teamspace.Common.M2mAuth

/-!
# Authentication of users

`api/auth.py`: the user that an `Authorization` header stands for, and the dependencies that the
routers ask for. FastAPI's `HTTPBearer(auto_error=False)` takes the credentials out of the header
and gives none for a header that is absent or malformed.
-/

namespace Teamspace.Api

open Teamspace.Py Teamspace.Common

/-- `UserInfo`. -/
structure UserInfo where
  userId : Json
  org : Json
  email : Json
  scopes : List String
  groups : Json
  actorUserId : Json
  authType : Json
  deriving DecidableEq, Repr

/-- `decoded.get(k, default)`. -/
def claim (decoded : Dict) (k : String) (default' : Json) : Json :=
  (Dict.get decoded k).getD default'

/-- `v.split()`. -/
def splitClaim : Json → Except Exn (List String)
  | .str s => .ok (split s)
  | _ => .error .attributeError

/-- `UserInfo.__init__`. -/
def UserInfo.ofClaims (decoded : Dict) : Except Exn UserInfo := do
  let scopes ← splitClaim (claim decoded "scope" (.str ""))
  let actorUserId ← getOr (claim decoded "act" (.obj [])) "sub" (.str "")
  return {
    userId := claim decoded "sub" (.str "")
    org := pyOr (claim decoded "org_id" (.str "")) (claim decoded "user_org" (.str ""))
    email := claim decoded "email" (.str "")
    scopes
    groups := claim decoded "groups" (.arr [])
    actorUserId
    authType := claim decoded "aut" (.str "APPLICATION_USER") }

/-- What the Business API verifies users with. `httpBearer` are the credentials that
`HTTPBearer(auto_error=False)` takes from the value of the `Authorization` header. -/
structure UserAuth (Key : Type) where
  jwt : PyJwt Key
  jwks : Except AuthExn Dict
  expected : Expected
  httpBearer : Option String → Option String

variable {Key : Type} (A : UserAuth Key)

/-- The claims of a token that verifies. -/
def userClaims (token : String) : Except AuthExn Dict := do
  let jwks ← A.jwks
  verify A.jwt jwks token A.expected

/-- The `except` clauses of `get_current_user`. -/
def userRefusal : AuthExn → AuthExn
  | .signingKeyNotFound => .py (.httpException 401 "Signing key not found")
  | .expiredSignature => .py (.httpException 401 "Token expired")
  | .invalidToken message => .py (.httpException 401 ("Invalid token: " ++ message))
  | e => e

/-- `get_current_user`. -/
def getCurrentUser (authorization : Option String) : Except AuthExn (Option UserInfo) :=
  match A.httpBearer authorization with
  | none => .ok none
  | some token =>
    ((do
      let decoded ← userClaims A token
      return some (← liftPy (UserInfo.ofClaims decoded)) : Except AuthExn (Option UserInfo))).mapError
        userRefusal

/-- `require_current_user`, on what `get_current_user` gave. -/
def requireCurrentUser (user : Except AuthExn (Option UserInfo)) : Except AuthExn UserInfo := do
  match ← user with
  | none => httpException 401 "Authentication required: provide Authorization Bearer token"
  | some user => return user

/-- The checker that `require_scope(scope)` builds, on what `get_current_user` gave. -/
def requireScope (scope : String) (user : Except AuthExn (Option UserInfo)) :
    Except AuthExn UserInfo := do
  match ← user with
  | none => .error (.py .attributeError)
  | some user =>
    let agentScope := scope ++ "_agent"
    if scope ∉ user.scopes ∧ agentScope ∉ user.scopes then
      httpException 403 ("Missing required scope: " ++ scope ++ " or " ++ agentScope)
    else return user

end Teamspace.Api
