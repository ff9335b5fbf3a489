import Teamspace.Py.Json
import Teamspace.Py.Str

/-!
# Verification of WSO2 IS tokens

`common/jwt_validation.py`: the key of a token is looked up in a JWKS, and the token is decoded with
the algorithm, the audience and the issuer pinned. What PyJWT does itself is a parameter (`PyJwt`).
-/

namespace Teamspace.Common

open Teamspace.Py

/-- The exceptions that the authenticators tell apart. -/
inductive AuthExn
  | signingKeyNotFound
  /-- `jwt.ExpiredSignatureError`. -/
  | expiredSignature
  /-- Any other `jwt.InvalidTokenError`, with its text. -/
  | invalidToken (message : String)
  | serviceAuth (message : String)
  | runtimeError
  /-- The exceptions of the language, and `HTTPException`. -/
  | py (e : Exn)
  deriving DecidableEq, Repr

/-- The header of a token, as `jwt.get_unverified_header` returns it: PyJWT refuses a `kid` that is
no string. -/
structure Header where
  kid : Option String
  deriving DecidableEq, Repr

/-- What the claims of a token are checked for, and when. -/
structure Expected where
  audience : String
  issuer : String
  leeway : Nat
  now : Rat

/-- The functions of PyJWT that the verifiers call, over opaque keys. -/
structure PyJwt (Key : Type) where
  getUnverifiedHeader : String → Except AuthExn Header
  /-- `jwt.get_algorithm_by_name("RS256").from_jwk(entry)`. -/
  fromJwk : Dict → Except AuthExn Key
  /-- `bool(key)`. -/
  truthy : Key → Bool
  /-- `jwt.decode` with `algorithms=["RS256"]` and `verify_aud`. -/
  decode : String → Key → Expected → Except AuthExn Dict

variable {Key : Type} (J : PyJwt Key)

/-- Lift an outcome of the language. -/
def liftPy {α : Type} (x : Except Exn α) : Except AuthExn α := x.mapError .py

/-- `kid` as it is compared with what a JWKS entry holds. -/
def Header.kidValue (h : Header) : Json := (h.kid.map Json.str).getD .null

/-- The loop of `select_signing_key`. -/
def findKey (h : Header) : List Json → Except AuthExn Key
  | [] => .error .signingKeyNotFound
  | entry :: rest => do
    let kid ← liftPy (getOr entry "kid" .null)
    if kid = h.kidValue then
      match entry with
      | .obj fields => J.fromJwk fields
      | _ => .error (.py .attributeError)
    else findKey h rest

/-- `select_signing_key`. -/
def selectSigningKey (jwks : Dict) (token : String) : Except AuthExn Key := do
  let header ← J.getUnverifiedHeader token
  let keys ← liftPy (iterate ((Dict.get jwks "keys").getD (.arr [])))
  findKey J header keys

/-- `decode_rs256`. -/
def decodeRs256 (token : String) (key : Key) (x : Expected) : Except AuthExn Dict :=
  J.decode token key x

/-- `decode_rs256` with the key that `select_signing_key` selects. -/
def verify (jwks : Dict) (token : String) (x : Expected) : Except AuthExn Dict := do
  let key ← selectSigningKey J jwks token
  decodeRs256 J token key x

/-- `token_issuer`. -/
def tokenIssuer (isBaseUrl tenantPath : String) : String := isBaseUrl ++ tenantPath ++ "/oauth2/token"

end Teamspace.Common
