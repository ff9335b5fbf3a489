import Teamspace.Common.JwtValidation

/-!
# The token verification of the MCP server

`validate_mcp_token` of `agent/mcp_server.py` has a loop of its own over the keys of the JWKS. It
reads the `kid` of an entry and of the header with `[]`, where the shared verifier reads it with
`get`. So a token that the Business API accepts is refused by the MCP server exactly when it has no
`kid`, an entry without one precedes its key, or its key is falsy (`one_verification`).
-/

namespace Teamspace.Agent

open Teamspace.Py Teamspace.Common

variable {Key : Type} (J : PyJwt Key)

/-- `header["kid"]`. -/
def kidItem (h : Header) : Except AuthExn Json :=
  match h.kid with
  | some kid => .ok (.str kid)
  | none => .error (.py .keyError)

/-- The loop of `validate_mcp_token`: the key that it ends with, if any. -/
def findMcpKey (h : Header) : List Json → Except AuthExn (Option Key)
  | [] => .ok none
  | k :: rest => do
    let kid ← liftPy (k.getItem "kid")
    if kid = (← kidItem h) then
      match k with
      | .obj fields => return some (← J.fromJwk fields)
      | _ => .error (.py .typeError)
    else findMcpKey h rest

/-- `validate_mcp_token`, with the JWKS that `get_jwks` returned. -/
def validateMcpToken (jwks : Dict) (token : String) (x : Expected) : Except AuthExn Dict := do
  let header ← J.getUnverifiedHeader token
  let keys ← liftPy (iterate ((Dict.get jwks "keys").getD (.arr [])))
  match ← findMcpKey J header keys with
  | some key => if J.truthy key then J.decode token key x else .error (.py .valueError)
  | none => .error (.py .valueError)

/-! ## The key that each loop finds -/

/-- What `entry.get("kid")` gives. -/
def kidOf (entry : Dict) : Json := (Dict.get entry "kid").getD .null

/-- `fields` is the first entry of the header's `kid`, and `before` are the entries before it. -/
inductive FirstMatch (h : Header) : List Dict → List Dict → Dict → Prop
  | here {e : Dict} {rest : List Dict} : kidOf e = h.kidValue → FirstMatch h (e :: rest) [] e
  | later {e : Dict} {rest before : List Dict} {fields : Dict} : kidOf e ≠ h.kidValue →
      FirstMatch h rest before fields → FirstMatch h (e :: rest) (e :: before) fields

/-- There is one first match at most. -/
theorem FirstMatch.unique {h : Header} {entries before before' : List Dict} {fields fields' : Dict}
    (hm : FirstMatch h entries before fields) (hm' : FirstMatch h entries before' fields') :
    before = before' ∧ fields = fields' := by
  induction hm generalizing before' with
  | here he =>
    cases hm' with
    | here _ => exact ⟨rfl, rfl⟩
    | later hne _ => exact absurd he hne
  | later hne _ ih =>
    cases hm' with
    | here he => exact absurd he hne
    | later _ hm' =>
      obtain ⟨rfl, rfl⟩ := ih hm'
      exact ⟨rfl, rfl⟩

/-- The shared verifier takes the first entry of the `kid`, also where neither has one. -/
theorem findKey_eq_ok {h : Header} {entries : List Dict} {key : Key} :
    findKey J h (entries.map .obj) = .ok key ↔
      ∃ before fields, FirstMatch h entries before fields ∧ J.fromJwk fields = .ok key := by
  induction entries with
  | nil =>
    constructor
    · rintro ⟨⟩
    · rintro ⟨before, fields, hm, -⟩
      cases hm
  | cons e rest ih =>
    have step : findKey J h ((e :: rest).map .obj) =
        if kidOf e = h.kidValue then J.fromJwk e else findKey J h (rest.map .obj) := rfl
    rw [step]
    split
    · next he =>
      constructor
      · exact fun hk => ⟨[], e, .here he, hk⟩
      · rintro ⟨before, fields, hm, hk⟩
        obtain ⟨rfl, rfl⟩ := hm.unique (.here he)
        exact hk
    · next hne =>
      rw [ih]
      constructor
      · rintro ⟨before, fields, hm, hk⟩
        exact ⟨e :: before, fields, .later hne hm, hk⟩
      · rintro ⟨before, fields, hm, hk⟩
        cases hm with
        | here he => exact absurd he hne
        | later _ hm => exact ⟨_, fields, hm, hk⟩

/-- One round of the MCP server's loop. -/
theorem findMcpKey_cons (h : Header) (e : Dict) (rest : List Dict) :
    findMcpKey J h ((e :: rest).map .obj) =
      match Dict.get e "kid", h.kid with
      | some v, some kid =>
        if v = .str kid then (J.fromJwk e).map some else findMcpKey J h (rest.map .obj)
      | _, _ => .error (.py .keyError) := by
  rw [List.map_cons, findMcpKey, Json.getItem, kidItem]
  cases Dict.get e "kid" with
  | none => rfl
  | some v =>
    cases h.kid with
    | none => rfl
    | some kid =>
      change (if v = .str kid then (do return some (← J.fromJwk e)) else _) = _
      split
      · next hv =>
        refine Eq.trans ?_ (if_pos hv).symm
        cases J.fromJwk e <;> rfl
      · next hv => exact (if_neg hv).symm

/-- The MCP server takes it only where the header and the entries before it have a `kid`. -/
theorem findMcpKey_eq_some {h : Header} {entries : List Dict} {key : Key} :
    findMcpKey J h (entries.map .obj) = .ok (some key) ↔
      ∃ before fields, FirstMatch h entries before fields ∧ J.fromJwk fields = .ok key ∧
        h.kid ≠ none ∧ ∀ e ∈ before, (Dict.get e "kid").isSome = true := by
  induction entries with
  | nil =>
    constructor
    · rintro ⟨⟩
    · rintro ⟨before, fields, hm, -⟩
      cases hm
  | cons e rest ih =>
    rw [findMcpKey_cons]
    cases hv : Dict.get e "kid" with
    | none =>
      -- the first `k["kid"]` raises
      refine ⟨by rintro ⟨⟩, ?_⟩
      rintro ⟨before, fields, hm, -, hkid, hall⟩
      cases hm with
      | here he =>
        obtain ⟨kid, hk⟩ := Option.ne_none_iff_exists'.1 hkid
        rw [kidOf, hv, Header.kidValue, hk] at he
        cases he
      | later _ hm =>
        have := hall e (.head _)
        rw [hv] at this
        cases this
    | some v =>
      cases hkid : h.kid with
      | none =>
        refine ⟨by rintro ⟨⟩, ?_⟩
        rintro ⟨before, fields, -, -, hne, -⟩
        exact absurd rfl hne
      | some kid =>
        have hval : h.kidValue = .str kid := by rw [Header.kidValue, hkid]; rfl
        have hof : kidOf e = v := by rw [kidOf, hv]; rfl
        dsimp only
        split
        · next he =>
          have hhere : FirstMatch h (e :: rest) [] e := .here (by rw [hof, hval, he])
          constructor
          · intro hk
            cases hf : J.fromJwk e with
            | error x =>
              rw [hf] at hk
              cases hk
            | ok key' =>
              rw [hf] at hk
              cases hk
              exact ⟨[], e, hhere, hf, nofun, nofun⟩
          · rintro ⟨before, fields, hm, hf, -, -⟩
            obtain ⟨rfl, rfl⟩ := hm.unique hhere
            rw [hf]
            rfl
        · next hne =>
          have hlater : kidOf e ≠ h.kidValue := by rw [hof, hval]; exact hne
          rw [ih]
          constructor
          · rintro ⟨before, fields, hm, hf, -, hall⟩
            refine ⟨e :: before, fields, .later hlater hm, hf, nofun, fun x hx => ?_⟩
            rcases List.mem_cons.1 hx with rfl | hx
            · rw [hv]
              rfl
            · exact hall x hx
          · rintro ⟨before, fields, hm, hf, -, hall⟩
            cases hm with
            | here he => exact absurd he hlater
            | later _ hm =>
              exact ⟨_, fields, hm, hf, by rw [hkid]; nofun, fun x hx => hall x (.tail _ hx)⟩

/-! ## The two verifications -/

section
variable {jwks : Dict} {entries : List Dict} (hkeys : Dict.get jwks "keys" = some (.arr (entries.map .obj)))
  {token : String} {x : Expected} {claims : Dict}

include hkeys

/-- What the shared verifier accepts. -/
theorem verify_eq_ok : verify J jwks token x = .ok claims ↔
    ∃ header before fields key, J.getUnverifiedHeader token = .ok header ∧
      FirstMatch header entries before fields ∧ J.fromJwk fields = .ok key ∧
      J.decode token key x = .ok claims := by
  unfold verify selectSigningKey
  rw [hkeys]
  cases hh : J.getUnverifiedHeader token with
  | error e =>
    refine ⟨by rintro ⟨⟩, ?_⟩
    rintro ⟨header, -, -, -, ⟨⟩, -⟩
  | ok header =>
    change (findKey J header (entries.map .obj) >>= fun key => decodeRs256 J token key x) = _ ↔ _
    constructor
    · intro h
      cases hf : findKey J header (entries.map .obj) with
      | error e =>
        rw [hf] at h
        cases h
      | ok key =>
        rw [hf] at h
        obtain ⟨before, fields, hm, hk⟩ := (findKey_eq_ok J).1 hf
        exact ⟨header, before, fields, key, rfl, hm, hk, h⟩
    · rintro ⟨header', before, fields, key, he, hm, hk, hd⟩
      cases he
      rw [(findKey_eq_ok J).2 ⟨before, fields, hm, hk⟩]
      exact hd

/-- What the MCP server accepts. -/
theorem validateMcpToken_eq_ok : validateMcpToken J jwks token x = .ok claims ↔
    ∃ header before fields key, J.getUnverifiedHeader token = .ok header ∧
      FirstMatch header entries before fields ∧ J.fromJwk fields = .ok key ∧
      J.decode token key x = .ok claims ∧ header.kid ≠ none ∧
      (∀ e ∈ before, (Dict.get e "kid").isSome = true) ∧ J.truthy key = true := by
  unfold validateMcpToken
  rw [hkeys]
  cases hh : J.getUnverifiedHeader token with
  | error e =>
    refine ⟨by rintro ⟨⟩, ?_⟩
    rintro ⟨header, -, -, -, ⟨⟩, -⟩
  | ok header =>
    change (findMcpKey J header (entries.map .obj) >>= fun found => match found with
      | some key => if J.truthy key then J.decode token key x else .error (.py .valueError)
      | none => .error (.py .valueError)) = _ ↔ _
    constructor
    · intro h
      cases hf : findMcpKey J header (entries.map .obj) with
      | error e =>
        rw [hf] at h
        cases h
      | ok found =>
        rw [hf] at h
        cases found with
        | none => cases h
        | some key =>
          obtain ⟨before, fields, hm, hk, hkid, hall⟩ := (findMcpKey_eq_some J).1 hf
          replace h : (if J.truthy key then J.decode token key x else .error (.py .valueError)) =
            .ok claims := h
          split at h
          · next ht => exact ⟨header, before, fields, key, rfl, hm, hk, h, hkid, hall, ht⟩
          · cases h
    · rintro ⟨header', before, fields, key, he, hm, hk, hd, hkid, hall, ht⟩
      cases he
      rw [(findMcpKey_eq_some J).2 ⟨before, fields, hm, hk, hkid, hall⟩]
      exact (if_pos ht).trans hd

end

/-- The entry with the `kid` of a token whose signature and claims are valid under its key is one
that the MCP server reaches: the token has a `kid`, so has every entry before it, and the key is
truthy. -/
def KeyReached (entries : List Dict) (token : String) (x : Expected) : Prop :=
  ∀ header before fields key claims, J.getUnverifiedHeader token = .ok header →
    FirstMatch header entries before fields → J.fromJwk fields = .ok key →
    J.decode token key x = .ok claims →
    header.kid ≠ none ∧ (∀ e ∈ before, (Dict.get e "kid").isSome = true) ∧ J.truthy key = true

/-- The MCP server and the shared verifier of the Business API return the same claims for a token
exactly where the MCP server reaches its key. -/
theorem one_verification {jwks : Dict} {entries : List Dict}
    (hkeys : Dict.get jwks "keys" = some (.arr (entries.map .obj))) (token : String)
    (x : Expected) :
    (∀ claims, validateMcpToken J jwks token x = .ok claims ↔ verify J jwks token x = .ok claims) ↔
      KeyReached J entries token x := by
  simp only [validateMcpToken_eq_ok J hkeys, verify_eq_ok J hkeys]
  constructor
  · intro h header before fields key claims hh hm hk hd
    obtain ⟨header', before', fields', key', hh', hm', hk', -, hkid, hall, ht⟩ :=
      (h claims).2 ⟨header, before, fields, key, hh, hm, hk, hd⟩
    cases hh.symm.trans hh'
    obtain ⟨rfl, rfl⟩ := hm.unique hm'
    cases hk.symm.trans hk'
    exact ⟨hkid, hall, ht⟩
  · intro h claims
    constructor
    · rintro ⟨header, before, fields, key, hh, hm, hk, hd, -⟩
      exact ⟨header, before, fields, key, hh, hm, hk, hd⟩
    · rintro ⟨header, before, fields, key, hh, hm, hk, hd⟩
      exact ⟨header, before, fields, key, hh, hm, hk, hd, h _ _ _ _ _ hh hm hk hd⟩

/-- A PyJWT for tokens with the `kid` `a`, whose keys are the modulus of their entry. -/
def examplePyJwt : PyJwt Json where
  getUnverifiedHeader _ := .ok ⟨some "a"⟩
  fromJwk fields := .ok (kidOf fields)
  truthy _ := true
  decode token key _ := if key = .str "a" then .ok [("sub", .str token)] else .error .expiredSignature

/-- What the example tokens are checked for. -/
def exampleExpected : Expected := ⟨"client", "https://is/oauth2/token", 60, 0⟩

/-- A key set in which the key of the tokens is the second one. -/
def exampleEntries : List Dict := [[("kid", .str "b")], [("kid", .str "a")]]

/-- The MCP server accepts a token that the shared verifier accepts. -/
theorem one_verification_second :
    validateMcpToken examplePyJwt [("keys", .arr (exampleEntries.map .obj))] "t" exampleExpected =
      .ok [("sub", .str "t")] := by
  have hfirst : FirstMatch ⟨some "a"⟩ exampleEntries [[("kid", .str "b")]] [("kid", .str "a")] :=
    .later (by decide) (.here (by decide))
  have hreached : KeyReached examplePyJwt exampleEntries "t" exampleExpected := by
    intro header before fields key claims hheader hmatch _ _
    cases hheader
    obtain ⟨rfl, rfl⟩ := hmatch.unique hfirst
    exact ⟨by decide, by decide, rfl⟩
  have hkeys : Dict.get [("keys", .arr (exampleEntries.map .obj))] "keys" =
      some (.arr (exampleEntries.map .obj)) := rfl
  have hagree := (one_verification examplePyJwt hkeys "t" exampleExpected).2 hreached
  exact (hagree _).2 (by decide)

/-- A key without a `kid` before the key of the token stops the MCP server only. -/
theorem verification_differs : ¬ ∀ (J : PyJwt Json) (jwks : Dict) (entries : List Dict)
    (token : String) (x : Expected) (claims : Dict),
    Dict.get jwks "keys" = some (.arr (entries.map .obj)) →
    (validateMcpToken J jwks token x = .ok claims ↔ verify J jwks token x = .ok claims) := by
  intro h
  have h := h examplePyJwt [("keys", .arr [.obj [("kty", .str "RSA")], .obj [("kid", .str "a")]])]
    [[("kty", .str "RSA")], [("kid", .str "a")]] "t" exampleExpected [("sub", .str "t")] rfl
  have hshared : verify examplePyJwt
      [("keys", .arr [.obj [("kty", .str "RSA")], .obj [("kid", .str "a")]])] "t" exampleExpected =
      .ok [("sub", .str "t")] := by decide
  have hmcp : validateMcpToken examplePyJwt
      [("keys", .arr [.obj [("kty", .str "RSA")], .obj [("kid", .str "a")]])] "t" exampleExpected =
      .error (.py .keyError) := by decide
  rw [hmcp, hshared] at h
  cases h.2 rfl

end Teamspace.Agent
