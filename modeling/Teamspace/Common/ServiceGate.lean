import Teamspace.Common.M2mAuth
import Teamspace.Common.ServiceTokenClient

/-!
# What the service gate lets in

`require_service_auth` returns the claims of a token only if the token was verified with the key
that the first JWKS entry of its `kid` holds, and the claims carry the scope of services
(`service_gate`). The token is recovered from the header that a client sends it in.
-/

namespace Teamspace.Py

/-! ## Words -/

/-- `w` stands in `s` as a word: between spaces or the ends. -/
structure WordIn (w s : List Char) : Prop where
  ne_nil : w ≠ []
  no_space : ∀ c ∈ w, isSpace c = false
  between : ∃ pre post, s = pre ++ w ++ post ∧
    (∀ c ∈ pre.getLast?, isSpace c = true) ∧ ∀ c ∈ post.head?, isSpace c = true

/-- `w` stands in `s` as a word. -/
def IsWord (w s : String) : Prop := WordIn w.toList s.toList

section
variable {w word cs post : List Char} {c : Char}

/-- The first word of a text is in it. -/
theorem wordIn_first (hne : word ≠ []) (hword : ∀ c ∈ word, isSpace c = false)
    (hpost : ∀ c ∈ post.head?, isSpace c = true) : WordIn word.reverse (word.reverse ++ post) where
  ne_nil := fun h => hne (List.reverse_eq_nil_iff.1 h)
  no_space c hc := hword c (List.mem_reverse.1 hc)
  between := ⟨[], post, rfl, (fun _ h => by cases h), hpost⟩

/-- A word of what follows a space is one of the whole. -/
theorem WordIn.after_space (h : WordIn w cs) (hc : isSpace c = true) (word : List Char) :
    WordIn w (word ++ c :: cs) := by
  obtain ⟨hne, hspace, pre, post, rfl, hpre, hpost⟩ := h
  refine ⟨hne, hspace, word ++ c :: pre, post, ?_, fun d hd => ?_, hpost⟩
  · simp only [List.append_assoc, List.cons_append]
  · rw [List.getLast?_append_cons, List.getLast?_cons] at hd
    cases Option.some.inj hd
    cases hlast : pre.getLast? with
    | none => exact hc
    | some e => exact hpre e hlast

/-- The words of a text that goes on after the characters read so far are words of it. -/
theorem wordIn_of_mem (hword : ∀ c ∈ word, isSpace c = false) (h : w ∈ wordsFrom word cs) :
    WordIn w (word.reverse ++ cs) := by
  have hne (hw : ¬word.isEmpty = true) : word ≠ [] := fun he => hw (List.isEmpty_iff.2 he)
  induction cs generalizing word with
  | nil =>
    rw [wordsFrom] at h
    split at h
    · cases h
    · next hw =>
      cases List.mem_singleton.1 h
      exact wordIn_first (hne hw) hword fun _ h => by cases h
  | cons c cs ih =>
    rw [wordsFrom] at h
    split at h
    · next hc =>
      -- The rest is read from its first character on.
      have hrest (h : w ∈ wordsFrom [] cs) : WordIn w (word.reverse ++ c :: cs) := by
        have hin := ih (fun _ h => by cases h) h fun hw => absurd rfl hw
        exact hin.after_space hc _
      split at h
      · exact hrest h
      · next hw =>
        rcases List.mem_cons.1 h with rfl | h
        · exact wordIn_first (hne hw) hword fun d hd => Option.some.inj hd ▸ hc
        · exact hrest h
    · next hc =>
      have hword' : ∀ d ∈ c :: word, isSpace d = false :=
        List.forall_mem_cons.2 ⟨Bool.eq_false_iff.2 hc, hword⟩
      have hin := ih hword' h fun _ he => by cases he
      rwa [List.reverse_cons, List.append_assoc] at hin

end

/-- `s.split()` returns words of `s`. -/
theorem isWord_of_mem_split {w s : String} (h : w ∈ split s) : IsWord w s := by
  obtain ⟨cs, hcs, rfl⟩ := List.mem_map.1 h
  have hnone : ∀ c ∈ ([] : List Char), isSpace c = false := List.forall_mem_nil _
  have hin : WordIn cs s.toList := wordIn_of_mem hnone hcs
  unfold IsWord
  rwa [String.toList_ofList]

end Teamspace.Py

namespace Teamspace.Common

open Teamspace.Lib Teamspace.Py

/-! ## The header of a client -/

/-- `str(v)`, as an f-string applies it. -/
structure StrOf where
  str : Json → String
  str_str : ∀ s, str (.str s) = s

/-- The headers with a token, if there is one. -/
def headersFor (X : StrOf) (token : Option Json) : List (String × String) :=
  let token := token.getD .null
  if token.truthy then [(serviceAuthHeader, "Bearer " ++ X.str token)] else []

/-- `ServiceTokenClient.auth_headers`. -/
def authHeaders (X : StrOf) (forceRefresh : Bool) : Call (List (String × String)) := do
  return headersFor X (← getToken forceRefresh)

/-- `ServiceTokenClient.aauth_headers`. -/
def aauthHeaders (X : StrOf) (forceRefresh : Bool) : Call (List (String × String)) := do
  return headersFor X (← agetToken forceRefresh)

/-- The characters of a bearer header. -/
theorem bearer_toList (t : String) :
    ("Bearer " ++ t).toList = 'B' :: 'e' :: 'a' :: 'r' :: 'e' :: 'r' :: ' ' :: t.toList :=
  String.toList_append

section
variable {t : String}

/-- A bearer header has nothing to strip. -/
theorem strip_bearer (hne : t ≠ "") (ht : ∀ c ∈ t.toList, isSpace c = false) :
    strip ("Bearer " ++ t) = "Bearer " ++ t := by
  have hstart : ("Bearer " ++ t).toList.dropWhile isSpace = ("Bearer " ++ t).toList := by
    rw [bearer_toList, List.dropWhile_cons, if_neg (by decide)]
  obtain ⟨cs, c, hcs⟩ : ∃ cs c, t.toList = cs ++ [c] :=
    ⟨_, _, (List.dropLast_concat_getLast fun h => hne (String.toList_eq_nil_iff.1 h)).symm⟩
  have hc : isSpace c = false := ht c (by simp [hcs])
  have hend : ("Bearer " ++ t).toList.reverse.dropWhile isSpace =
      ("Bearer " ++ t).toList.reverse := by
    rw [String.toList_append, hcs, ← List.append_assoc, List.reverse_concat, List.dropWhile_cons, hc,
      if_neg Bool.false_ne_true]
  unfold strip
  rw [hstart, hend, List.reverse_reverse, String.ofList_toList]

/-- It is split into the scheme and the token. -/
theorem splitFirst_bearer (hne : t ≠ "") (ht : ∀ c ∈ t.toList, isSpace c = false) :
    splitFirst ("Bearer " ++ t) = ["Bearer", t] := by
  have hstart : ('B' :: 'e' :: 'a' :: 'r' :: 'e' :: 'r' :: ' ' :: t.toList).dropWhile isSpace =
      'B' :: 'e' :: 'a' :: 'r' :: 'e' :: 'r' :: ' ' :: t.toList := rfl
  have hword : ('B' :: 'e' :: 'a' :: 'r' :: 'e' :: 'r' :: ' ' :: t.toList).takeWhile
      (fun d => !isSpace d) = "Bearer".toList := rfl
  have hrest : (('B' :: 'e' :: 'a' :: 'r' :: 'e' :: 'r' :: ' ' :: t.toList).drop
      "Bearer".toList.length).dropWhile isSpace = t.toList := dropWhile_of_no_space ht
  unfold splitFirst
  rw [bearer_toList, hstart]
  dsimp only
  rw [hword, hrest, String.ofList_toList]
  cases hcs : t.toList with
  | nil => exact absurd (String.toList_eq_nil_iff.1 hcs) hne
  | cons c cs =>
    dsimp only
    rw [← hcs, String.ofList_toList]

/-- A token without spaces is recovered from the header that it is sent in. -/
theorem parseBearer_bearer (hne : t ≠ "") (ht : ∀ c ∈ t.toList, isSpace c = false) :
    parseBearer (some ("Bearer " ++ t)) = some t := by
  have hvalue : "Bearer " ++ t ≠ "" := fun h => by
    have h := congrArg String.toList h
    rw [bearer_toList] at h
    cases h
  have hlower : "Bearer".toLower = "bearer" := by decide +kernel
  unfold parseBearer
  rw [Option.filter_some, if_pos (decide_eq_true hvalue)]
  dsimp only
  rw [strip_bearer hne ht, splitFirst_bearer hne ht]
  dsimp only
  rw [if_pos hlower, strip_of_no_space ht, Option.filter_some, if_pos (decide_eq_true hne)]

end

/-! ## The gate -/

section
variable {Key : Type}

/-- The key of the first entry with this `kid`. -/
def FirstWith (J : PyJwt Key) (kid : Json) (keys : List Json) (key : Key) : Prop :=
  ∃ before fields after, keys = before ++ .obj fields :: after ∧
    (∀ entry ∈ before, ∃ d, entry = .obj d ∧ (Dict.get d "kid").getD .null ≠ kid) ∧
    (Dict.get fields "kid").getD .null = kid ∧ J.fromJwk fields = .ok key

/-- The claims carry a scope: as a word of a text, as an item of a list, or as a key of an
object. -/
inductive ScopeHeld (c : Dict) (scope : String) : Prop
  | word {text : String} (h : Dict.get c "scope" = some (.str text)) (hword : IsWord scope text)
  | item {items : List Json} (h : Dict.get c "scope" = some (.arr items))
      (hitem : .str scope ∈ items)
  | key {fields : Dict} (h : Dict.get c "scope" = some (.obj fields))
      (hkey : scope ∈ fields.map Prod.fst)

/-- The claims are those of an application: `aut` is absent, null or `APPLICATION`. -/
def OfApplication (c : Dict) : Prop :=
  ∀ aut ∈ Dict.get c "aut", aut = .null ∨ aut = .str "APPLICATION"

/-- The token of the header was verified as these claims, under the key of the first JWKS entry with
its `kid`, for the audience and the issuer of the service, and they are those of a service. -/
structure Accepted (S : ServiceAuth Key) (header : Option String) (c : Dict) : Prop where
  verified : ∃ token jwks h keys key, parseBearer header = some token ∧ S.jwks = .ok jwks ∧
    S.jwt.getUnverifiedHeader token = .ok h ∧
    iterate ((Dict.get jwks "keys").getD (.arr [])) = .ok keys ∧
    FirstWith S.jwt h.kidValue keys key ∧ S.jwt.decode token key S.expected = .ok c
  scope : ScopeHeld c serviceScope
  application : OfApplication c

/-- The key that is found is made from the first entry with the id. -/
theorem findKey_first {J : PyJwt Key} {h : Header} {keys : List Json} {key : Key}
    (hk : findKey J h keys = .ok key) : FirstWith J h.kidValue keys key := by
  induction keys with
  | nil => cases hk
  | cons entry rest ih =>
    cases entry with
    | obj d =>
      have hk' : (if (Dict.get d "kid").getD .null = h.kidValue then J.fromJwk d
          else findKey J h rest) = .ok key := hk
      split at hk'
      · next hkid => exact ⟨[], d, rest, rfl, (fun _ h => by cases h), hkid, hk'⟩
      · next hkid =>
        obtain ⟨before, fields, after, rfl, hbefore, hfields⟩ := ih hk'
        exact ⟨.obj d :: before, fields, after, rfl,
          List.forall_mem_cons.2 ⟨⟨d, rfl, hkid⟩, hbefore⟩, hfields⟩
    | null | bool | num | str | arr => cases hk

/-- The scopes that are read come from a text, a list or an object. -/
theorem scopeHeld_of_granted {c : Dict} {scope : String} {scopes : List Json}
    (h : grantedScopes c = .ok scopes) (hmem : .str scope ∈ scopes) : ScopeHeld c scope := by
  unfold grantedScopes at h
  cases hget : Dict.get c "scope" with
  | none =>
    rw [hget] at h
    cases h
    cases hmem
  | some granted =>
    rw [hget] at h
    cases granted with
    | str text =>
      cases h
      obtain ⟨w, hw, heq⟩ := List.mem_map.1 hmem
      cases heq
      exact .word hget (isWord_of_mem_split hw)
    | arr items =>
      cases items with
      | nil =>
        cases h
        cases hmem
      | cons item items =>
        cases h
        exact .item hget hmem
    | obj fields =>
      cases fields with
      | nil =>
        cases h
        cases hmem
      | cons field fields =>
        cases h
        obtain ⟨f, hf, heq⟩ := List.mem_map.1 hmem
        cases heq
        exact .key hget (List.mem_map.2 ⟨f, hf, rfl⟩)
    | null =>
      cases h
      cases hmem
    | bool b =>
      cases b with
      | true => cases h
      | false =>
        cases h
        cases hmem
    | num n =>
      have h' : iterate (if (Json.num n).truthy then .num n else .arr []) = .ok scopes := h
      split at h'
      · cases h'
      · cases h'
        cases hmem

/-- What `verify_service_claims` lets pass. -/
theorem verifyServiceClaims_sound {repr : Json → String} {c : Dict} {scope : String}
    (h : verifyServiceClaims repr c scope = .ok ()) : ScopeHeld c scope ∧ OfApplication c := by
  unfold verifyServiceClaims at h
  cases hscopes : grantedScopes c with
  | error e =>
    rw [hscopes] at h
    cases h
  | ok scopes =>
    rw [hscopes] at h
    replace h : (if .str scope ∉ scopes then _ else _ : Except AuthExn Unit) = .ok () := h
    split at h
    · cases h
    · next hmem =>
      refine ⟨scopeHeld_of_granted hscopes (not_not.1 hmem), fun aut haut => ?_⟩
      rw [Option.mem_def.1 haut, Option.getD_some] at h
      split at h
      · cases h
      · next hneg =>
        by_contra hcon
        exact hneg (not_or.1 hcon)

/-- Claims that verify are those that the first key with the token's id decodes to. -/
theorem verify_sound {J : PyJwt Key} {jwks c : Dict} {token : String} {x : Expected}
    (h : verify J jwks token x = .ok c) : ∃ hd keys key, J.getUnverifiedHeader token = .ok hd ∧
      iterate ((Dict.get jwks "keys").getD (.arr [])) = .ok keys ∧
      FirstWith J hd.kidValue keys key ∧ J.decode token key x = .ok c := by
  unfold verify selectSigningKey at h
  cases hheader : J.getUnverifiedHeader token with
  | error e =>
    rw [hheader] at h
    cases h
  | ok hd =>
    rw [hheader] at h
    cases hkeys : iterate ((Dict.get jwks "keys").getD (.arr [])) with
    | error e =>
      rw [hkeys] at h
      cases h
    | ok keys =>
      rw [hkeys] at h
      replace h : (findKey J hd keys >>= fun key => decodeRs256 J token key x) = .ok c := h
      cases hkey : findKey J hd keys with
      | error e =>
        rw [hkey] at h
        cases h
      | ok key =>
        rw [hkey] at h
        exact ⟨hd, keys, key, rfl, rfl, findKey_first hkey, h⟩

/-- The gate returns nothing but what it accepts. -/
theorem requireServiceAuth_sound {S : ServiceAuth Key} {header : Option String} {c : Dict}
    (h : requireServiceAuth S header = .ok c) : Accepted S header c := by
  unfold requireServiceAuth at h
  cases htoken : parseBearer header with
  | none =>
    rw [htoken] at h
    cases h
  | some token =>
    rw [htoken] at h
    replace h : (serviceClaims S token).mapError serviceRefusal = .ok c := h
    have hclaims : serviceClaims S token = .ok c := by
      cases hc : serviceClaims S token with
      | error e =>
        rw [hc] at h
        cases h
      | ok c' =>
        rw [hc] at h
        cases h
        rfl
    unfold serviceClaims at hclaims
    cases hjwks : S.jwks with
    | error e =>
      rw [hjwks] at hclaims
      cases hclaims
    | ok jwks =>
      rw [hjwks] at hclaims
      replace hclaims : (verify S.jwt jwks token S.expected >>= fun decoded => do
        verifyServiceClaims S.repr decoded serviceScope
        return decoded) = .ok c := hclaims
      cases hdecoded : verify S.jwt jwks token S.expected with
      | error e =>
        rw [hdecoded] at hclaims
        cases hclaims
      | ok decoded =>
        rw [hdecoded] at hclaims
        replace hclaims : (verifyServiceClaims S.repr decoded serviceScope >>= fun _ =>
          pure decoded) = .ok c := hclaims
        cases hpass : verifyServiceClaims S.repr decoded serviceScope with
        | error e =>
          rw [hpass] at hclaims
          cases hclaims
        | ok u =>
          rw [hpass] at hclaims
          cases hclaims
          obtain ⟨hd, keys, key, hheader, hkeys, hfirst, hdecode⟩ := verify_sound hdecoded
          obtain ⟨hscope, happ⟩ := verifyServiceClaims_sound hpass
          exact ⟨⟨token, jwks, hd, keys, key, htoken, hjwks, hheader, hkeys, hfirst, hdecode⟩,
            hscope, happ⟩

/-- **The service gate.** What `require_service_auth` returns are the claims that the token of the
header was verified as, and they are those of a service; and the token of a client is recovered from
the header that it sends. -/
theorem service_gate (S : ServiceAuth Key) (X : StrOf) :
    (∀ header c, requireServiceAuth S header = .ok c → Accepted S header c) ∧
    ∀ t, t ≠ "" → (∀ ch ∈ t.toList, isSpace ch = false) →
      parseBearer ((headersFor X (some (.str t))).lookup serviceAuthHeader) = some t := by
  refine ⟨fun header c h => requireServiceAuth_sound h, fun t hne ht => ?_⟩
  have htruthy : (Json.str t).truthy = true := bne_iff_ne.2 hne
  have hheaders : headersFor X (some (.str t)) = [(serviceAuthHeader, "Bearer " ++ t)] := by
    unfold headersFor
    rw [Option.getD_some, if_pos htruthy, X.str_str]
  rw [hheaders, List.lookup_cons, beq_self_eq_true]
  exact parseBearer_bearer hne ht

end

/-- A service that has one key, at a time at which every token is verified as these claims. -/
def oneKey (claims : Dict) : ServiceAuth Unit where
  jwt := {
    getUnverifiedHeader := fun _ => .ok ⟨some "k"⟩
    fromJwk := fun _ => .ok ()
    truthy := fun _ => true
    decode := fun _ _ _ => .ok claims }
  jwks := .ok [("keys", .arr [.obj [("kid", .str "other")], .obj [("kid", .str "k")]])]
  expected := ⟨"client", "https://is/oauth2/token", 60, 0⟩
  repr _ := ""

/-- A text for every value. -/
def plainStr : StrOf where
  str
    | .str s => s
    | .null => "None"
    | _ => ""
  str_str _ := rfl

/-- The claims of a service, among other scopes. -/
def serviceClaimsWords : Dict :=
  [("scope", .str "openid teamspace_internal_service"), ("aut", .str "APPLICATION")]

/-- Scopes with spaces between them pass the gate, in the header that the client makes. -/
theorem service_gate_words :
    Accepted (oneKey serviceClaimsWords) (some "Bearer tok") serviceClaimsWords ∧
      parseBearer ((headersFor plainStr (some (.str "tok"))).lookup serviceAuthHeader) =
        some "tok" := by
  have h := service_gate (oneKey serviceClaimsWords) plainStr
  have htok : ("tok".toList.all fun ch => !isSpace ch) = true := by decide
  refine ⟨h.1 _ _ (by decide +kernel), h.2 "tok" (by decide) fun ch hch => ?_⟩
  simpa using List.all_eq_true.1 htok ch hch

/-- A scope that is the key of an object, and neither a word nor an item of a list, is accepted. -/
theorem scope_keys_accepted : ¬ ∀ (S : ServiceAuth Unit) (header : Option String) (c : Dict),
    requireServiceAuth S header = .ok c →
      (∃ text, Dict.get c "scope" = some (.str text) ∧ IsWord serviceScope text) ∨
        ∃ items, Dict.get c "scope" = some (.arr items) ∧ .str serviceScope ∈ items := by
  intro h
  have haccepted : requireServiceAuth (oneKey [("scope", .obj [(serviceScope, .null)])])
      (some "Bearer tok") = .ok [("scope", .obj [(serviceScope, .null)])] := by decide +kernel
  obtain ⟨text, hscope, -⟩ | ⟨items, hscope, -⟩ := h _ _ _ haccepted <;> cases hscope

end Teamspace.Common
