import Teamspace.Py.JsonText
import Teamspace.Webapp.IdentityProviders

/-!
# Edited login flows

`update_login_flow` passes the steps of its form on to IS once `_parse_login_flow_steps` has taken
them. What it refuses is sent nowhere, and what a login flow has to be is accepted; what is accepted
is a login flow exactly if its options are objects and its steps are numbered
(`login_flow_validator_exact`).
-/

namespace Teamspace.Webapp

open Teamspace.Py Teamspace.Lib Handling

/-! ## The check of the steps -/

/-- Why steps are refused. -/
inductive StepsError
  | value (message : String)
  /-- What reading a value raises. -/
  | python (e : Exn)

/-- `str(e)`. What Python says of a value is left out. -/
def StepsError.str : StepsError → String
  | .value message => message
  | .python _ => ""

/-- `a in v and b in v`. -/
def holdsBoth (v : Json) (a b : String) : Except Exn Bool :=
  match v.contains a with
  | .ok true => v.contains b
  | r => r

/-- A check of each value of a list. -/
def checkEach (check : Json → Except StepsError Unit) : List Json → Except StepsError Unit
  | [] => .ok ()
  | v :: items =>
    match check v with
    | .ok _ => checkEach check items
    | .error e => .error e

/-- The check of an option. -/
def checkOption (opt : Json) : Except StepsError Unit :=
  match holdsBoth opt "idp" "authenticator" with
  | .ok true => .ok ()
  | .ok false => .error (.value "Each option must have 'idp' and 'authenticator'.")
  | .error e => .error (.python e)

/-- The check of `step["options"]`. -/
def checkOptions : Json → Except StepsError Unit
  | .arr (opt :: options) => checkEach checkOption (opt :: options)
  | _ => .error (.value "Each step must have at least one option.")

/-- The check of a step. -/
def checkStep (step : Json) : Except StepsError Unit :=
  match holdsBoth step "id" "options" with
  | .ok true =>
    match step.getItem "options" with
    | .ok options => checkOptions options
    | .error e => .error (.python e)
  | .ok false => .error (.value "Each step must have 'id' and 'options'.")
  | .error e => .error (.python e)

/-- The check of what `json.loads` has read. -/
def checkSteps : Json → Except StepsError (List Json)
  | .arr (step :: steps) =>
    match checkEach checkStep (step :: steps) with
    | .ok _ => .ok (step :: steps)
    | .error e => .error e
  | _ => .error (.value "Steps must be a non-empty list.")

/-- `_parse_login_flow_steps`. -/
def parseLoginFlowSteps (F : FloatText) (stepsJson : String) : Except StepsError (List Json) :=
  match loads F stepsJson with
  | .ok v => checkSteps v
  | .error e => .error (.python e)

/-- `_build_login_flow_patch_body`. -/
def buildLoginFlowPatchBody (steps : List Json) : Json :=
  .obj [("authenticationSequence", .obj [
    ("type", .str "USER_DEFINED"),
    ("steps", .arr steps),
    ("subjectStepId", .num (.int 1)),
    ("attributeStepId", .num (.int 1))])]

/-- `update_login_flow` behind its gate. A missing text is no `str`, which `json.loads` refuses.
What IS replied is left out of the message that quotes it. -/
def updateLoginFlowBody (F : FloatText) (orgHandle : String) (form : Form) : Handling Page := do
  let back : Page := .redirect "admin.login_flow" (some orgHandle)
  let token ← accessToken
  let appId := (form.get "app_id").getD ""
  if appId = "" then
    flash "error" "Application ID is required."
    return back
  let steps : Except StepsError (List Json) :=
    match form.get "steps_json" with
    | some stepsJson => parseLoginFlowSteps F stepsJson
    | none => .error (.python .typeError)
  match steps with
  | .error e =>
    flash "error" ("Invalid login flow structure: " ++ e.str)
    return back
  | .ok steps =>
    let patchResp ← callIs (.bearer token) (.patchApplication appId (buildLoginFlowPatchBody steps))
    if patchResp.statusCode ∈ [200, 204] then flash "success" "Login flow updated successfully."
    else flash "error" "Failed to update login flow."
    return back

/-- `update_login_flow`. -/
def updateLoginFlow (F : FloatText) (orgHandle : String) (form : Form) : Handling Page :=
  behind (IdpRoute.updateLoginFlow.gate orgHandle) (updateLoginFlowBody F orgHandle form)

/-! ## Login flows -/

/-- A value with the two keys of an option. Lists and texts have them too. -/
def HoldsOption (opt : Json) : Prop :=
  opt.contains "idp" = .ok true ∧ opt.contains "authenticator" = .ok true

/-- An object. -/
def IsObject (v : Json) : Prop := ∃ fields, v = .obj fields

/-- An object with an id and a list of options that is not empty. -/
def IsStep (IsOption : Json → Prop) (step : Json) : Prop :=
  ∃ fields options, step = .obj fields ∧ (Dict.get fields "id").isSome = true ∧
    Dict.get fields "options" = some (.arr options) ∧ options ≠ [] ∧ ∀ opt ∈ options, IsOption opt

/-- A list of steps that is not empty. -/
def IsSteps (IsOption : Json → Prop) (v : Json) : Prop :=
  ∃ steps, v = .arr steps ∧ steps ≠ [] ∧ ∀ step ∈ steps, IsStep IsOption step

/-- The fields of an object. -/
def fieldsOf : Json → Dict
  | .obj fields => fields
  | _ => []

/-- The items of a list. -/
def itemsOf : Json → List Json
  | .arr items => items
  | _ => []

/-- A number by its value, whether it is written as an `int` or not. -/
def numberValue : Json → Json
  | .num (.float q) => if q.den = 1 then .num (.int q.num) else .num (.float q)
  | v => v

/-- The ids of steps. -/
def stepIds (steps : List Json) : List Json :=
  steps.filterMap fun step => (Dict.get (fieldsOf step) "id").map numberValue

/-- The ids are distinct, and one of them is 1. -/
def Numbered (v : Json) : Prop :=
  (stepIds (itemsOf v)).Nodup ∧ .num (.int 1) ∈ stepIds (itemsOf v)

/-- What a login flow has to be. -/
def IsLoginFlow (v : Json) : Prop :=
  IsSteps (fun opt => IsObject opt ∧ HoldsOption opt) v ∧ Numbered v

/-- The options of the steps are objects. -/
def ObjectOptions (v : Json) : Prop :=
  ∀ step ∈ itemsOf v, ∀ options, Dict.get (fieldsOf step) "options" = some options →
    ∀ opt ∈ itemsOf options, IsObject opt

/-! ## What is accepted -/

section

variable {v : Json} {a b : String} {check : Json → Except StepsError Unit} {items : List Json}

/-- Both are held exactly if each is. -/
theorem holdsBoth_eq_true :
    holdsBoth v a b = .ok true ↔ v.contains a = .ok true ∧ v.contains b = .ok true := by
  unfold holdsBoth
  split
  · next h => simp [h]
  · next h => exact ⟨fun hr => absurd hr h, fun hr => absurd hr.1 h⟩

/-- A list passes exactly if each of its members does. -/
theorem checkEach_eq_ok : checkEach check items = .ok () ↔ ∀ v ∈ items, check v = .ok () := by
  induction items with
  | nil => simp [checkEach]
  | cons v items ih =>
    unfold checkEach
    split <;> simp_all

/-- An option passes exactly if it holds the two keys. -/
theorem checkOption_eq_ok : checkOption v = .ok () ↔ HoldsOption v := by
  rw [HoldsOption, ← holdsBoth_eq_true]
  unfold checkOption
  split <;> simp_all

/-- Options pass exactly if they are a list of some that do. -/
theorem checkOptions_eq_ok : checkOptions v = .ok () ↔
    ∃ options, v = .arr options ∧ options ≠ [] ∧ ∀ opt ∈ options, HoldsOption opt := by
  unfold checkOptions
  split
  · next opt options =>
    rw [checkEach_eq_ok]
    simp only [checkOption_eq_ok]
    constructor
    · exact fun h => ⟨_, rfl, List.cons_ne_nil _ _, h⟩
    · rintro ⟨_, h, -, hall⟩
      cases h
      exact hall
  · next hne =>
    refine ⟨by rintro ⟨⟩, ?_⟩
    rintro ⟨_ | ⟨opt, options⟩, rfl, hnil, -⟩
    · exact absurd rfl hnil
    · exact absurd rfl (hne opt options)

/-- Only an object gives its options. -/
theorem checkStep_eq_ok : checkStep v = .ok () ↔ IsStep HoldsOption v := by
  constructor
  · intro h
    unfold checkStep at h
    split at h
    · next hboth =>
      split at h
      · next options hoptions =>
        obtain ⟨items, rfl, hitems⟩ := checkOptions_eq_ok.1 h
        cases v with
        | obj fields =>
          refine ⟨fields, items, rfl, ?_, ?_, hitems⟩
          · exact Except.ok.inj (holdsBoth_eq_true.1 hboth).1
          · unfold Json.getItem at hoptions
            dsimp only at hoptions
            split at hoptions
            · next hget => rw [hget, Except.ok.inj hoptions]
            · cases hoptions
        | _ => cases hoptions
      · cases h
    · cases h
    · cases h
  · rintro ⟨fields, options, rfl, hid, hoptions, hne, hall⟩
    have hboth : holdsBoth (.obj fields) "id" "options" = .ok true := by
      refine holdsBoth_eq_true.2 ⟨congrArg Except.ok hid, ?_⟩
      rw [Json.contains, hoptions]
      rfl
    have hitem : (Json.obj fields).getItem "options" = .ok (.arr options) := by
      rw [Json.getItem, hoptions]
    rw [checkStep, hboth]
    dsimp only
    rw [hitem]
    exact checkOptions_eq_ok.2 ⟨options, rfl, hne, hall⟩

/-- Steps pass exactly if they are steps with such options. -/
theorem checkSteps_isOk : (∃ steps, checkSteps v = .ok steps) ↔ IsSteps HoldsOption v := by
  unfold checkSteps
  split
  · next step steps =>
    have hall : checkEach checkStep (step :: steps) = .ok () ↔
        ∀ s ∈ step :: steps, IsStep HoldsOption s := by
      rw [checkEach_eq_ok]
      simp only [checkStep_eq_ok]
    have hsteps : IsSteps HoldsOption (.arr (step :: steps)) ↔
        ∀ s ∈ step :: steps, IsStep HoldsOption s := by
      constructor
      · rintro ⟨_, h, -, hs⟩
        cases h
        exact hs
      · exact fun h => ⟨_, rfl, List.cons_ne_nil _ _, h⟩
    rw [hsteps, ← hall]
    split
    · next h => exact ⟨fun _ => h, fun _ => ⟨_, rfl⟩⟩
    · next h =>
      rw [h]
      exact ⟨by rintro ⟨_, ⟨⟩⟩, by rintro ⟨⟩⟩
  · next hne =>
    constructor
    · rintro ⟨_, ⟨⟩⟩
    · rintro ⟨_ | ⟨step, steps⟩, rfl, hnil, -⟩
      · exact absurd rfl hnil
      · exact absurd rfl (hne step steps)

/-- The steps whose options are objects. -/
theorem isSteps_object : IsSteps (fun opt => IsObject opt ∧ HoldsOption opt) v ↔
    IsSteps HoldsOption v ∧ ObjectOptions v := by
  constructor
  · rintro ⟨steps, rfl, hne, hall⟩
    refine ⟨⟨steps, rfl, hne, fun step hstep => ?_⟩, fun step hstep options hget opt hopt => ?_⟩
    · obtain ⟨fields, options, rfl, hid, hoptions, hnil, hopts⟩ := hall step hstep
      exact ⟨fields, options, rfl, hid, hoptions, hnil, fun opt hopt => (hopts opt hopt).2⟩
    · obtain ⟨fields, items, rfl, -, hoptions, -, hopts⟩ := hall step hstep
      rw [fieldsOf, hoptions] at hget
      cases hget
      exact (hopts opt hopt).1
  · rintro ⟨⟨steps, rfl, hne, hall⟩, hobjects⟩
    refine ⟨steps, rfl, hne, fun step hstep => ?_⟩
    obtain ⟨fields, options, rfl, hid, hoptions, hnil, hopts⟩ := hall step hstep
    refine ⟨fields, options, rfl, hid, hoptions, hnil, fun opt hopt => ⟨?_, hopts opt hopt⟩⟩
    exact hobjects _ hstep _ hoptions opt hopt

end

/-! ## What is sent -/

/-- No call to IS. -/
def SparesIs : PortalReq → Prop
  | .is _ _ => False
  | _ => True

/-- Steps that are refused are sent nowhere. -/
theorem updateLoginFlow_refused {F : FloatText} {text orgHandle : String} {form : Form}
    (htext : form.get "steps_json" = some text)
    (hrefused : ¬ ∃ steps, parseLoginFlowSteps F text = .ok steps) :
    (updateLoginFlow F orgHandle form).Only (fun _ => True) SparesIs := by
  refine .bind (IdpRoute.only_gate trivial (fun _ _ => trivial) _ _) fun page => ?_
  cases page with
  | some page => trivial
  | none =>
    refine .bind (only_accessToken trivial) fun token => ?_
    refine Program.only_ite (fun _ => .bind (only_flash trivial) fun _ => trivial) fun _ => ?_
    rw [htext]
    dsimp only
    cases hsteps : parseLoginFlowSteps F text with
    | ok steps => exact absurd ⟨steps, hsteps⟩ hrefused
    | error e => exact .bind (only_flash trivial) fun _ => trivial

/-- The text is JSON for a login flow. -/
def IsLoginFlowText (F : FloatText) (text : String) : Prop :=
  ∃ v, loads F text = .ok v ∧ IsLoginFlow v

/-- A text passes exactly if it is JSON for such steps. -/
theorem parseLoginFlowSteps_isOk {F : FloatText} {text : String} :
    (∃ steps, parseLoginFlowSteps F text = .ok steps) ↔
      ∃ v, loads F text = .ok v ∧ IsSteps HoldsOption v := by
  unfold parseLoginFlowSteps
  cases loads F text with
  | ok v => simp [checkSteps_isOk]
  | error e => simp

/-- Exactly the login flows are accepted, and nothing else is sent to IS, if and only if what has
the keys of a login flow is one. -/
theorem login_flow_validator_exact (F : FloatText) (text : String) :
    ((∃ steps, parseLoginFlowSteps F text = .ok steps) ↔ IsLoginFlowText F text) ∧
      (¬ IsLoginFlowText F text → ∀ orgHandle form, Form.get form "steps_json" = some text →
        (updateLoginFlow F orgHandle form).Only (fun _ => True) SparesIs) ↔
    ∀ v, loads F text = .ok v → IsSteps HoldsOption v → ObjectOptions v ∧ Numbered v := by
  have hflow {v : Json} : IsLoginFlow v ↔ IsSteps HoldsOption v ∧ ObjectOptions v ∧ Numbered v := by
    rw [IsLoginFlow, isSteps_object, and_assoc]
  rw [parseLoginFlowSteps_isOk]
  constructor
  · rintro ⟨hiff, -⟩ v hv hsteps
    obtain ⟨w, hw, hlogin⟩ := hiff.1 ⟨v, hv, hsteps⟩
    rw [hv] at hw
    cases hw
    exact (hflow.1 hlogin).2
  · intro h
    have hiff : (∃ v, loads F text = .ok v ∧ IsSteps HoldsOption v) ↔ IsLoginFlowText F text := by
      constructor
      · rintro ⟨v, hv, hsteps⟩
        exact ⟨v, hv, hflow.2 ⟨hsteps, h v hv hsteps⟩⟩
      · rintro ⟨v, hv, hlogin⟩
        exact ⟨v, hv, (hflow.1 hlogin).1⟩
    refine ⟨hiff, fun hno orgHandle form htext => ?_⟩
    exact updateLoginFlow_refused htext fun hok => hno (hiff.1 (parseLoginFlowSteps_isOk.1 hok))

/-- A single step, with the id 2. -/
def loneStep : Json :=
  .arr [.obj [("id", .num (.int 2)), ("options", .arr [
    .obj [("idp", .str "LOCAL"), ("authenticator", .str "BasicAuthenticator")]])]]

/-- No step has the id 1, and the steps are accepted. -/
theorem unnumbered_step_accepted : ¬ ∀ (F : FloatText) (text : String),
    ((∃ steps, parseLoginFlowSteps F text = .ok steps) ↔ IsLoginFlowText F text) ∧
      (¬ IsLoginFlowText F text → ∀ orgHandle form, Form.get form "steps_json" = some text →
        (updateLoginFlow F orgHandle form).Only (fun _ => True) SparesIs) := by
  intro h
  have F : FloatText := ⟨fun _ => ⟨false, 0, [], none⟩, fun _ => .nan⟩
  have hvalue : loneStep.IsValue F := by
    simp [loneStep, Json.IsValue, AreValues, FieldsAreValues]
  have hloads := loads_dumps hvalue
  have hsteps : IsSteps HoldsOption loneStep := checkSteps_isOk.1 ⟨_, rfl⟩
  obtain ⟨v, hv, -, -, hone⟩ := (h F (dumps F loneStep)).1.1
    (parseLoginFlowSteps_isOk.2 ⟨_, hloads, hsteps⟩)
  rw [hloads] at hv
  cases hv
  exact absurd hone (by decide)

end Teamspace.Webapp
