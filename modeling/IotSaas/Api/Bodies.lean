import IotSaas.Api.Schemas

/-!
# `Api/Bodies.lean` — bodies with fields left out

`RuleBody` gives every field. A client need not: a field can be absent, it can be `null`, or it can
have a value, and pydantic tells the three apart by what the field is declared as. Here are the
bodies of the three routes with every field as it was sent, and the requests they are read as. What
a policy or a leaf leaves out is its default; their bodies have it filled in.
-/

set_option autoImplicit false

namespace IotSaas.Api

open Lib Rules

/-- A field of a body. -/
inductive Sent (α : Type) where
  | absent
  | null
  | value (a : α)

namespace Sent

variable {α β : Type}

/-- A field with no default. -/
def required (field : Sent α) (validate : α → Option β) : Option β :=
  match field with
  | .absent | .null => none
  | .value a => validate a

/-- A field with a default, which does not take `null`. -/
def orDefault (field : Sent α) (default : β) (validate : α → Option β) : Option β :=
  match field with
  | .absent => some default
  | .null => none
  | .value a => validate a

/-- `… | None = None`. -/
def nullable (field : Sent α) (validate : α → Option β) : Option (Option β) :=
  match field with
  | .absent | .null => some none
  | .value a => (validate a).map some

variable {validate : α → Option β}

theorem required_eq_some {field : Sent α} {b : β} (h : field.required validate = some b) :
    ∃ a, field = .value a ∧ validate a = some b := by
  cases field with
  | absent => cases h
  | null => cases h
  | value a => exact ⟨a, rfl, h⟩

theorem orDefault_eq_some {field : Sent α} {default : β} {b : β}
    (h : field.orDefault default validate = some b) :
    b = default ∨ ∃ a, field = .value a ∧ validate a = some b := by
  cases field with
  | absent =>
    cases h
    exact .inl rfl
  | null => cases h
  | value a => exact .inr ⟨a, rfl, h⟩

theorem nullable_eq_some {field : Sent α} {b : β} (h : field.nullable validate = some (some b)) :
    ∃ a, field = .value a ∧ validate a = some b := by
  cases field with
  | absent => cases h
  | null => cases h
  | value a =>
    obtain ⟨b', hb', heq⟩ := Option.map_eq_some_iff.mp h
    cases heq
    exact ⟨a, rfl, hb'⟩

end Sent

/-- A text within bounds. -/
def textIn (low high : Nat) (s : String) : Option String :=
  if lengthIn low high s then some s else none

variable {F : Type}

/-- The body of `POST /rules`. -/
structure CreateBody (F : Type) where
  name : Sent String := .absent
  description : Sent String := .absent
  trigger : Sent TriggerBody := .absent
  condition : Sent (NodeBody F) := .absent
  executionPolicy : Sent (PolicyBody F) := .absent
  actions : Sent (List (ActionBody F)) := .absent
  clearActions : Sent (List (ActionBody F)) := .absent
  enabled : Sent Bool := .absent

/-- The body of `POST /devices/{device_id}/rules`. -/
structure DeviceCreateBody (F : Type) where
  name : Sent String := .absent
  condition : Sent (NodeBody F) := .absent
  forDuration : Sent F := .absent
  cooldown : Sent F := .absent
  action : Sent (ActionBody F) := .absent
  actions : Sent (List (ActionBody F)) := .absent
  enabled : Sent Bool := .absent

/-- The body of `PATCH /rules/{rule_id}`. -/
structure PatchBody (F : Type) where
  name : Sent String := .absent
  description : Sent String := .absent
  trigger : Sent TriggerBody := .absent
  condition : Sent (NodeBody F) := .absent
  executionPolicy : Sent (PolicyBody F) := .absent
  actions : Sent (List (ActionBody F)) := .absent
  clearActions : Sent (List (ActionBody F)) := .absent
  enabled : Sent Bool := .absent
  forDuration : Sent F := .absent
  cooldown : Sent F := .absent
  action : Sent (ActionBody F) := .absent

section

variable (py : Pydantic F) [JsonNumber F]

/-- A list of actions with `min_length=1`. -/
def someActions (actions : List (ActionBody F)) : Option (List (Action F)) :=
  if actions.isEmpty then none else validateActions py actions

/-- `_condition_required_for_metric_trigger`. -/
def conditionRequired (request : RuleCreateRequest F) : Option (RuleCreateRequest F) :=
  if request.condition.isNone = true ∧ request.trigger = .metric then none else some request

/-- `RuleCreateRequest`. -/
def CreateBody.validate (body : CreateBody F) : Option (RuleCreateRequest F) := do
  let name ← body.name.required (textIn 1 200)
  let description ← body.description.nullable (textIn 0 2000)
  let trigger ← body.trigger.orDefault .metric (TriggerBody.validate py)
  let condition ← body.condition.nullable (NodeBody.validate py)
  let executionPolicy ← body.executionPolicy.orDefault {} (PolicyBody.validate py)
  let actions ← body.actions.required (someActions py)
  let clearActions ← body.clearActions.orDefault [] (validateActions py)
  let enabled ← body.enabled.orDefault true some
  conditionRequired
    { name := name
      description := description
      trigger := trigger
      condition := condition
      executionPolicy := executionPolicy
      actions := actions
      clearActions := clearActions
      enabled := enabled }

/-- `DeviceRuleCreateRequest`. -/
def DeviceCreateBody.validate (body : DeviceCreateBody F) :
    Option (DeviceRuleCreateRequest F) := do
  let name ← body.name.nullable (textIn 0 200)
  let condition ← body.condition.required (NodeBody.validate py)
  let forDuration ← body.forDuration.orDefault 0 (wholeSeconds py)
  let cooldown ← body.cooldown.orDefault 0 (wholeSeconds py)
  let action ← body.action.nullable (ActionBody.validate py)
  let actions ← body.actions.nullable (someActions py)
  let enabled ← body.enabled.orDefault true some
  return {
    name := name
    condition := condition
    forDuration := forDuration
    cooldown := cooldown
    action := action
    actions := actions
    enabled := enabled }

/-- `RuleUpdateRequest`. -/
def PatchBody.validate (body : PatchBody F) : Option (RuleUpdateRequest F) := do
  let name ← body.name.nullable (textIn 1 200)
  let description ← body.description.nullable (textIn 0 2000)
  let trigger ← body.trigger.nullable (TriggerBody.validate py)
  let condition ← body.condition.nullable (NodeBody.validate py)
  let executionPolicy ← body.executionPolicy.nullable (PolicyBody.validate py)
  let actions ← body.actions.nullable (someActions py)
  let clearActions ← body.clearActions.nullable (validateActions py)
  let enabled ← body.enabled.nullable some
  let forDuration ← body.forDuration.nullable (wholeSeconds py)
  let cooldown ← body.cooldown.nullable (wholeSeconds py)
  let action ← body.action.nullable (ActionBody.validate py)
  return {
    name := name
    description := description
    trigger := trigger
    condition := condition
    executionPolicy := executionPolicy
    actions := actions
    clearActions := clearActions
    enabled := enabled
    forDuration := forDuration
    cooldown := cooldown
    action := action }

end

/-! ## What an accepted body guarantees -/

section

variable {py : Pydantic F}

/-- The device of a trigger has come through `uuid.UUID`. -/
def TriggerNamed (py : Pydantic F) (trigger : Trigger) : Prop :=
  ∀ deviceId transition, trigger = .deviceStatus deviceId transition →
    ∃ text, py.parseUuid text = some deviceId

theorem TriggerNamed.of_validate {body : TriggerBody} {trigger : Trigger}
    (h : body.validate py = some trigger) : TriggerNamed py trigger := by
  intro deviceId transition heq
  subst heq
  cases body with
  | metric => cases h
  | manual => cases h
  | schedule cron timezone =>
    simp only [TriggerBody.validate] at h
    split at h <;> cases h
  | deviceStatus text transition' =>
    obtain ⟨id, hid, heq⟩ := Option.map_eq_some_iff.mp h
    cases heq
    exact ⟨text, hid⟩

theorem conditionRequired_eq_some {request request' : RuleCreateRequest F}
    (h : conditionRequired request = some request') :
    request' = request ∧ (request.trigger = .metric → request.condition.isSome) := by
  obtain ⟨hpresent, h⟩ := Option.ite_none_left_eq_some.mp h
  cases h
  refine ⟨rfl, fun hmetric => ?_⟩
  rw [Option.isSome_iff_ne_none]
  intro hnone
  exact hpresent ⟨by rw [hnone]; rfl, hmetric⟩

variable [JsonNumber F]

theorem validateActions_length {actions : List (ActionBody F)} {validated : List (Action F)}
    (h : validateActions py actions = some validated) : validated.length = actions.length := by
  induction actions generalizing validated with
  | nil =>
    cases h
    rfl
  | cons action rest ih =>
    unfold validateActions at h
    split at h
    · rename_i hrest
      cases h
      simp [ih hrest]
    · cases h

theorem someActions_ne_nil {actions : List (ActionBody F)} {validated : List (Action F)}
    (h : someActions py actions = some validated) : validated ≠ [] := by
  obtain ⟨hsome, h⟩ := Option.ite_none_left_eq_some.mp h
  intro hnil
  have hlength := validateActions_length h
  rw [hnil] at hlength
  exact hsome (List.isEmpty_iff_length_eq_zero.mpr hlength.symm)

/-- What pydantic guarantees of a `RuleCreateRequest`. -/
structure RuleCreateRequest.Validated (py : Pydantic F) (request : RuleCreateRequest F) :
    Prop where
  trigger : TriggerNamed py request.trigger
  condition : request.trigger = .metric → request.condition.isSome
  actions : request.actions ≠ []

/-- And of a `RuleUpdateRequest`. -/
structure RuleUpdateRequest.Validated (py : Pydantic F) (request : RuleUpdateRequest F) :
    Prop where
  trigger : ∀ trigger, request.trigger = some trigger → TriggerNamed py trigger
  actions : ∀ actions, request.actions = some actions → actions ≠ []

theorem CreateBody.validated {body : CreateBody F} {request : RuleCreateRequest F}
    (h : body.validate py = some request) : request.Validated py := by
  unfold CreateBody.validate at h
  simp only [Option.bind_eq_bind, Option.bind_eq_some_iff] at h
  obtain ⟨name, -, description, -, trigger, htrigger, condition, -, policy, -, actions, hactions,
    clearActions, -, enabled, -, h⟩ := h
  obtain ⟨rfl, hcondition⟩ := conditionRequired_eq_some h
  refine ⟨?_, hcondition, ?_⟩
  · cases Sent.orDefault_eq_some htrigger with
    | inl hmetric =>
      cases hmetric
      exact nofun
    | inr hsent =>
      obtain ⟨sent, -, hvalid⟩ := hsent
      exact .of_validate hvalid
  · obtain ⟨sent, -, hvalid⟩ := Sent.required_eq_some hactions
    exact someActions_ne_nil hvalid

theorem PatchBody.validated {body : PatchBody F} {request : RuleUpdateRequest F}
    (h : body.validate py = some request) : request.Validated py := by
  unfold PatchBody.validate at h
  simp only [Option.bind_eq_bind, Option.bind_eq_some_iff] at h
  obtain ⟨name, -, description, -, trigger, htrigger, condition, -, policy, -, actions, hactions,
    clearActions, -, enabled, -, forDuration, -, cooldown, -, action, -, h⟩ := h
  cases h
  refine ⟨?_, ?_⟩
  · intro trigger' heq
    cases heq
    obtain ⟨sent, -, hvalid⟩ := Sent.nullable_eq_some htrigger
    exact .of_validate hvalid
  · intro actions' heq
    cases heq
    obtain ⟨sent, -, hvalid⟩ := Sent.nullable_eq_some hactions
    exact someActions_ne_nil hvalid

end

end IotSaas.Api
