import IotSaas.Api.Service

/-!
# `Api/Accepted.lean` — when a body is accepted

The validators of `Api/Schemas.lean`, read as conditions: one lemma for each that says when it
answers, and for the two routes also with what. Nothing later unfolds a validator that has its lemma
here.
-/

set_option autoImplicit false

namespace IotSaas.Api

open Lib Rules

variable {F : Type} [JsonNumber F] {py : Pydantic F}

/-! ## Conditions -/

/-- **A leaf that is accepted**, and what it becomes. -/
theorem LeafBody.validate_eq_some {body : LeafBody F} {leaf : ConditionLeaf F} :
    body.validate py = some leaf ↔
      (lengthIn 1 100 body.metric = true ∧
        PyFloat.le (JsonNumber.ofNat 0) body.hysteresis = true ∧
        (PyFloat.lt (JsonNumber.ofNat 0) body.hysteresis = true →
          body.operator.hasHysteresis = true)) ∧
      optionalUuid py body.deviceId = some leaf.deviceId ∧ leaf.metric = body.metric ∧
      body.test py = some leaf.test := by
  have hcheck : (lengthIn 1 100 body.metric && PyFloat.le (JsonNumber.ofNat 0) body.hysteresis &&
      (!PyFloat.lt (JsonNumber.ofNat 0) body.hysteresis || body.operator.hasHysteresis)) = true ↔
      lengthIn 1 100 body.metric = true ∧
        PyFloat.le (JsonNumber.ofNat 0) body.hysteresis = true ∧
        (PyFloat.lt (JsonNumber.ofNat 0) body.hysteresis = true →
          body.operator.hasHysteresis = true) := by
    rw [Bool.and_eq_true, Bool.and_eq_true, and_assoc]
    cases PyFloat.lt (JsonNumber.ofNat 0) body.hysteresis <;> simp
  unfold LeafBody.validate
  rw [← hcheck]
  split
  · rename_i haccepted
    constructor
    · intro h
      obtain ⟨deviceId, hdevice, h⟩ := Option.bind_eq_some_iff.mp h
      obtain ⟨test, htest, rfl⟩ := Option.map_eq_some_iff.mp h
      exact ⟨haccepted, hdevice, rfl, htest⟩
    · rintro ⟨-, hdevice, hmetric, htest⟩
      rw [hdevice, htest, ← hmetric]
      rfl
  · rename_i hrefused
    constructor
    · intro h
      cases h
    · rintro ⟨haccepted, -⟩
      exact absurd haccepted hrefused

theorem LeafBody.validate_isSome {leaf : LeafBody F} : (leaf.validate py).isSome ↔
    lengthIn 1 100 leaf.metric = true ∧
    PyFloat.le (JsonNumber.ofNat 0) leaf.hysteresis = true ∧
    (PyFloat.lt (JsonNumber.ofNat 0) leaf.hysteresis = true → leaf.operator.hasHysteresis = true) ∧
    (optionalUuid py leaf.deviceId).isSome ∧ (leaf.test py).isSome := by
  constructor
  · intro h
    obtain ⟨l, hl⟩ := Option.isSome_iff_exists.mp h
    obtain ⟨⟨hmetric, hzero, hmargin⟩, hdevice, -, htest⟩ := LeafBody.validate_eq_some.mp hl
    exact ⟨hmetric, hzero, hmargin, by rw [hdevice]; rfl, by rw [htest]; rfl⟩
  · rintro ⟨hmetric, hzero, hmargin, hdevice, htest⟩
    obtain ⟨deviceId, hdevice⟩ := Option.isSome_iff_exists.mp hdevice
    obtain ⟨test, htest⟩ := Option.isSome_iff_exists.mp htest
    have hleaf : leaf.validate py = some ⟨deviceId, leaf.metric, test⟩ :=
      LeafBody.validate_eq_some.mpr ⟨⟨hmetric, hzero, hmargin⟩, hdevice, rfl, htest⟩
    rw [hleaf]
    rfl

theorem NodeBody.validate_leaf_isSome {leaf : LeafBody F} :
    ((NodeBody.leaf leaf).validate py).isSome ↔ (leaf.validate py).isSome := by
  rw [NodeBody.validate, Option.isSome_map]

theorem NodeBody.validateAll_isSome {nodes : List (NodeBody F)} :
    (NodeBody.validateAll py nodes).isSome ↔ ∀ node ∈ nodes, (node.validate py).isSome := by
  induction nodes with
  | nil => simp [NodeBody.validateAll]
  | cons node rest ih =>
    rw [NodeBody.validateAll, List.forall_mem_cons, ← ih]
    cases node.validate py <;> cases NodeBody.validateAll py rest <;> simp

theorem NodeBody.validate_group_isSome {op : GroupOp} {predicates : List (NodeBody F)} :
    ((NodeBody.group op predicates).validate py).isSome ↔
      2 ≤ predicates.length ∧ ∀ node ∈ predicates, (node.validate py).isSome := by
  rw [NodeBody.validate]
  split
  · rename_i htwo
    rw [Option.isSome_map, NodeBody.validateAll_isSome]
    simp [htwo]
  · rename_i htwo
    simp [htwo]

theorem validateTree_isSome {node : Option (NodeBody F)} :
    (validateTree py node).isSome ↔ ∀ tree ∈ node, (tree.validate py).isSome := by
  cases node with
  | none => simp [validateTree]
  | some tree => simp [validateTree]

theorem validateTree_none_iff {node : Option (NodeBody F)} {condition : Option (ConditionNode F)}
    (h : validateTree py node = some condition) : condition = none ↔ node = none := by
  cases node with
  | none =>
    cases h
    simp
  | some node =>
    cases hn : node.validate py with
    | none => simp [validateTree, hn] at h
    | some n =>
      simp only [validateTree, hn, Option.map_some, Option.some.injEq] at h
      simp [← h]

/-! ## Policies and actions -/

theorem PolicyBody.validate_isSome {policy : PolicyBody F} : (policy.validate py).isSome ↔
    (wholeSeconds py policy.forDuration).isSome ∧ (wholeSeconds py policy.cooldown).isSome ∧
    (validateTree py policy.resetCondition).isSome ∧
    (wholeSeconds py policy.clearForDuration).isSome := by
  unfold PolicyBody.validate
  cases wholeSeconds py policy.forDuration <;> cases wholeSeconds py policy.cooldown <;>
    cases validateTree py policy.resetCondition <;>
    cases wholeSeconds py policy.clearForDuration <;> simp

theorem PolicyBody.validate_strategy {body : PolicyBody F} {policy : ExecutionPolicy F}
    (h : body.validate py = some policy) : policy.strategy = body.strategy := by
  unfold PolicyBody.validate at h
  split at h
  · cases h
    rfl
  · cases h

theorem validateActions_isSome {actions : List (ActionBody F)} :
    (validateActions py actions).isSome ↔ ∀ action ∈ actions, (action.validate py).isSome := by
  induction actions with
  | nil => simp [validateActions]
  | cons action rest ih =>
    rw [validateActions, List.forall_mem_cons, ← ih]
    cases action.validate py <;> cases validateActions py rest <;> simp

theorem validateActions_eq_nil {bodies : List (ActionBody F)} {actions : List (Action F)}
    (h : validateActions py bodies = some actions) : actions = [] ↔ bodies = [] := by
  cases bodies with
  | nil =>
    cases h
    simp
  | cons body rest =>
    rw [validateActions] at h
    split at h
    · cases h
      simp
    · cases h

/-! ## Rules -/

/-- **What an accepted body becomes**: every field is there but the condition, which is where the
body has one. -/
theorem RuleBody.fields_ok {body : RuleBody F} {request : RuleUpdateRequest F}
    (h : body.fields py = some request) :
    ∃ trigger condition policy actions clearActions,
      body.trigger.validate py = some trigger ∧
      validateTree py body.condition = some condition ∧
      body.executionPolicy.validate py = some policy ∧
      validateActions py body.actions = some actions ∧
      validateActions py body.clearActions = some clearActions ∧
      body.name.all (lengthIn 1 200) = true ∧ actions ≠ [] ∧
      request =
        { name := body.name
          trigger := some trigger
          condition := condition
          executionPolicy := some policy
          actions := some actions
          clearActions := some clearActions
          enabled := some body.enabled } := by
  unfold RuleBody.fields at h
  split at h
  · rename_i trigger condition policy actions clearActions ht hc hp ha hl
    split at h
    · rename_i hcheck
      cases h
      rw [Bool.and_eq_true, Bool.not_eq_true', List.isEmpty_eq_false_iff] at hcheck
      exact ⟨trigger, condition, policy, actions, clearActions, ht, hc, hp, ha, hl, hcheck.1,
        hcheck.2, rfl⟩
    · cases h
  · cases h

/-- **What a rule is created from.** -/
theorem RuleBody.toCreate_ok {body : RuleBody F} {request : RuleCreateRequest F}
    (h : body.toCreate py = some request) :
    ∃ name, body.name = some name ∧ lengthIn 1 200 name = true ∧
      body.trigger.validate py = some request.trigger ∧
      validateTree py body.condition = some request.condition ∧
      body.executionPolicy.validate py = some request.executionPolicy ∧
      validateActions py body.actions = some request.actions ∧
      validateActions py body.clearActions = some request.clearActions ∧
      request.actions ≠ [] ∧ (request.condition = none → request.trigger ≠ .metric) := by
  unfold RuleBody.toCreate at h
  split at h
  · cases h
  · rename_i fields hfields
    obtain ⟨trigger, condition, policy, actions, clearActions, ht, hc, hp, ha, hl, hname, hne,
      rfl⟩ := RuleBody.fields_ok hfields
    dsimp only at h
    split at h
    · rename_i name trigger policy actions clearActions hbody heqt heqp heqa heql
      cases heqt
      cases heqp
      cases heqa
      cases heql
      split at h
      · cases h
      · rename_i hcondition
        cases h
        refine ⟨name, hbody, by simpa [hbody] using hname, ht, hc, hp, ha, hl, hne, ?_⟩
        intro hnone hmetric
        exact hcondition ⟨by simpa using hnone, hmetric⟩
    · cases h

/-- **When a rule is created.** -/
theorem RuleBody.toCreate_isSome {body : RuleBody F} : (body.toCreate py).isSome ↔
    body.name.any (lengthIn 1 200) = true ∧ (body.trigger.validate py).isSome ∧
    (validateTree py body.condition).isSome ∧ (body.executionPolicy.validate py).isSome ∧
    (validateActions py body.actions).isSome ∧ (validateActions py body.clearActions).isSome ∧
    body.actions ≠ [] ∧ (body.condition = none → body.trigger ≠ .metric) := by
  constructor
  · intro h
    obtain ⟨request, hrequest⟩ := Option.isSome_iff_exists.mp h
    obtain ⟨name, hname, hlength, ht, hc, hp, ha, hl, hne, hcondition⟩ :=
      RuleBody.toCreate_ok hrequest
    refine ⟨by rw [hname]; exact hlength, by rw [ht]; rfl, by rw [hc]; rfl, by rw [hp]; rfl,
      by rw [ha]; rfl, by rw [hl]; rfl, mt (validateActions_eq_nil ha).mpr hne, ?_⟩
    intro hnone hmetric
    refine hcondition ((validateTree_none_iff hc).mpr hnone) ?_
    rw [hmetric] at ht
    exact (Option.some.inj ht).symm
  · rintro ⟨hname, ht, hc, hp, ha, hl, hne, hcondition⟩
    obtain ⟨name, hbody⟩ : ∃ name, body.name = some name := by
      cases hbody : body.name with
      | none => simp [hbody] at hname
      | some name => exact ⟨name, rfl⟩
    rw [hbody] at hname
    obtain ⟨trigger, ht⟩ := Option.isSome_iff_exists.mp ht
    obtain ⟨condition, hc⟩ := Option.isSome_iff_exists.mp hc
    obtain ⟨policy, hp⟩ := Option.isSome_iff_exists.mp hp
    obtain ⟨actions, ha⟩ := Option.isSome_iff_exists.mp ha
    obtain ⟨clearActions, hl⟩ := Option.isSome_iff_exists.mp hl
    have hactions : actions.isEmpty = false := by
      rw [List.isEmpty_eq_false_iff]
      exact mt (validateActions_eq_nil ha).mp hne
    have hmetric : condition = none → ¬ trigger = .metric := by
      rintro hnone rfl
      refine hcondition ((validateTree_none_iff hc).mp hnone) ?_
      -- only the metric trigger is read as one
      cases hbt : body.trigger with
      | metric => rfl
      | manual => simp [hbt, TriggerBody.validate] at ht
      | schedule cron timezone =>
        rw [hbt, TriggerBody.validate] at ht
        split at ht <;> cases ht
      | deviceStatus deviceId transition =>
        rw [hbt, TriggerBody.validate, Option.map_eq_some_iff] at ht
        obtain ⟨_, -, h⟩ := ht
        cases h
    unfold RuleBody.toCreate RuleBody.fields
    rw [ht, hc, hp, ha, hl]
    simpa [hbody, hactions, show lengthIn 1 200 name = true from hname] using hmetric

end IotSaas.Api
