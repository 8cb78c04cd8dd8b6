import IotSaas.Api.Accepted
import IotSaas.Api.Closure
import IotSaas.Editor.Draft

/-!
# `Editor/Save.lean` — what a save leaves in the database

A save sends every field of the draft, and `update_rule` takes every field that is not null. The two
disagree about one: a draft whose condition was removed sends `null`, which to `update_rule` is a
condition that was not sent. Everything else arrives, the empty list of clear actions included, and
the condition arrives unchanged, since an editor's leaf always carries its device and stamping has
nothing to add.
-/

set_option autoImplicit false

namespace IotSaas.Editor

open Lib Rules Api

variable {F : Type}

/-- **The edit is stored**: the rule in the database has what the request asked for. -/
structure EditStored (db : Db F) (tenantId ruleId : Uuid) (request : RuleUpdateRequest F)
    (rule : StoredRule F) : Prop where
  found : getRule db tenantId ruleId = some rule
  trigger : request.trigger = some rule.trigger
  condition : request.condition = rule.condition
  executionPolicy : request.executionPolicy = some rule.executionPolicy
  actions : request.actions = some rule.actions
  clearActions : request.clearActions = some rule.clearActions
  enabled : request.enabled = some rule.enabled

/-! ## The row -/

theorem getRule_some {db : Db F} {tenantId ruleId : Uuid} {rule : StoredRule F}
    (h : getRule db tenantId ruleId = some rule) :
    rule ∈ db.rules ∧ rule.tenantId = tenantId ∧ rule.id = ruleId := by
  unfold getRule at h
  have hmatch := List.find?_some h
  rw [Bool.and_eq_true, decide_eq_true_eq, decide_eq_true_eq] at hmatch
  exact ⟨List.mem_of_find?_eq_some h, hmatch⟩

/-- What an update answers is what the next `get_rule` finds. -/
theorem getRule_updateRule {lib : Library F} {db db' : Db F} {tenantId ruleId : Uuid}
    {request : RuleUpdateRequest F} {rule : StoredRule F}
    (h : updateRule lib db tenantId ruleId request = .ok (db', rule)) :
    getRule db' tenantId ruleId = some rule := by
  obtain ⟨before, hbefore, hrule, hrules, -⟩ := updateRule_ok h
  obtain ⟨hmem, htenant, hid⟩ := getRule_some hbefore
  have hrule_tenant : rule.tenantId = tenantId := by rw [hrule]; exact htenant
  have hrule_id : rule.id = ruleId := by rw [hrule]; exact hid
  -- after the update a row matches where it has the identifier
  have hmatch : ((fun stored : StoredRule F => stored.tenantId = tenantId && stored.id = ruleId) ∘
      fun stored => if stored.id = ruleId then rule else stored) =
      fun stored => decide (stored.id = ruleId) := by
    funext stored
    by_cases hs : stored.id = ruleId
    · simp [hs, hrule_tenant, hrule_id]
    · simp [hs]
  unfold getRule
  rw [hrules, List.find?_map, hmatch]
  cases hfind : db.rules.find? fun stored => decide (stored.id = ruleId) with
  | none => exact absurd (List.find?_eq_none.mp hfind before hmem) (by simp [hid])
  | some stored =>
    have hstored := List.find?_some hfind
    simp only [decide_eq_true_eq] at hstored
    simp [hstored]

/-! ## The condition -/

section

variable [JsonNumber F] {js : Js F} {py : Pydantic F}

mutual

/-- Stamping a condition the editor sent. -/
theorem stamp_bodyOfNode (deviceId : Uuid) : ∀ (node : DraftNode F) {condition : ConditionNode F},
    (bodyOfNode js node).validate py = some condition →
    stampConditionDevice deviceId condition = condition
  | .contact c, condition, h => by
      rw [bodyOfNode, NodeBody.validate] at h
      obtain ⟨leaf, hleaf, rfl⟩ := Option.map_eq_some_iff.mp h
      unfold LeafBody.validate at hleaf
      split at hleaf
      · obtain ⟨device, hdevice, hleaf⟩ := Option.bind_eq_some_iff.mp hleaf
        obtain ⟨test, -, rfl⟩ := Option.map_eq_some_iff.mp hleaf
        -- the editor's leaf names its device, so there is one to parse
        obtain ⟨id, -, rfl⟩ := Option.map_eq_some_iff.mp hdevice
        rw [stampConditionDevice]
        rfl
      · cases hleaf
  | .group _ op children, condition, h => by
      rw [bodyOfNode, NodeBody.validate] at h
      split at h
      · obtain ⟨predicates, hpredicates, rfl⟩ := Option.map_eq_some_iff.mp h
        rw [stampConditionDevice, stampAll_bodiesOfNodes deviceId children hpredicates]
      · cases h

theorem stampAll_bodiesOfNodes (deviceId : Uuid) : ∀ (children : List (DraftNode F))
    {predicates : List (ConditionNode F)},
    NodeBody.validateAll py (bodiesOfNodes js children) = some predicates →
    stampAll deviceId predicates = predicates
  | [], predicates, h => by
      rw [bodiesOfNodes, NodeBody.validateAll] at h
      cases h
      rw [stampAll]
  | child :: rest, predicates, h => by
      rw [bodiesOfNodes, NodeBody.validateAll] at h
      split at h
      · rename_i node nodes hnode hnodes
        cases h
        rw [stampAll, stamp_bodyOfNode deviceId child hnode,
          stampAll_bodiesOfNodes deviceId rest hnodes]
      · cases h

end

/-! ## The request -/

/-- The condition an update from the editor stores is the one sent, if one was sent. -/
theorem updatedRule_condition {fallback : Option Uuid} {draft : RuleDraft F} {body : RuleBody F}
    {request : RuleUpdateRequest F} {before : StoredRule F}
    (hbody : draftToRequest js draft = some body) (hrequest : body.toUpdate py = some request) :
    (updatedRule fallback request before).condition = request.condition.or before.condition := by
  obtain ⟨actions, -, rfl⟩ := Option.map_eq_some_iff.mp hbody
  obtain ⟨trigger, condition, policy, as, cs, -, hcondition, -, -, -, -, -, rfl⟩ :=
    RuleBody.fields_ok hrequest
  cases condition with
  | none => rfl
  | some condition =>
    cases fallback with
    | none => rfl
    | some deviceId =>
      unfold updatedRule
      show some (stampConditionDevice deviceId condition) = some condition
      congr 1
      dsimp only at hcondition
      cases hnode : draft.condition.bind normalize with
      | none => simp [conditionFromNode, hnode, validateTree] at hcondition
      | some node =>
        simp only [conditionFromNode, hnode, Option.map_some, validateTree, Option.map_eq_some_iff,
          Option.some.injEq, exists_eq_right] at hcondition
        exact stamp_bodyOfNode deviceId node hcondition

/-- **When a save stores the edit.** For every draft, every rule it is saved over and every
database: after an update that succeeded with the draft's request, the rule found is the one the
update answered with, and it has every field as requested exactly when the draft has a condition
contact left or the rule had no condition before. -/
theorem editStored_iff (lib : Library F) (py : Pydantic F) (js : Js F) (db : Db F)
    (tenantId ruleId : Uuid) (draft : RuleDraft F) {body : RuleBody F}
    {request : RuleUpdateRequest F} {before rule : StoredRule F} {db' : Db F}
    (hbody : draftToRequest js draft = some body) (hrequest : body.toUpdate py = some request)
    (hbefore : getRule db tenantId ruleId = some before)
    (hupdate : updateRule lib db tenantId ruleId request = .ok (db', rule)) :
    EditStored db' tenantId ruleId request rule ↔
      contacts draft.condition ≠ [] ∨ before.condition = none := by
  have hfound := getRule_updateRule hupdate
  obtain ⟨old, hold, hrule, -⟩ := updateRule_ok hupdate
  rw [hbefore] at hold
  cases hold
  have hcondition : rule.condition = request.condition.or before.condition := by
    rw [hrule]
    exact updatedRule_condition hbody hrequest
  have hsent : request.condition = none ↔ contacts draft.condition = [] := by
    obtain ⟨actions, -, rfl⟩ := Option.map_eq_some_iff.mp hbody
    obtain ⟨_, condition, _, _, _, -, htree, -, -, -, -, -, rfl⟩ := RuleBody.fields_ok hrequest
    exact (validateTree_none_iff htree).trans conditionFromNode_eq_none
  constructor
  · intro hstored
    by_cases hnone : request.condition = none
    · refine .inr ?_
      have h := hstored.condition
      rw [hcondition, hnone, Option.none_or] at h
      exact h.symm
    · exact .inl fun hcontacts => hnone (hsent.mpr hcontacts)
  · intro hkept
    obtain ⟨trigger, condition, policy, actions, clearActions, -, -, -, -, -, -, -, hfields⟩ :=
      RuleBody.fields_ok hrequest
    refine ⟨hfound, ?_, ?_, ?_, ?_, ?_, ?_⟩
    · rw [hrule, hfields]; rfl
    · rw [hcondition]
      cases hc : request.condition with
      | some condition => rfl
      | none =>
        rcases hkept with hcontacts | hbare
        · exact absurd (hsent.mp hc) hcontacts
        · rw [hbare]; rfl
    · rw [hrule, hfields]; rfl
    · rw [hrule, hfields]; rfl
    · rw [hrule, hfields]; rfl
    · rw [hrule, hfields]; rfl

end

/-! ## A pump and its interlock -/

/-- Enough of JavaScript for a rule without sets and webhooks. -/
def plainJs : Js Int where
  parseNumber := fun text =>
    match text.toInt? with
    | some n => .finite n
    | none => .nan
  showNumber := fun n => toString n
  parseJson := fun text => if text = "{}" then some (.obj []) else none
  stringify := fun _ => "{}"

/-- Every morning, if the tank is not empty. -/
def morningPump : StoredRule Int :=
  { id := "rule"
    tenantId := "tenant"
    name := "Morning pump"
    description := none
    trigger := .schedule "0 8 * * *" "UTC"
    condition := some (.leaf ⟨some "ours", "tank", .compare .gt (.static 20) 0⟩)
    executionPolicy := { cooldown := 60 }
    actions := [.actuatorCommand (some "ours") "pump" (.bool true)]
    clearActions := []
    enabled := true }

def pumpDb : Db Int :=
  { twoTenants with
    rules := [morningPump]
    ruleDevices := [⟨"tenant", "rule", "ours", .input⟩, ⟨"tenant", "rule", "ours", .target⟩] }

/-- The rule in the editor, with another condition. -/
def pumpDraft (condition : Option (DraftNode Int)) : RuleDraft Int :=
  { draftFromRule plainJs morningPump with condition := condition }

/-- What its save sends. -/
def pumpRequest (condition : Option (ConditionNode Int)) : RuleUpdateRequest Int :=
  { name := some "Morning pump"
    trigger := some (.schedule "0 8 * * *" "UTC")
    condition := condition
    executionPolicy := some { cooldown := 60 }
    actions := some [.actuatorCommand (some "ours") "pump" (.bool true)]
    clearActions := some []
    enabled := some true }

/-- Another threshold. -/
def tankAbove (threshold : Int) : Api.ConditionLeaf Int :=
  ⟨some "ours", "tank", .compare .gt (.static threshold) 0⟩

/-- Raising the threshold is stored. -/
theorem editStored_iff_threshold :
    ∃ db' rule, updateRule plainLibrary pumpDb "tenant" "rule"
        (pumpRequest (some (.leaf (tankAbove 30)))) = .ok (db', rule) ∧
      EditStored db' "tenant" "rule" (pumpRequest (some (.leaf (tankAbove 30)))) rule := by
  refine ⟨_, _, rfl, ?_⟩
  exact (editStored_iff plainLibrary plainPydantic plainJs pumpDb "tenant" "rule"
    (pumpDraft (some (.contact (contactFromLeaf plainJs (tankAbove 30))))) rfl rfl rfl rfl).mpr
    (.inl (by simp [pumpDraft, contacts, nodeContacts]))

/-- **The interlock survives its removal**: the draft without the condition is valid, its save is
accepted, and the pump still waits for the tank. -/
theorem removed_condition_kept :
    validateDraft plainJs (pumpDraft none) = none ∧
    (draftToRequest plainJs (pumpDraft none)).bind (fun body => body.toUpdate plainPydantic) =
      some (pumpRequest none) ∧
    ∃ db' rule, updateRule plainLibrary pumpDb "tenant" "rule" (pumpRequest none) =
        .ok (db', rule) ∧
      rule.condition = some (.leaf (tankAbove 20)) ∧
      ¬ EditStored db' "tenant" "rule" (pumpRequest none) rule := by
  refine ⟨rfl, rfl, _, _, rfl, rfl, ?_⟩
  intro hstored
  cases hstored.condition

end IotSaas.Editor
