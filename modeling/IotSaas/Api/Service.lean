import IotSaas.Api.Schemas
import Mathlib.Data.List.Dedup

/-!
# `Api/Service.lean` — rules in the database

The writing half of `rules/service.py`: two ways to create a rule and one to change it, with the
checks behind each, over the tables `devices`, `rules` and `rule_devices`. A write that raises
leaves the database as it was, since the transaction is rolled back; so a write either fails or
answers with the new tables and the rule.

What a rule is called when nobody said is here as well, down to the words; the versions of a rule
and the messages to the worker are not.
-/

set_option autoImplicit false

namespace IotSaas.Api

open Lib Rules

variable {F : Type}

/-! ## Tables -/

structure Device where
  id : Uuid
  tenantId : Uuid
  deriving DecidableEq

/-- A row of `rules`. -/
structure StoredRule (F : Type) where
  id : Uuid
  tenantId : Uuid
  name : String
  description : Option String
  trigger : Trigger
  condition : Option (ConditionNode F)
  executionPolicy : ExecutionPolicy F
  actions : List (Action F)
  clearActions : List (Action F)
  enabled : Bool

inductive RuleDeviceRole where
  | input | target
  deriving DecidableEq

/-- A row of `rule_devices`. -/
structure RuleDevice where
  tenantId : Uuid
  ruleId : Uuid
  deviceId : Uuid
  role : RuleDeviceRole
  deriving DecidableEq

/-- The tables, their rows in the order the database hands them out. -/
structure Db (F : Type) where
  devices : List Device := []
  rules : List (StoredRule F) := []
  ruleDevices : List RuleDevice := []

inductive RuleError where
  | notFound
  /-- `RuleValidationError`, with its text. -/
  | invalid (message : String)
  deriving DecidableEq

/-- croniter, the time zone database, and how Python prints and capitalises. -/
structure Library (F : Type) where
  isValidCron : String → Bool
  isZone : String → Bool
  repr : String → String
  showFloat : F → String
  upper : Char → String

/-! ## Names -/

def operatorWords (operator : Operator) : String :=
  match operator with
  | .comparison .gt => "goes above"
  | .comparison .ge => "reaches or exceeds"
  | .comparison .lt => "drops below"
  | .comparison .le => "falls to or below"
  | .comparison .eq => "equals"
  | .comparison .ne => "is different from"
  | .range .between => "goes between"
  | .range .notBetween => "goes outside"
  | .set .isIn => "is one of"
  | .set .notIn => "is none of"
  | .change .changed => "changes"
  | .change .increased => "increases"
  | .change .decreased => "decreases"

def testOperator (test : LeafTest F) : Operator :=
  match test with
  | .compare operator _ _ => .comparison operator
  | .range operator _ _ => .range operator
  | .set operator _ => .set operator
  | .change operator => .change operator

/-- `_rhs_clause`. -/
def rhsClause (lib : Library F) (test : LeafTest F) : String :=
  match test with
  | .change _ => ""
  | .compare _ (.static value) _ => " " ++ lib.showFloat value
  | .compare _ (.metric _ metric) _ => " " ++ metric
  | .range _ low high => " " ++ lib.showFloat low ++ " and " ++ lib.showFloat high
  | .set _ values => " " ++ ", ".intercalate (values.map lib.showFloat)

mutual

/-- `_plain_summary`. -/
def plainSummary (lib : Library F) : ConditionNode F → String
  | .leaf l => l.metric ++ " " ++ operatorWords (testOperator l.test) ++ rhsClause lib l.test
  | .group op predicates =>
      (match op with
        | .and => " and "
        | .or => " or ").intercalate (plainSummaries lib predicates)

def plainSummaries (lib : Library F) : List (ConditionNode F) → List String
  | [] => []
  | node :: rest => plainSummary lib node :: plainSummaries lib rest

end

/-- `_auto_name`. -/
def autoName (lib : Library F) (condition : Option (ConditionNode F)) (trigger : Trigger) :
    String :=
  match condition with
  | none =>
      match trigger with
      | .schedule _ _ => "Scheduled rule"
      | .manual => "Manual rule"
      | .deviceStatus _ _ => "Device status rule"
      | .metric => "Rule"
  | some node =>
      let summary :=
        match (plainSummary lib node).toList with
        | [] => "Rule"
        | first :: rest => lib.upper first ++ String.ofList rest
      String.ofList (summary.toList.take 200)

/-! ## Conditions and the devices in them -/

mutual

/-- `_stamp_condition_device`. -/
def stampConditionDevice (deviceId : Uuid) : ConditionNode F → ConditionNode F
  | .leaf l => .leaf { l with deviceId := some (l.deviceId.getD deviceId) }
  | .group op predicates => .group op (stampAll deviceId predicates)

def stampAll (deviceId : Uuid) : List (ConditionNode F) → List (ConditionNode F)
  | [] => []
  | node :: rest => stampConditionDevice deviceId node :: stampAll deviceId rest

end

mutual

/-- `_condition_leaves`, of a tree that is there. -/
def nodeLeaves : ConditionNode F → List (ConditionLeaf F)
  | .leaf l => [l]
  | .group _ predicates => nodesLeaves predicates

def nodesLeaves : List (ConditionNode F) → List (ConditionLeaf F)
  | [] => []
  | node :: rest => nodeLeaves node ++ nodesLeaves rest

end

/-- `_condition_leaves`. -/
def conditionLeaves (condition : Option (ConditionNode F)) : List (ConditionLeaf F) :=
  match condition with
  | none => []
  | some node => nodeLeaves node

/-- The device of a metric right-hand side. -/
def rhsDevice (leaf : ConditionLeaf F) : Option Uuid :=
  match leaf.test with
  | .compare _ (.metric deviceId _) _ => some deviceId
  | _ => none

/-- The devices a leaf reads. -/
def leafDevices (leaf : ConditionLeaf F) : List Uuid :=
  leaf.deviceId.toList ++ (rhsDevice leaf).toList

/-- The device a trigger watches. -/
def triggerDevice (trigger : Trigger) : List Uuid :=
  match trigger with
  | .deviceStatus deviceId _ => [deviceId]
  | _ => []

/-- The device an action commands by name. -/
def actionDevice (action : Action F) : Option Uuid :=
  match action with
  | .actuatorCommand deviceId _ _ => deviceId
  | _ => none

/-- `_rule_device_map`, as the pairs it holds. -/
def ruleDeviceMap (condition : Option (ConditionNode F)) (actions : List (Action F))
    (trigger : Trigger) (clearActions : List (Action F)) : List (Uuid × RuleDeviceRole) :=
  (((conditionLeaves condition).flatMap leafDevices ++ triggerDevice trigger).map
      fun deviceId => (deviceId, .input)) ++
    ((actions ++ clearActions).filterMap actionDevice).map fun deviceId => (deviceId, .target)

/-! ## Checks -/

/-- `_validate_devices_in_tenant`. -/
def validateDevicesInTenant (db : Db F) (tenantId : Uuid) (deviceIds : List Uuid) :
    Except RuleError Unit :=
  let missing := deviceIds.filter fun id =>
    !db.devices.any fun device => device.id = id && device.tenantId = tenantId
  if missing = [] then .ok ()
  else
    .error (.invalid ("rule references device(s) not in this tenant: " ++
      ", ".intercalate (missing.dedup.mergeSort fun a b => decide (a ≤ b))))

/-- `_assert_leaves_have_device`. -/
def assertLeavesHaveDevice (condition : Option (ConditionNode F)) : Except RuleError Unit :=
  if (conditionLeaves condition).any fun leaf => leaf.deviceId.isNone then
    .error (.invalid "every condition must name a device")
  else .ok ()

/-- `_validate_trigger`. -/
def validateTrigger (lib : Library F) (trigger : Trigger) : Except RuleError Unit :=
  match trigger with
  | .schedule cron timezone =>
      if lib.isValidCron cron then
        if lib.isZone timezone then .ok ()
        else .error (.invalid ("invalid timezone: " ++ lib.repr timezone))
      else .error (.invalid ("invalid cron expression: " ++ lib.repr cron))
  | _ => .ok ()

/-- `_validate_clear_actions`. -/
def validateClearActions (trigger : Trigger) (clearActions : List (Action F)) :
    Except RuleError Unit :=
  if clearActions.isEmpty = false ∧ trigger ≠ .metric then
    .error (.invalid "clear actions are only supported for trigger.type \"metric\"")
  else .ok ()

/-- `_validate_latch`. -/
def validateLatch (trigger : Trigger) (policy : ExecutionPolicy F)
    (clearActions : List (Action F)) : Except RuleError Unit :=
  if policy.strategy ≠ .latch then .ok ()
  else if trigger ≠ .metric then
    .error (.invalid "strategy \"latch\" is only supported for trigger.type \"metric\"")
  else if clearActions.isEmpty = false then
    .error (.invalid "strategy \"latch\" cannot have clear actions — it holds until reset")
  else .ok ()

/-! ## Writes -/

/-- The map of a stored rule. -/
def StoredRule.deviceMap (rule : StoredRule F) : List (Uuid × RuleDeviceRole) :=
  ruleDeviceMap rule.condition rule.actions rule.trigger rule.clearActions

/-- `_sync_rule_devices`: the rule's rows go, and one comes for every device and role. -/
def syncRuleDevices (tenantId ruleId : Uuid) (deviceMap : List (Uuid × RuleDeviceRole))
    (rows : List RuleDevice) : List RuleDevice :=
  (rows.filter fun row => row.ruleId ≠ ruleId) ++
    deviceMap.dedup.map fun entry => ⟨tenantId, ruleId, entry.1, entry.2⟩

/-- `_persist_rule`. -/
def persistRule (lib : Library F) (db : Db F) (rule : StoredRule F) :
    Except RuleError (Db F × StoredRule F) := do
  assertLeavesHaveDevice rule.condition
  validateTrigger lib rule.trigger
  validateClearActions rule.trigger rule.clearActions
  validateLatch rule.trigger rule.executionPolicy rule.clearActions
  validateDevicesInTenant db rule.tenantId (rule.deviceMap.map Prod.fst)
  return (
    { db with
      rules := db.rules ++ [rule]
      ruleDevices := syncRuleDevices rule.tenantId rule.id rule.deviceMap db.ruleDevices },
    rule)

/-- What `create_rule_canonical` stores. -/
def canonicalRule (tenantId ruleId : Uuid) (request : RuleCreateRequest F) : StoredRule F :=
  { id := ruleId
    tenantId := tenantId
    name := request.name
    description := request.description
    trigger := request.trigger
    condition := request.condition
    executionPolicy := request.executionPolicy
    actions := request.actions
    clearActions := request.clearActions
    enabled := request.enabled }

/-- An actuator command without a device gets the path's. -/
def stampAction (deviceId : Uuid) (action : Action F) : Action F :=
  match action with
  | .actuatorCommand named actuator value =>
      .actuatorCommand (some (named.getD deviceId)) actuator value
  | other => other

/-- What `create_device_rule` stores; `none` where there is no action. -/
def deviceRule (lib : Library F) (tenantId ruleId deviceId : Uuid)
    (request : DeviceRuleCreateRequest F) : Option (StoredRule F) :=
  let stamped := stampConditionDevice deviceId request.condition
  match request.actions.getD request.action.toList with
  | [] => none
  | actions =>
      some
        { id := ruleId
          tenantId := tenantId
          name := match request.name with
            | none | some "" => autoName lib (some stamped) .metric
            | some name => name
          description := none
          trigger := .metric
          condition := some stamped
          executionPolicy := { forDuration := request.forDuration, cooldown := request.cooldown }
          actions := actions.map (stampAction deviceId)
          clearActions := []
          enabled := request.enabled }

/-- The rule's current primary input device. -/
def fallbackDevice (db : Db F) (ruleId : Uuid) : Option Uuid :=
  (db.ruleDevices.find? fun row => row.ruleId = ruleId && row.role = .input).map (·.deviceId)

/-- The policy an update leaves. -/
def updatedPolicy (request : RuleUpdateRequest F) (policy : ExecutionPolicy F) :
    ExecutionPolicy F :=
  match request.executionPolicy with
  | some policy => policy
  | none =>
      { policy with
        forDuration := request.forDuration.getD policy.forDuration
        cooldown := request.cooldown.getD policy.cooldown }

/-- The assignments of `update_rule`. -/
def updatedRule (fallback : Option Uuid) (request : RuleUpdateRequest F) (rule : StoredRule F) :
    StoredRule F :=
  { rule with
    name := request.name.getD rule.name
    description := request.description.or rule.description
    trigger := request.trigger.getD rule.trigger
    enabled := request.enabled.getD rule.enabled
    condition :=
      match request.condition with
      | none => rule.condition
      | some condition =>
          match fallback with
          | some deviceId => some (stampConditionDevice deviceId condition)
          | none => some condition
    executionPolicy := updatedPolicy request rule.executionPolicy
    actions := (request.actions.or (request.action.map fun action => [action])).getD rule.actions
    clearActions := request.clearActions.getD rule.clearActions }

/-- A request to one of the three routes. The path of the device route names a device of the
tenant, or the route answers 404. -/
inductive Write (F : Type) where
  | createCanonical (request : RuleCreateRequest F)
  | createForDevice (deviceId : Uuid) (request : DeviceRuleCreateRequest F)
  | update (ruleId : Uuid) (request : RuleUpdateRequest F)

/-- `get_rule`. -/
def getRule (db : Db F) (tenantId ruleId : Uuid) : Option (StoredRule F) :=
  db.rules.find? fun rule => rule.tenantId = tenantId && rule.id = ruleId

/-- A trigger is checked when the request brings one. -/
def validateGivenTrigger (lib : Library F) (trigger : Option Trigger) : Except RuleError Unit :=
  match trigger with
  | none => .ok ()
  | some trigger => validateTrigger lib trigger

/-- Readings trigger nothing without a condition. -/
def requireCondition (rule : StoredRule F) : Except RuleError Unit :=
  if rule.condition.isNone = true ∧ rule.trigger = .metric then
    .error (.invalid "condition is required when trigger.type == \"metric\"")
  else .ok ()

/-- `update_rule`. -/
def updateRule (lib : Library F) (db : Db F) (tenantId ruleId : Uuid)
    (request : RuleUpdateRequest F) : Except RuleError (Db F × StoredRule F) :=
  match getRule db tenantId ruleId with
  | none => .error .notFound
  | some before => do
      validateGivenTrigger lib request.trigger
      let rule := updatedRule (fallbackDevice db ruleId) request before
      requireCondition rule
      assertLeavesHaveDevice rule.condition
      validateClearActions rule.trigger rule.clearActions
      validateLatch rule.trigger rule.executionPolicy rule.clearActions
      validateDevicesInTenant db rule.tenantId (rule.deviceMap.map Prod.fst)
      return (
        { db with
          rules := db.rules.map fun stored => if stored.id = ruleId then rule else stored
          ruleDevices := syncRuleDevices rule.tenantId rule.id rule.deviceMap db.ruleDevices },
        rule)

/-- The three ways a rule is written; `ruleId` is the identifier of a new one. -/
def write (lib : Library F) (db : Db F) (tenantId ruleId : Uuid) (request : Write F) :
    Except RuleError (Db F × StoredRule F) :=
  match request with
  | .createCanonical request => persistRule lib db (canonicalRule tenantId ruleId request)
  | .createForDevice deviceId request =>
      match deviceRule lib tenantId ruleId deviceId request with
      | none => .error (.invalid "a rule needs at least one action")
      | some rule => persistRule lib db rule
  | .update ruleId request => updateRule lib db tenantId ruleId request

end IotSaas.Api
