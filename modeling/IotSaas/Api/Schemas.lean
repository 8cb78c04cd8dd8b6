import IotSaas.Rules.Model

/-!
# `Api/Schemas.lean` — what the rule routes accept

`rules/schemas.py`, in two layers. A *body* is a request as it arrives: its identifiers are texts,
its whole seconds are JSON numbers, and an operator stands beside whatever right-hand side was
sent with it. The *requests* are what pydantic makes of a body, or refuses to: parsed identifiers,
natural seconds, a leaf whose operator carries its side. Only these reach the service.

A leaf may come without a device. The device-scoped route means the device of its path by that;
`Rules/Model.lean` has the leaves the evaluator works on, which all name one.
-/

set_option autoImplicit false

namespace IotSaas.Api

open Lib Rules

/-- Numbers as a bound of a field is compared with them. -/
class JsonNumber (F : Type) extends PyFloat F where
  ofNat : Nat → F

instance : JsonNumber Int where
  ofNat n := n

instance : JsonNumber Rat where
  lt a b := decide (a < b)
  le a b := decide (a ≤ b)
  eq a b := decide (a = b)
  add a b := a + b
  sub a b := a - b
  ofNat n := n

/-- What pydantic reads a text or a number as: `uuid.UUID`, and `int`, which takes a number with no
fractional part. -/
structure Pydantic (F : Type) where
  parseUuid : String → Option Uuid
  asInt : F → Option Int

/-! ## Definitions -/

/-- `ConditionLeaf`, operator and side checked against each other. -/
structure ConditionLeaf (F : Type) where
  deviceId : Option Uuid
  metric : String
  test : LeafTest F

/-- `ConditionNode`. -/
inductive ConditionNode (F : Type) where
  | leaf (leaf : ConditionLeaf F)
  | group (op : GroupOp) (predicates : List (ConditionNode F))

structure ExecutionPolicy (F : Type) where
  strategy : RuleStrategy := .edge
  forDuration : Nat := 0
  cooldown : Nat := 0
  resetCondition : Option (ConditionNode F) := none
  clearForDuration : Nat := 0

/-- `POST /rules`. -/
structure RuleCreateRequest (F : Type) where
  name : String
  description : Option String := none
  trigger : Trigger := .metric
  condition : Option (ConditionNode F) := none
  executionPolicy : ExecutionPolicy F := {}
  actions : List (Action F)
  clearActions : List (Action F) := []
  enabled : Bool := true

/-- `POST /devices/{device_id}/rules`. -/
structure DeviceRuleCreateRequest (F : Type) where
  name : Option String := none
  condition : ConditionNode F
  forDuration : Nat := 0
  cooldown : Nat := 0
  action : Option (Action F) := none
  actions : Option (List (Action F)) := none
  enabled : Bool := true

/-- `PATCH /rules/{rule_id}`; what is absent stays as it is. -/
structure RuleUpdateRequest (F : Type) where
  name : Option String := none
  description : Option String := none
  trigger : Option Trigger := none
  condition : Option (ConditionNode F) := none
  executionPolicy : Option (ExecutionPolicy F) := none
  actions : Option (List (Action F)) := none
  clearActions : Option (List (Action F)) := none
  enabled : Option Bool := none
  forDuration : Option Nat := none
  cooldown : Option Nat := none
  action : Option (Action F) := none

/-! ## Bodies -/

/-- The operators of `_OPERATOR_PATTERN`. -/
inductive Operator where
  | comparison (operator : Comparator)
  | range (operator : RangeOperator)
  | set (operator : SetOperator)
  | change (operator : ChangeOperator)
  deriving DecidableEq

/-- The values of a set are `none` where the JSON has `null`. -/
inductive RhsSpec (F : Type) where
  | static (value : F)
  | range (low high : F)
  | set (values : List (Option F))
  | metric (deviceId : String) (metric : String)

structure LeafBody (F : Type) where
  deviceId : Option String
  metric : String
  operator : Operator
  rhs : Option (RhsSpec F)
  hysteresis : F

inductive NodeBody (F : Type) where
  | leaf (leaf : LeafBody F)
  | group (op : GroupOp) (predicates : List (NodeBody F))

structure PolicyBody (F : Type) where
  strategy : RuleStrategy
  forDuration : F
  cooldown : F
  resetCondition : Option (NodeBody F)
  clearForDuration : F

inductive ActionBody (F : Type) where
  | actuatorCommand (deviceId : Option String) (actuator : String) (value : CommandValue F)
  | notification (message : String) (channels : List NotificationChannel)
  | webhook (url : String) (body : Json F) (retry : Option (RetryConfig F)) (timeoutS : Option F)
  | email (recipients : List String) (subject body : String)

inductive TriggerBody where
  | metric
  | schedule (cron timezone : String)
  | manual
  | deviceStatus (deviceId : String) (transition : Transition)
  deriving DecidableEq

/-- The body of a `POST` or a `PATCH` that gives every field but the description. -/
structure RuleBody (F : Type) where
  name : Option String
  trigger : TriggerBody
  condition : Option (NodeBody F)
  executionPolicy : PolicyBody F
  actions : List (ActionBody F)
  clearActions : List (ActionBody F)
  enabled : Bool

/-! ## Validation -/

/-- `Field(min_length=low, max_length=high)`. -/
def lengthIn (low high : Nat) (s : String) : Bool :=
  decide (low ≤ s.length) && decide (s.length ≤ high)

/-- `\s` as a pydantic pattern has it: Unicode's `White_Space`. -/
def isWhiteSpace (c : Char) : Bool :=
  let n := c.toNat
  (decide (9 ≤ n) && decide (n ≤ 13)) || n = 0x20 || n = 0x85 || n = 0xA0 || n = 0x1680 ||
    (decide (0x2000 ≤ n) && decide (n ≤ 0x200A)) || n = 0x2028 || n = 0x2029 || n = 0x202F ||
    n = 0x205F || n = 0x3000

/-- `^[^@\s]+@[^@\s]+\.[^@\s]+$`: one `@`, something before it, and behind it a dot with something
on either side. -/
def emailShape (isSpace : Char → Bool) (s : String) : Bool :=
  s.toList.all (fun c => !isSpace c) &&
    match s.toList.splitOn '@' with
    | [localPart, domain] => !localPart.isEmpty && (domain.drop 1).dropLast.contains '.'
    | _ => false

/-- `EmailAddress`. -/
def isEmailAddress (s : String) : Bool := emailShape isWhiteSpace s && decide (s.length ≤ 254)

section

variable {F : Type} (py : Pydantic F)

def TriggerBody.validate (py : Pydantic F) (trigger : TriggerBody) : Option Trigger :=
  match trigger with
  | .metric => some .metric
  | .schedule cron timezone => if lengthIn 1 120 cron then some (.schedule cron timezone) else none
  | .manual => some .manual
  | .deviceStatus deviceId transition =>
      (py.parseUuid deviceId).map fun deviceId => .deviceStatus deviceId transition

/-- An `int` with `ge=0`. -/
def wholeSeconds (n : F) : Option Nat :=
  match py.asInt n with
  | none => none
  | some i => if 0 ≤ i then some i.toNat else none

/-- A `uuid.UUID | None`. -/
def optionalUuid (deviceId : Option String) : Option (Option Uuid) :=
  match deviceId with
  | none => some none
  | some text => (py.parseUuid text).map some

variable [JsonNumber F]

/-- Between two whole numbers, both included. -/
def numberIn (low high : Nat) (x : F) : Bool :=
  PyFloat.le (JsonNumber.ofNat low) x && PyFloat.le x (JsonNumber.ofNat high)

/-- Only these latch with a margin. -/
def Operator.hasHysteresis (operator : Operator) : Bool :=
  match operator with
  | .comparison .gt | .comparison .ge | .comparison .lt | .comparison .le => true
  | _ => false

/-- `_check_rhs_matches_operator`, with the bounds of the side itself. -/
def LeafBody.test (leaf : LeafBody F) : Option (LeafTest F) :=
  match leaf.operator, leaf.rhs with
  | .change operator, none => some (.change operator)
  | .range operator, some (.range low high) => some (.range operator low high)
  | .set operator, some (.set values) =>
      if !values.isEmpty && values.all Option.isSome then
        some (.set operator (values.filterMap id))
      else none
  | .comparison operator, some (.static value) =>
      some (.compare operator (.static value) leaf.hysteresis)
  | .comparison operator, some (.metric deviceId metric) =>
      if lengthIn 1 100 metric then
        (py.parseUuid deviceId).map fun deviceId =>
          .compare operator (.metric deviceId metric) leaf.hysteresis
      else none
  | _, _ => none

def LeafBody.validate (leaf : LeafBody F) : Option (ConditionLeaf F) :=
  if lengthIn 1 100 leaf.metric && PyFloat.le (JsonNumber.ofNat 0) leaf.hysteresis &&
      (!PyFloat.lt (JsonNumber.ofNat 0) leaf.hysteresis || leaf.operator.hasHysteresis) then
    (optionalUuid py leaf.deviceId).bind fun deviceId =>
      (leaf.test py).map fun test => ⟨deviceId, leaf.metric, test⟩
  else none

mutual

/-- A group has at least two predicates. -/
def NodeBody.validate : NodeBody F → Option (ConditionNode F)
  | .leaf l => (LeafBody.validate py l).map .leaf
  | .group op predicates =>
      if 2 ≤ predicates.length then (NodeBody.validateAll predicates).map (.group op) else none

def NodeBody.validateAll : List (NodeBody F) → Option (List (ConditionNode F))
  | [] => some []
  | node :: rest =>
      match NodeBody.validate node, NodeBody.validateAll rest with
      | some node, some rest => some (node :: rest)
      | _, _ => none

end

/-- A tree that may be absent. -/
def validateTree (node : Option (NodeBody F)) : Option (Option (ConditionNode F)) :=
  match node with
  | none => some none
  | some node => (node.validate py).map some

def PolicyBody.validate (policy : PolicyBody F) : Option (ExecutionPolicy F) :=
  match wholeSeconds py policy.forDuration, wholeSeconds py policy.cooldown,
      validateTree py policy.resetCondition, wholeSeconds py policy.clearForDuration with
  | some forDuration, some cooldown, some resetCondition, some clearForDuration =>
      some ⟨policy.strategy, forDuration, cooldown, resetCondition, clearForDuration⟩
  | _, _, _, _ => none

/-- `RetryConfig`. -/
def retryAccepted (retry : RetryConfig F) : Bool :=
  decide (2 ≤ retry.maxAttempts) && decide (retry.maxAttempts ≤ 6) && numberIn 1 30 retry.timeoutS

def ActionBody.validate (action : ActionBody F) : Option (Action F) :=
  match action with
  | .actuatorCommand deviceId actuator value =>
      if lengthIn 1 100 actuator then
        (optionalUuid py deviceId).map fun deviceId => .actuatorCommand deviceId actuator value
      else none
  | .notification message channels =>
      if lengthIn 1 1000 message && !channels.isEmpty then some (.notification message channels)
      else none
  | .webhook url body retry timeoutS =>
      match body with
      | .obj members =>
          if lengthIn 1 2000 url && retry.all retryAccepted && timeoutS.all (numberIn 1 30) then
            some (.webhook ⟨url, members, retry, timeoutS⟩)
          else none
      | _ => none
  | .email recipients subject body =>
      if decide (recipients.length ≤ 20) && recipients.all isEmailAddress &&
          lengthIn 1 200 subject && lengthIn 1 5000 body then
        some (.email recipients subject body)
      else none

def validateActions : List (ActionBody F) → Option (List (Action F))
  | [] => some []
  | action :: rest =>
      match action.validate py, validateActions rest with
      | some action, some rest => some (action :: rest)
      | _, _ => none

/-- What both routes check of a body. -/
def RuleBody.fields (body : RuleBody F) : Option (RuleUpdateRequest F) :=
  match body.trigger.validate py, validateTree py body.condition,
      body.executionPolicy.validate py, validateActions py body.actions,
      validateActions py body.clearActions with
  | some trigger, some condition, some policy, some actions, some clearActions =>
      if body.name.all (lengthIn 1 200) && !actions.isEmpty then
        some
          { name := body.name
            trigger := some trigger
            condition := condition
            executionPolicy := some policy
            actions := some actions
            clearActions := some clearActions
            enabled := some body.enabled }
      else none
  | _, _, _, _, _ => none

/-- `RuleUpdateRequest`. -/
def RuleBody.toUpdate (body : RuleBody F) : Option (RuleUpdateRequest F) := body.fields py

/-- `RuleCreateRequest`: a name, and a condition where readings trigger the rule. -/
def RuleBody.toCreate (body : RuleBody F) : Option (RuleCreateRequest F) :=
  match body.fields py with
  | none => none
  | some fields =>
      match body.name, fields.trigger, fields.executionPolicy, fields.actions,
          fields.clearActions with
      | some name, some trigger, some policy, some actions, some clearActions =>
          if fields.condition.isNone = true ∧ trigger = .metric then none
          else
            some
              { name := name
                trigger := trigger
                condition := fields.condition
                executionPolicy := policy
                actions := actions
                clearActions := clearActions
                enabled := body.enabled }
      | _, _, _, _, _ => none

end

end IotSaas.Api
