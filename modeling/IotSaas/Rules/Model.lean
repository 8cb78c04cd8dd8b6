import IotSaas.Lib.Dict
import IotSaas.Lib.Json

/-!
# `Rules/Model.lean` — what a rule is, and what the worker remembers about one

The data of `rules/models.py`, `rules/schemas.py` and the dataclasses of `rules/evaluators.py`,
after validation. Two places where the Lean type says more than the JSON does:

* **A leaf's operator carries its right-hand side.** `schemas.py` checks in
  `_check_rhs_matches_operator` that a range operator has a range, a set operator a set, a change
  operator nothing, and one of the six scalar comparisons a static or a metric side. `LeafTest`
  has one constructor per family, so the unmatched combinations cannot be written down.
* **Policy fields are present.** The evaluator reads `policy.get("cooldown", 0)` and the like;
  a missing key *is* its default, so the record simply has the default.

Readings are `float`s. The evaluator only ever compares, adds and subtracts them, so a number type
here is whatever has those five operations (`PyFloat`) — no law is assumed, and a NaN is as welcome
as a zero. The few theorems that need laws are about the numbers of `Lib/Ieee.lean`.

Time is a whole number of microseconds, which is what a `datetime` is. `total_seconds()` of a
difference is compared with whole seconds only (`elapsed`, `seconds`); the comparison is exact
for spans below 2³³ seconds, where a `float` still resolves the microsecond.
-/

set_option autoImplicit false

namespace IotSaas.Rules

open Lib

/-- The operations the evaluator applies to readings. -/
class PyFloat (F : Type) where
  lt : F → F → Bool
  le : F → F → Bool
  eq : F → F → Bool
  add : F → F → F
  sub : F → F → F

instance : PyFloat Int where
  lt a b := decide (a < b)
  le a b := decide (a ≤ b)
  eq a b := decide (a = b)
  add a b := a + b
  sub a b := a - b

/-- A UUID in its canonical text form, as `str()` prints it and JSON stores it. -/
abbrev Uuid := String

/-- Microseconds since the epoch, UTC. -/
abbrev Datetime := Int

/-- `(a - b).total_seconds()`, in microseconds. -/
def elapsed (a b : Datetime) : Int := a - b

/-- A whole number of seconds on the same scale. -/
def seconds (n : Int) : Int := n * 1000000

/-! ## Signals -/

structure SignalKey where
  deviceId : Uuid
  metric : String
  deriving DecidableEq

/-- One cached reading. `previousValue` is the reading before it, for the change operators. -/
structure MetricValue (F : Type) where
  value : F
  timestamp : Datetime
  maxAgeSeconds : Int := 90
  previousValue : Option F := none
  previousTimestamp : Option Datetime := none

abbrev MetricSnapshot (F : Type) := Dict SignalKey (MetricValue F)

inductive SignalState where
  | fresh | stale | missing
  deriving DecidableEq

/-! ## Conditions -/

/-- `_COMPARATORS`. -/
inductive Comparator where
  | gt | ge | lt | le | eq | ne
  deriving DecidableEq

/-- `RANGE_OPERATORS`. -/
inductive RangeOperator where
  | between | notBetween
  deriving DecidableEq

/-- `SET_OPERATORS`. -/
inductive SetOperator where
  | isIn | notIn
  deriving DecidableEq

/-- `CHANGE_OPERATORS`. -/
inductive ChangeOperator where
  | changed | increased | decreased
  deriving DecidableEq

/-- The right-hand side of a scalar comparison: a number, or another signal's live value. -/
inductive ScalarRhs (F : Type) where
  | static (value : F)
  | metric (deviceId : Uuid) (metric : String)

/-- What a leaf asks of its signal. -/
inductive LeafTest (F : Type) where
  | compare (operator : Comparator) (rhs : ScalarRhs F) (hysteresis : F)
  | range (operator : RangeOperator) (low high : F)
  | set (operator : SetOperator) (values : List F)
  | change (operator : ChangeOperator)

structure ConditionLeaf (F : Type) where
  deviceId : Uuid
  metric : String
  test : LeafTest F

inductive GroupOp where
  | and | or
  deriving DecidableEq

/-- `ConditionNode`: a leaf, or a group of nodes. -/
inductive Node (F : Type) where
  | leaf (leaf : ConditionLeaf F)
  | group (op : GroupOp) (predicates : List (Node F))

/-! ## Rules -/

inductive Transition where
  | connected | disconnected
  deriving DecidableEq

inductive Trigger where
  | metric
  | schedule (cron : String) (timezone : String)
  | manual
  | deviceStatus (deviceId : Uuid) (transition : Transition)
  deriving DecidableEq

inductive RuleStrategy where
  | edge | continuous | resetCondition | latch
  deriving DecidableEq

structure ExecutionPolicy (F : Type) where
  strategy : RuleStrategy := .edge
  forDuration : Nat := 0
  cooldown : Nat := 0
  resetCondition : Option (Node F) := none
  clearForDuration : Nat := 0

/-- An actuator's value: `bool | float | str`. -/
inductive CommandValue (F : Type) where
  | bool (b : Bool)
  | float (f : F)
  | str (s : String)
  deriving DecidableEq

inductive NotificationChannel where
  | platform | email
  deriving DecidableEq

structure RetryConfig (F : Type) where
  maxAttempts : Nat := 4
  timeoutS : F

structure WebhookConfig (F : Type) where
  url : String
  body : List (String × Json F) := []
  retry : Option (RetryConfig F) := none
  timeoutS : Option F := none

/-- One entry of `actions` or `clear_actions`. A command without a device goes to the device the
run was triggered by. -/
inductive Action (F : Type) where
  | actuatorCommand (deviceId : Option Uuid) (actuator : String) (value : CommandValue F)
  | notification (message : String) (channels : List NotificationChannel)
  | webhook (config : WebhookConfig F)
  | email (recipients : List String) (subject body : String)

structure Rule (F : Type) where
  id : Uuid
  tenantId : Uuid
  trigger : Trigger := .metric
  condition : Option (Node F)
  executionPolicy : ExecutionPolicy F := {}
  actions : List (Action F) := []
  clearActions : List (Action F) := []

/-! ## Rule state -/

/-- The indices from the root of a tree down to one of its nodes. -/
abbrev Path := List Nat

structure LeafState where
  latchedTrue : Bool := false
  deriving DecidableEq

abbrev LeafStates := Dict Path LeafState

structure RuleState where
  conditionSince : Option Datetime := none
  armed : Bool := true
  lastFiredAt : Option Datetime := none
  leafStates : LeafStates := .empty
  resetLeafStates : LeafStates := .empty
  conditionFingerprint : Option String := none
  active : Bool := false
  clearSince : Option Datetime := none

inductive Edge where
  | fire | clear
  deriving DecidableEq

structure Firing where
  ruleId : Uuid
  edge : Edge := .fire
  deriving DecidableEq

end IotSaas.Rules
