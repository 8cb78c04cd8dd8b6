import IotSaas.Lib.Kleene
import IotSaas.Rules.Model

/-!
# `Rules/Evaluators.lean` — `rules/evaluators.py`, function by function

The threshold evaluator. The Python mutates the `RuleState` it is given; here every function that
does so returns the state it leaves. Nothing is simplified: the order of the steps of `evaluate`
— tree, re-arm, hold, armed, cooldown, fire — is the order below, and each `if` is one of its.

Tree evaluation is three-valued. A leaf whose signal is stale or missing answers `none` and keeps
its latch, and the group combination is `Lib.combine`.
-/

set_option autoImplicit false

namespace IotSaas.Rules

open Lib

variable {F : Type} [PyFloat F]

/-! ## Leaves -/

def compare (value : F) (operator : Comparator) (threshold : F) : Bool :=
  match operator with
  | .gt => PyFloat.lt threshold value
  | .ge => PyFloat.le threshold value
  | .lt => PyFloat.lt value threshold
  | .le => PyFloat.le value threshold
  | .eq => PyFloat.eq value threshold
  | .ne => !PyFloat.eq value threshold

def compareRange (operator : RangeOperator) (value low high : F) : Bool :=
  let inside := PyFloat.le low value && PyFloat.le value high
  match operator with
  | .between => inside
  | .notBetween => !inside

def compareSet (operator : SetOperator) (value : F) (values : List F) : Bool :=
  let member := values.any (PyFloat.eq value)
  match operator with
  | .isIn => member
  | .notIn => !member

/-- A signal seen only once has not changed yet. -/
def compareChange (operator : ChangeOperator) (metricValue : MetricValue F) : Bool :=
  match metricValue.previousValue with
  | none => false
  | some previous =>
      match operator with
      | .changed => !PyFloat.eq metricValue.value previous
      | .increased => PyFloat.lt previous metricValue.value
      | .decreased => PyFloat.lt metricValue.value previous

omit [PyFloat F] in
def signalState (metricValue : Option (MetricValue F)) (now : Datetime) : SignalState :=
  match metricValue with
  | none => .missing
  | some mv => if seconds mv.maxAgeSeconds < elapsed now mv.timestamp then .stale else .fresh

omit [PyFloat F] in
/-- The value of a scalar right-hand side, if it is usable now. -/
def resolveRhsScalar (rhs : ScalarRhs F) (snapshot : MetricSnapshot F) (now : Datetime) :
    Option F × SignalState :=
  match rhs with
  | .static value => (some value, .fresh)
  | .metric deviceId metric =>
      let rhsValue := snapshot.get ⟨deviceId, metric⟩
      let state := signalState rhsValue now
      match rhsValue with
      | none => (none, state)
      | some mv => if state = .fresh then (some mv.value, state) else (none, state)

def rearmConditionMet (operator : Comparator) (value threshold hysteresis : F)
    (conditionTrue : Bool) : Bool :=
  match operator with
  | .gt => PyFloat.le value (PyFloat.sub threshold hysteresis)
  | .ge => PyFloat.lt value (PyFloat.sub threshold hysteresis)
  | .lt => PyFloat.le (PyFloat.add threshold hysteresis) value
  | .le => PyFloat.lt (PyFloat.add threshold hysteresis) value
  | .eq | .ne => !conditionTrue

omit [PyFloat F] in
def leafSignal (leaf : ConditionLeaf F) : SignalKey := ⟨leaf.deviceId, leaf.metric⟩

omit [PyFloat F] in
/-- The other signal a metric-vs-metric leaf reads. -/
def rhsSignal? (leaf : ConditionLeaf F) : Option SignalKey :=
  match leaf.test with
  | .compare _ (.metric deviceId metric) _ => some ⟨deviceId, metric⟩
  | _ => none

omit [PyFloat F] in
def leafSignals (leaf : ConditionLeaf F) : List SignalKey :=
  match rhsSignal? leaf with
  | none => [leafSignal leaf]
  | some rhs => if rhs = leafSignal leaf then [rhs] else [leafSignal leaf, rhs]

/-- A single predicate's contribution. Unknown leaves the latch alone. -/
def evaluateLeaf (leaf : ConditionLeaf F) (snapshot : MetricSnapshot F) (now : Datetime)
    (leafState : LeafState) : Option Bool × LeafState :=
  match snapshot.get (leafSignal leaf) with
  | none => (none, leafState)
  | some mv =>
      if signalState (some mv) now ≠ .fresh then (none, leafState)
      else
        match leaf.test with
        -- no hysteresis in these three: the latch is the answer
        | .change operator =>
            let rawTrue := compareChange operator mv
            (some rawTrue, ⟨rawTrue⟩)
        | .range operator low high =>
            let rawTrue := compareRange operator mv.value low high
            (some rawTrue, ⟨rawTrue⟩)
        | .set operator values =>
            let rawTrue := compareSet operator mv.value values
            (some rawTrue, ⟨rawTrue⟩)
        | .compare operator rhs hysteresis =>
            match (resolveRhsScalar rhs snapshot now).1 with
            | none => (none, leafState)
            | some rhsValue =>
                let rawTrue := compare mv.value operator rhsValue
                -- once true, true until the re-arm threshold is passed
                let latched :=
                  if leafState.latchedTrue then
                    !rearmConditionMet operator mv.value rhsValue hysteresis rawTrue
                  else rawTrue
                (some latched, ⟨latched⟩)

/-! ## Trees -/

/-- `True` dominates `OR`, `False` dominates `AND`. -/
def dominant (op : GroupOp) : Bool :=
  match op with
  | .or => true
  | .and => false

mutual

/-- Kleene evaluation. Every child is evaluated, so every leaf's latch sees every reading. -/
def evaluateNode (snapshot : MetricSnapshot F) (now : Datetime) :
    Node F → LeafStates → Path → Option Bool × LeafStates
  | .leaf leaf, leafStates, path =>
      let r := evaluateLeaf leaf snapshot now (leafStates.getD path {})
      (r.1, leafStates.set path r.2)
  | .group op predicates, leafStates, path =>
      let r := evaluateNodes snapshot now predicates leafStates path 0
      (combine (dominant op) r.1, r.2)

/-- The children from index `i` on, left to right. -/
def evaluateNodes (snapshot : MetricSnapshot F) (now : Datetime) :
    List (Node F) → LeafStates → Path → Nat → List (Option Bool) × LeafStates
  | [], leafStates, _, _ => ([], leafStates)
  | child :: rest, leafStates, path, i =>
      let r := evaluateNode snapshot now child leafStates (path ++ [i])
      let rs := evaluateNodes snapshot now rest r.2 path (i + 1)
      (r.1 :: rs.1, rs.2)

end

mutual

/-- Every signal a tree reads, each once. -/
def nodeSignals : Node F → List SignalKey
  | .leaf leaf => leafSignals leaf
  | .group _ predicates => nodesSignals predicates

def nodesSignals : List (Node F) → List SignalKey
  | [] => []
  | child :: rest => nodeSignals child ∪ nodesSignals rest

end

/-- `referenced_signals`. -/
def referencedSignals (condition : Option (Node F)) : List SignalKey :=
  match condition with
  | none => []
  | some node => nodeSignals node

/-! ## Rule state -/

/-- `condition_fingerprint`: the digest of the condition tree and the reset tree. The digest
itself (SHA-1 of the sorted JSON) is a parameter. -/
def conditionFingerprint (digest : Option (Node F) → Option (Node F) → String) (rule : Rule F) :
    String :=
  digest rule.condition rule.executionPolicy.resetCondition

/-- Drop latch and hold progress built against a different condition. -/
def alignStateToCondition (state : RuleState) (fingerprint : String) : RuleState :=
  match state.conditionFingerprint with
  | some fp =>
      if fp = fingerprint then { state with conditionFingerprint := some fingerprint }
      else
        { state with
          leafStates := .empty
          resetLeafStates := .empty
          conditionSince := none
          clearSince := none
          conditionFingerprint := some fingerprint }
  | none => { state with conditionFingerprint := some fingerprint }

/-- Whether a timer is running that no new reading may arrive to complete. -/
def hasPendingTimer (rule : Rule F) (state : RuleState) : Bool :=
  let policy := rule.executionPolicy
  if state.clearSince.isSome && decide (0 < policy.clearForDuration) then true
  else
    match state.conditionSince with
    | none => false
    | some since =>
        state.armed && decide (0 < policy.forDuration) &&
          (match state.lastFiredAt with
           | none => true
           | some fired => decide (fired < since))

/-- Re-arm a latched rule; the hold timer restarts. -/
def resetLatch (state : RuleState) : Bool × RuleState :=
  (!state.armed, { state with armed := true, conditionSince := none })

/-! ## The evaluator -/

/-- The combined tree on this snapshot; a rule without a condition is always true. -/
def evaluateTree (rule : Rule F) (snapshot : MetricSnapshot F) (now : Datetime)
    (leafStates : LeafStates) : Option Bool × LeafStates :=
  match rule.condition with
  | none => (some true, leafStates)
  | some node => evaluateNode snapshot now node leafStates []

/-- The reset tree, where the policy has one. -/
def evaluateReset (rule : Rule F) (snapshot : MetricSnapshot F) (now : Datetime)
    (resetLeafStates : LeafStates) : Option (Option Bool × LeafStates) :=
  rule.executionPolicy.resetCondition.map fun reset =>
    evaluateNode snapshot now reset resetLeafStates []

/-- The `if not state.armed` block of `evaluate`. -/
def rearm (rule : Rule F) (tree : Option Bool) (snapshot : MetricSnapshot F) (now : Datetime)
    (state : RuleState) : RuleState :=
  if state.armed then state
  else
    match rule.executionPolicy.strategy with
    | .continuous => { state with armed := true }
    | .resetCondition =>
        match evaluateReset rule snapshot now state.resetLeafStates with
        | some (reset, resetLeafStates) =>
            { state with
              resetLeafStates := resetLeafStates
              armed := decide (reset = some true) }
        | none => { state with armed := decide (tree = some false) }
    | .latch =>
        match evaluateReset rule snapshot now state.resetLeafStates with
        | some (reset, resetLeafStates) =>
            { state with
              resetLeafStates := resetLeafStates
              armed := decide (reset = some true) }
        -- only `reset_latch` arms it again
        | none => state
    | .edge => { state with armed := decide (tree = some false) }

omit [PyFloat F] in
/-- `_maybe_clear`. -/
def maybeClear (rule : Rule F) (tree : Option Bool) (now : Datetime) (state : RuleState)
    (hasClear : Bool) (clearForDuration : Nat) : Option Firing × RuleState :=
  -- an unknown tree leaves the episode open and starts the delay over
  if tree = none ∨ state.active = false then (none, { state with clearSince := none })
  else if hasClear = false then (none, { state with active := false, clearSince := none })
  else
    let since := state.clearSince.getD now
    if elapsed now since < seconds clearForDuration then
      (none, { state with clearSince := some since })
    else
      (some { ruleId := rule.id, edge := .clear },
        { state with active := false, clearSince := none })

omit [PyFloat F] in
/-- Whether the last fire is still inside the cooldown. -/
def coolingDown (rule : Rule F) (now : Datetime) (state : RuleState) : Bool :=
  match state.lastFiredAt with
  | none => false
  | some fired => decide (elapsed now fired < seconds rule.executionPolicy.cooldown)

/-- `ThresholdEvaluator.evaluate`. -/
def evaluate (rule : Rule F) (snapshot : MetricSnapshot F) (now : Datetime) (state : RuleState) :
    Option Firing × RuleState :=
  let policy := rule.executionPolicy
  let hasClear := !rule.clearActions.isEmpty
  let (tree, leafStates) := evaluateTree rule snapshot now state.leafStates
  let state := rearm rule tree snapshot now { state with leafStates := leafStates }
  if tree ≠ some true then
    maybeClear rule tree now { state with conditionSince := none } hasClear
      policy.clearForDuration
  else
    -- the hold runs whether or not the rule is armed
    let since := state.conditionSince.getD now
    let state := { state with clearSince := none, conditionSince := some since }
    if elapsed now since < seconds policy.forDuration then (none, state)
    else if state.armed = false then (none, state)
    else if coolingDown rule now state then (none, state)
    else
      (some { ruleId := rule.id },
        { state with armed := false, lastFiredAt := some now, active := hasClear })

/-- `ThresholdEvaluator.evaluate_event`: a discrete event has no hold and no armed gate. -/
def evaluateEvent (rule : Rule F) (snapshot : MetricSnapshot F) (now : Datetime)
    (state : RuleState) : Option Firing × RuleState :=
  let (tree, leafStates) := evaluateTree rule snapshot now state.leafStates
  let state := { state with leafStates := leafStates }
  if tree ≠ some true then (none, state)
  else if coolingDown rule now state then (none, state)
  else (some { ruleId := rule.id }, { state with lastFiredAt := some now })

end IotSaas.Rules
