import IotSaas.Rules.Evaluators

/-!
# `Rules/RawEvaluator.lean` — the evaluator on the JSON it is given

`rules/evaluators.py` once more, this time on `Rule.condition` as the column holds it: a document
whose members are read by name and whose texts are compared one after another. Whatever Python
raises on a document of another shape is an outcome here, so that *no exception* is a statement
about these functions. `Rules/Evaluators.lean` is what they compute on a tree that is well formed.

Where a stored value has a type no comparison is meant for, Python sometimes goes on with it and
sometimes raises. Here it always raises: what completes here completes there.
-/

set_option autoImplicit false

namespace IotSaas.Rules.Raw

open Lib

inductive PyError where
  | keyError (key : String)
  | typeError
  | attributeError
  | assertionError
  deriving DecidableEq

variable {F : Type}

/-! ## Documents -/

/-- `doc[key]`. -/
def item (key : String) : Json F → Except PyError (Json F)
  | .obj members =>
      match members.lookup key with
      | none => .error (.keyError key)
      | some value => .ok value
  | _ => .error .typeError

/-- `doc.get(key)`, where `null` is `None` too. -/
def get (key : String) : Json F → Except PyError (Json F)
  | .obj members => .ok ((members.lookup key).getD .null)
  | _ => .error .attributeError

def text : Json F → Except PyError String
  | .str s => .ok s
  | _ => .error .typeError

/-- `str(value)` of a text or of `None`. -/
def str : Json F → Except PyError String
  | .str s => .ok s
  | .null => .ok "None"
  | _ => .error .typeError

def number : Json F → Except PyError F
  | .num n => .ok n
  | _ => .error .typeError

def isText (s : String) : Json F → Bool
  | .str t => t = s
  | _ => false

theorem item_sizeOf {key : String} {doc value : Json F} (h : item key doc = .ok value) :
    sizeOf value < sizeOf doc := by
  cases doc with
  | obj members =>
    simp only [item] at h
    cases hlookup : members.lookup key with
    | none => simp [hlookup] at h
    | some v =>
      simp only [hlookup, Except.ok.injEq] at h
      subst h
      obtain ⟨before, after, hmem, -⟩ := List.lookup_eq_some_iff.mp hlookup
      have hlt : sizeOf (key, v) < sizeOf members := List.sizeOf_lt_of_mem (by simp [hmem])
      simp only [Prod.mk.sizeOf_spec] at hlt
      simp only [Json.obj.sizeOf_spec]
      omega
  | _ => cases h

theorem items_sizeOf {key : String} {doc : Json F} {items : List (Json F)}
    (h : item key doc = .ok (.arr items)) : sizeOf items < sizeOf doc := by
  have hlt := item_sizeOf h
  simp only [Json.arr.sizeOf_spec] at hlt
  omega

/-- `node["predicates"]`, to be walked. -/
def predicates (node : Json F) :
    Except PyError {items : List (Json F) // sizeOf items < sizeOf node} :=
  match h : item "predicates" node with
  | .error e => .error e
  | .ok (.arr items) => .ok ⟨items, items_sizeOf h⟩
  | .ok _ => .error .typeError

/-! ## Leaves -/

def rangeOperators : List String := ["between", "not_between"]

def setOperators : List String := ["in", "not_in"]

def changeOperators : List String := ["changed", "increased", "decreased"]

/-- `_COMPARATORS`. -/
def comparators : List (String × Comparator) :=
  [(">", .gt), (">=", .ge), ("<", .lt), ("<=", .le), ("==", .eq), ("!=", .ne)]

def leafSignal (leaf : Json F) : Except PyError SignalKey := do
  let deviceId ← str (← item "device_id" leaf)
  let metric ← text (← item "metric" leaf)
  pure ⟨deviceId, metric⟩

variable [PyFloat F]

def compare (value : F) (operator : String) (threshold : F) : Except PyError Bool :=
  match comparators.lookup operator with
  | none => .error (.keyError operator)
  | some comparator => .ok (Rules.compare value comparator threshold)

/-- A chained comparison reads its right end only when the left one holds. -/
def compareRange (operator : String) (value : F) (rhs : Json F) : Except PyError Bool := do
  let low ← number (← item "low" rhs)
  let inside ←
    if PyFloat.le low value then do
      let high ← number (← item "high" rhs)
      pure (PyFloat.le value high)
    else pure false
  pure (if operator = "between" then inside else !inside)

def compareSet (operator : String) (value : F) (rhs : Json F) : Except PyError Bool := do
  match ← item "values" rhs with
  | .arr values =>
      let member := values.any fun
        | .num n => PyFloat.eq value n
        | _ => false
      pure (if operator = "in" then member else !member)
  | _ => .error .typeError

-- a set operator beside no side at all
example : compareSet "in" (1 : Int) .null = .error .typeError := rfl

def compareChange (operator : String) (metricValue : MetricValue F) : Bool :=
  match metricValue.previousValue with
  | none => false
  | some previous =>
      if operator = "changed" then !PyFloat.eq metricValue.value previous
      else if operator = "increased" then PyFloat.lt previous metricValue.value
      else PyFloat.lt metricValue.value previous

omit [PyFloat F] in
def resolveRhsScalar (rhs : Json F) (snapshot : MetricSnapshot F) (now : Datetime) :
    Except PyError (Option F × SignalState) := do
  if isText "static" (← item "source" rhs) then
    match ← item "value" rhs with
    | .null => pure (none, .fresh)
    | value => do
        let value ← number value
        pure (some value, .fresh)
  else
    let deviceId ← str (← item "device_id" rhs)
    let metric ← text (← item "metric" rhs)
    let rhsValue := snapshot.get ⟨deviceId, metric⟩
    let state := signalState rhsValue now
    match rhsValue with
    | none => pure (none, state)
    | some mv => pure (if state = .fresh then some mv.value else none, state)

/-- `==` and `!=` never look at the margin. -/
def rearmConditionMet (operator : String) (value threshold : F) (hysteresis : Json F)
    (conditionTrue : Bool) : Except PyError Bool :=
  if operator = ">" then do
    pure (PyFloat.le value (PyFloat.sub threshold (← number hysteresis)))
  else if operator = ">=" then do
    pure (PyFloat.lt value (PyFloat.sub threshold (← number hysteresis)))
  else if operator = "<" then do
    pure (PyFloat.le (PyFloat.add threshold (← number hysteresis)) value)
  else if operator = "<=" then do
    pure (PyFloat.lt (PyFloat.add threshold (← number hysteresis)) value)
  else pure (!conditionTrue)

/-- `_evaluate_leaf`. -/
def evaluateLeaf (leaf : Json F) (snapshot : MetricSnapshot F) (now : Datetime)
    (leafState : LeafState) : Except PyError (Option Bool × LeafState) := do
  let signal ← leafSignal leaf
  match snapshot.get signal with
  | none => pure (none, leafState)
  | some mv =>
      if signalState (some mv) now ≠ .fresh then pure (none, leafState)
      else do
        let operator ← text (← item "operator" leaf)
        if operator ∈ changeOperators then
          let rawTrue := compareChange operator mv
          pure (some rawTrue, ⟨rawTrue⟩)
        else if operator ∈ rangeOperators then do
          let rawTrue ← compareRange operator mv.value (← item "rhs" leaf)
          pure (some rawTrue, ⟨rawTrue⟩)
        else if operator ∈ setOperators then do
          let rawTrue ← compareSet operator mv.value (← item "rhs" leaf)
          pure (some rawTrue, ⟨rawTrue⟩)
        else do
          let resolved ← resolveRhsScalar (← item "rhs" leaf) snapshot now
          match resolved.1 with
          | none => pure (none, leafState)
          | some rhsValue => do
              let rawTrue ← compare mv.value operator rhsValue
              let latched ←
                if leafState.latchedTrue then do
                  let met ← rearmConditionMet operator mv.value rhsValue
                    (← item "hysteresis" leaf) rawTrue
                  pure (!met)
                else pure rawTrue
              pure (some latched, ⟨latched⟩)

/-! ## Trees -/

mutual

/-- `_evaluate_node`. -/
def evaluateNode (snapshot : MetricSnapshot F) (now : Datetime) (node : Json F)
    (leafStates : LeafStates) (path : Path) : Except PyError (Option Bool × LeafStates) := do
  if isText "leaf" (← item "kind" node) then
    let r ← evaluateLeaf node snapshot now (leafStates.getD path {})
    pure (r.1, leafStates.set path r.2)
  else do
    let children ← predicates node
    let r ← evaluateNodes snapshot now children.1 leafStates path 0
    let dominant := isText "OR" (← item "op" node)
    pure (combine dominant r.1, r.2)
termination_by sizeOf node
decreasing_by exact children.2

def evaluateNodes (snapshot : MetricSnapshot F) (now : Datetime) (children : List (Json F))
    (leafStates : LeafStates) (path : Path) (i : Nat) :
    Except PyError (List (Option Bool) × LeafStates) :=
  match children with
  | [] => pure ([], leafStates)
  | child :: rest => do
      let r ← evaluateNode snapshot now child leafStates (path ++ [i])
      let rs ← evaluateNodes snapshot now rest r.2 path (i + 1)
      pure (r.1 :: rs.1, rs.2)
termination_by sizeOf children

end

/-- `evaluate_condition`. -/
def evaluateCondition (condition : Option (Json F)) (snapshot : MetricSnapshot F)
    (now : Datetime) : Except PyError Bool :=
  match condition with
  | none => pure true
  | some node => do
      let r ← evaluateNode snapshot now node .empty []
      pure (decide (r.1 = some true))

/-! ## Explanations -/

/-- The annotated tree of `explain_condition`. -/
inductive Explained (F : Type) where
  | leaf (deviceId metric operator rhs : Json F) (observedValue : Option F)
      (observedAt : Option Datetime) (signalState : SignalState) (result : Bool)
      (rhsObserved : Option (Option F × Option SignalState))
  | group (op : Json F) (result : Bool) (predicates : List (Explained F))

def Explained.result : Explained F → Bool
  | .leaf _ _ _ _ _ _ _ result _ => result
  | .group _ result _ => result

/-- `assert rhs is not None`. -/
def assertGiven : Json F → Except PyError Unit
  | .null => .error .assertionError
  | _ => .ok ()

/-- Whether a leaf compares with another signal. -/
def comparesMetric (rhs : Json F) : Except PyError Bool :=
  match rhs with
  | .null => pure false
  | rhs => do pure (isText "metric" (← get "source" rhs))

/-- The result of a leaf whose signal is fresh, with what it saw of another one. -/
def explainFresh (operator : String) (rhs : Json F) (mv : MetricValue F)
    (snapshot : MetricSnapshot F) (now : Datetime) :
    Except PyError (Bool × Option F × Option SignalState) := do
  if operator ∈ changeOperators then pure (compareChange operator mv, none, none)
  else if operator ∈ rangeOperators then do
    assertGiven rhs
    pure (← compareRange operator mv.value rhs, none, none)
  else if operator ∈ setOperators then do
    assertGiven rhs
    pure (← compareSet operator mv.value rhs, none, none)
  else do
    assertGiven rhs
    let resolved ← resolveRhsScalar rhs snapshot now
    let observed :=
      if isText "metric" (← item "source" rhs) then (resolved.1, some resolved.2) else (none, none)
    match resolved.1 with
    | none => pure (false, observed)
    | some rhsValue => pure (← compare mv.value operator rhsValue, observed)

/-- The result of a leaf: fresh is not missing, which the source asserts. -/
def explainResult (operator : String) (rhs : Json F) (metricValue : Option (MetricValue F))
    (snapshot : MetricSnapshot F) (now : Datetime) :
    Except PyError (Bool × Option F × Option SignalState) :=
  if signalState metricValue now = .fresh then
    match metricValue with
    | none => .error .assertionError
    | some mv => explainFresh operator rhs mv snapshot now
  else .ok (false, none, none)

def explainLeaf (leaf : Json F) (snapshot : MetricSnapshot F) (now : Datetime) :
    Except PyError (Explained F) := do
  let signal ← leafSignal leaf
  let metricValue := snapshot.get signal
  let state := signalState metricValue now
  let operator ← text (← item "operator" leaf)
  let rhs ← get "rhs" leaf
  let r ← explainResult operator rhs metricValue snapshot now
  pure (.leaf (← item "device_id" leaf) (← item "metric" leaf) (.str operator) rhs
    (metricValue.map (·.value)) (metricValue.map (·.timestamp)) state r.1
    (if ← comparesMetric rhs then some r.2 else none))

mutual

def explainCondition (snapshot : MetricSnapshot F) (now : Datetime) (condition : Json F) :
    Except PyError (Explained F) := do
  if isText "leaf" (← item "kind" condition) then explainLeaf condition snapshot now
  else do
    let children ← predicates condition
    let explained ← explainConditions snapshot now children.1
    let results := explained.map Explained.result
    let op ← item "op" condition
    let combined := if isText "AND" op then results.all id else results.any id
    pure (.group op combined explained)
termination_by sizeOf condition
decreasing_by exact children.2

def explainConditions (snapshot : MetricSnapshot F) (now : Datetime) (children : List (Json F)) :
    Except PyError (List (Explained F)) :=
  match children with
  | [] => pure []
  | child :: rest => do
      let e ← explainCondition snapshot now child
      let es ← explainConditions snapshot now rest
      pure (e :: es)
termination_by sizeOf children

end

/-! ## Rules -/

/-- A row of `rules`, its two trees as JSON. -/
structure RuleRow (F : Type) where
  id : Uuid
  tenantId : Uuid
  trigger : Trigger := .metric
  condition : Option (Json F)
  strategy : RuleStrategy := .edge
  forDuration : Nat := 0
  cooldown : Nat := 0
  resetCondition : Option (Json F) := none
  clearForDuration : Nat := 0
  actions : List (Action F) := []
  clearActions : List (Action F) := []

omit [PyFloat F] in
/-- The row with its trees read. -/
def RuleRow.toRule (row : RuleRow F) (condition reset : Option (Node F)) : Rule F :=
  { id := row.id
    tenantId := row.tenantId
    trigger := row.trigger
    condition := condition
    executionPolicy :=
      { strategy := row.strategy
        forDuration := row.forDuration
        cooldown := row.cooldown
        resetCondition := reset
        clearForDuration := row.clearForDuration }
    actions := row.actions
    clearActions := row.clearActions }

/-- The row where only its other fields matter. -/
def RuleRow.fields (row : RuleRow F) : Rule F := row.toRule none none

def RuleRow.evaluateTree (row : RuleRow F) (snapshot : MetricSnapshot F) (now : Datetime)
    (leafStates : LeafStates) : Except PyError (Option Bool × LeafStates) :=
  match row.condition with
  | none => pure (some true, leafStates)
  | some condition => evaluateNode snapshot now condition leafStates []

def RuleRow.evaluateReset (row : RuleRow F) (snapshot : MetricSnapshot F) (now : Datetime)
    (resetLeafStates : LeafStates) : Except PyError (Option (Option Bool × LeafStates)) :=
  match row.resetCondition with
  | none => pure none
  | some reset => do
      let r ← evaluateNode snapshot now reset resetLeafStates []
      pure (some r)

def RuleRow.rearm (row : RuleRow F) (tree : Option Bool) (snapshot : MetricSnapshot F)
    (now : Datetime) (state : RuleState) : Except PyError RuleState :=
  if state.armed then pure state
  else
    match row.strategy with
    | .continuous => pure { state with armed := true }
    | .resetCondition => do
        match ← row.evaluateReset snapshot now state.resetLeafStates with
        | some (reset, resetLeafStates) =>
            pure { state with
              resetLeafStates := resetLeafStates
              armed := decide (reset = some true) }
        | none => pure { state with armed := decide (tree = some false) }
    | .latch => do
        match ← row.evaluateReset snapshot now state.resetLeafStates with
        | some (reset, resetLeafStates) =>
            pure { state with
              resetLeafStates := resetLeafStates
              armed := decide (reset = some true) }
        | none => pure state
    | .edge => pure { state with armed := decide (tree = some false) }

/-- `ThresholdEvaluator.evaluate`. -/
def RuleRow.evaluate (row : RuleRow F) (snapshot : MetricSnapshot F) (now : Datetime)
    (state : RuleState) : Except PyError (Option Firing × RuleState) := do
  let hasClear := !row.clearActions.isEmpty
  let tree ← row.evaluateTree snapshot now state.leafStates
  let state ← row.rearm tree.1 snapshot now { state with leafStates := tree.2 }
  if tree.1 ≠ some true then
    pure (maybeClear row.fields tree.1 now { state with conditionSince := none } hasClear
      row.clearForDuration)
  else
    let since := state.conditionSince.getD now
    let state := { state with clearSince := none, conditionSince := some since }
    if elapsed now since < seconds row.forDuration then pure (none, state)
    else if state.armed = false then pure (none, state)
    else if coolingDown row.fields now state then pure (none, state)
    else
      pure (some { ruleId := row.id },
        { state with armed := false, lastFiredAt := some now, active := hasClear })

/-- `ThresholdEvaluator.evaluate_event`. -/
def RuleRow.evaluateEvent (row : RuleRow F) (snapshot : MetricSnapshot F) (now : Datetime)
    (state : RuleState) : Except PyError (Option Firing × RuleState) := do
  let tree ← row.evaluateTree snapshot now state.leafStates
  let state := { state with leafStates := tree.2 }
  if tree.1 ≠ some true then pure (none, state)
  else if coolingDown row.fields now state then pure (none, state)
  else pure (some { ruleId := row.id }, { state with lastFiredAt := some now })

end IotSaas.Rules.Raw
