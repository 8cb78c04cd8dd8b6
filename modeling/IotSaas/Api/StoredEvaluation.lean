import IotSaas.Api.StoredTree
import IotSaas.Lib.Except
import IotSaas.Rules.TwoValued
import IotSaas.Worker.OutOfBand

/-!
# `Api/StoredEvaluation.lean` — an accepted tree never makes the evaluator raise

Progress for the evaluator on documents. What `checkRhsMatchesOperator` lets through has one of
five shapes (`Reads`, the canonical forms), and on a document that stores such a leaf every read
of `_evaluate_leaf` finds what it looks for and every operator has its branch. The run over a tree
then ends well, and with the value `Rules/Evaluators.lean` gives the tree (`evaluateNode_ok`); so
does the explanation, with the same answer (`explain_agrees`).
Nothing here uses that the leaves name their devices: without one a leaf looks up the signal of
the device `None`.
-/

set_option autoImplicit false

namespace IotSaas.Api.Stored

open Lib Rules

variable {F : Type}

/-! ## Canonical forms -/

/-- What a leaf with this operator and side asks. -/
inductive Reads : Operator → Option (RhsSpec F) → F → LeafTest F → Prop where
  | change (operator : ChangeOperator) (hysteresis : F) :
      Reads (.change operator) none hysteresis (.change operator)
  | range (operator : RangeOperator) (low high hysteresis : F) :
      Reads (.range operator) (some (.range low high)) hysteresis (.range operator low high)
  | set (operator : SetOperator) (values : List F) (hysteresis : F) :
      Reads (.set operator) (some (.set values)) hysteresis (.set operator values)
  | static (operator : Comparator) (value hysteresis : F) :
      Reads (.comparison operator) (some (.static value)) hysteresis
        (.compare operator (.static value) hysteresis)
  | metric (operator : Comparator) (deviceId : Uuid) (name : String) (hysteresis : F) :
      Reads (.comparison operator) (some (.metric deviceId name)) hysteresis
        (.compare operator (.metric deviceId name) hysteresis)

theorem mem_changeOperators (operator : Operator) :
    Operator.text operator ∈ changeOperators ↔ ∃ op, operator = .change op := by
  cases operator with
  | comparison op => cases op <;> simp [Operator.text, changeOperators]
  | range op => cases op <;> simp [Operator.text, changeOperators]
  | set op => cases op <;> simp [Operator.text, changeOperators]
  | change op => cases op <;> simp [Operator.text, changeOperators]

theorem mem_rangeOperators (operator : Operator) :
    Operator.text operator ∈ rangeOperators ↔ ∃ op, operator = .range op := by
  cases operator with
  | comparison op => cases op <;> simp [Operator.text, rangeOperators]
  | range op => cases op <;> simp [Operator.text, rangeOperators]
  | set op => cases op <;> simp [Operator.text, rangeOperators]
  | change op => cases op <;> simp [Operator.text, rangeOperators]

theorem mem_setOperators (operator : Operator) :
    Operator.text operator ∈ setOperators ↔ ∃ op, operator = .set op := by
  cases operator with
  | comparison op => cases op <;> simp [Operator.text, setOperators]
  | range op => cases op <;> simp [Operator.text, setOperators]
  | set op => cases op <;> simp [Operator.text, setOperators]
  | change op => cases op <;> simp [Operator.text, setOperators]

/-- The evaluator's own sets are the schema's. -/
theorem mem_raw_changeOperators (operator : Operator) :
    Operator.text operator ∈ Raw.changeOperators ↔ ∃ op, operator = .change op :=
  mem_changeOperators operator

theorem mem_raw_rangeOperators (operator : Operator) :
    Operator.text operator ∈ Raw.rangeOperators ↔ ∃ op, operator = .range op :=
  mem_rangeOperators operator

theorem mem_raw_setOperators (operator : Operator) :
    Operator.text operator ∈ Raw.setOperators ↔ ∃ op, operator = .set op :=
  mem_setOperators operator

theorem reads_of_rhsError {leaf : ConditionLeaf F} {operator : Operator}
    (hop : leaf.operator = Operator.text operator) (h : leaf.rhsError = none) :
    ∃ test, Reads operator leaf.rhs leaf.hysteresis test := by
  have hchange : leaf.operator ∈ changeOperators ↔ ∃ op, operator = .change op := by
    rw [hop]
    exact mem_changeOperators operator
  have hrange : leaf.operator ∈ rangeOperators ↔ ∃ op, operator = .range op := by
    rw [hop]
    exact mem_rangeOperators operator
  have hset : leaf.operator ∈ setOperators ↔ ∃ op, operator = .set op := by
    rw [hop]
    exact mem_setOperators operator
  simp only [ConditionLeaf.rhsError] at h
  cases operator with
  | change op =>
    rw [if_pos (hchange.mpr ⟨op, rfl⟩)] at h
    cases hrhs : leaf.rhs with
    | none => exact ⟨_, .change op _⟩
    | some side => simp [hrhs] at h
  | range op =>
    rw [if_neg (by simp [hchange]), if_pos (hrange.mpr ⟨op, rfl⟩)] at h
    cases hrhs : leaf.rhs with
    | none => simp [hrhs] at h
    | some side =>
      cases side with
      | range low high => exact ⟨_, .range op low high _⟩
      | _ => simp [hrhs] at h
  | set op =>
    rw [if_neg (by simp [hchange]), if_neg (by simp [hrange]), if_pos (hset.mpr ⟨op, rfl⟩)] at h
    cases hrhs : leaf.rhs with
    | none => simp [hrhs] at h
    | some side =>
      cases side with
      | set values => exact ⟨_, .set op values _⟩
      | _ => simp [hrhs] at h
  | comparison op =>
    rw [if_neg (by simp [hchange]), if_neg (by simp [hrange]), if_neg (by simp [hset])] at h
    cases hrhs : leaf.rhs with
    | none => simp [hrhs] at h
    | some side =>
      cases side with
      | static value => exact ⟨_, .static op value _⟩
      | metric deviceId name => exact ⟨_, .metric op deviceId name _⟩
      | _ => simp [hrhs] at h

section

variable [JsonNumber F]

/-- An accepted leaf has a known operator, and beside it the side the operator is for. -/
theorem reads_of_accepted {leaf : ConditionLeaf F} (h : leaf.accepted = true) :
    ∃ operator test, leaf.operator = Operator.text operator ∧
      Reads operator leaf.rhs leaf.hysteresis test := by
  simp only [ConditionLeaf.accepted, Bool.and_eq_true, decide_eq_true_eq] at h
  obtain ⟨⟨⟨⟨-, hpattern⟩, -⟩, -⟩, hcheck⟩ := h
  obtain ⟨operator, hop⟩ := exists_operator hpattern
  have herror : leaf.rhsError = none := by
    unfold ConditionLeaf.checkRhsMatchesOperator at hcheck
    cases he : leaf.rhsError with
    | none => rfl
    | some message => simp [he] at hcheck
  obtain ⟨test, htest⟩ := reads_of_rhsError hop herror
  exact ⟨operator, test, hop, htest⟩

end

/-! ## Reads of a stored leaf -/

theorem get_of_item {key : String} {doc value : Json F} (h : Raw.item key doc = .ok value) :
    Raw.get key doc = .ok value := by
  cases doc with
  | obj members =>
    simp only [Raw.item] at h
    cases hlookup : members.lookup key with
    | none => simp [hlookup] at h
    | some v =>
      simp only [hlookup, Except.ok.injEq] at h
      simp [Raw.get, hlookup, h]
  | _ => cases h

/-- The device a leaf looks up. -/
def deviceText (deviceId : Option Uuid) : Uuid := deviceId.getD "None"

theorem str_optionalText (deviceId : Option Uuid) :
    Raw.str (optionalText deviceId : Json F) = .ok (deviceText deviceId) := by
  cases deviceId <;> rfl

theorem leafSignal_ok {doc : Json F} {leaf : ConditionLeaf F} (h : StoresLeaf doc leaf) :
    Raw.leafSignal doc = .ok ⟨deviceText leaf.deviceId, leaf.metric⟩ := by
  simp only [Raw.leafSignal, h.deviceId, h.metric, bind, Except.bind, str_optionalText, Raw.text]
  rfl

section

variable [PyFloat F]

theorem compare_ok (value threshold : F) (operator : Comparator) :
    Raw.compare value (Operator.text (.comparison operator)) threshold =
      .ok (Rules.compare value operator threshold) := by
  cases operator <;> rfl

theorem compareChange_eq (operator : ChangeOperator) (mv : MetricValue F) :
    Raw.compareChange (Operator.text (.change operator)) mv = Rules.compareChange operator mv := by
  cases hprevious : mv.previousValue with
  | none => simp [Raw.compareChange, Rules.compareChange, hprevious]
  | some previous =>
    cases operator <;>
      simp [Raw.compareChange, Rules.compareChange, hprevious, Operator.text]

variable {side : Json F}

theorem compareRange_ok {low high : F} (h : StoresRhs side (some (.range low high)))
    (operator : RangeOperator) (value : F) :
    Raw.compareRange (Operator.text (.range operator)) value side =
      .ok (Rules.compareRange operator value low high) := by
  cases h with
  | range hsource hlow hhigh =>
    by_cases hle : PyFloat.le low value = true
    · cases operator <;>
        simp [Raw.compareRange, Rules.compareRange, hlow, hhigh, Raw.number, hle, bind,
          Except.bind, pure, Except.pure, Operator.text]
    · cases operator <;>
        simp [Raw.compareRange, Rules.compareRange, hlow, Raw.number, hle, bind, Except.bind,
          pure, Except.pure, Operator.text]

theorem compareSet_ok {values : List F} (h : StoresRhs side (some (.set values)))
    (operator : SetOperator) (value : F) :
    Raw.compareSet (Operator.text (.set operator)) value side =
      .ok (Rules.compareSet operator value values) := by
  cases h with
  | set hsource hvalues =>
    cases operator <;>
      simp [Raw.compareSet, Rules.compareSet, hvalues, bind, Except.bind, pure, Except.pure,
        Operator.text, List.any_map, Function.comp_def]

omit [PyFloat F] in
theorem resolveStatic_ok {value : F} (h : StoresRhs side (some (.static value)))
    (snapshot : MetricSnapshot F) (now : Datetime) :
    Raw.resolveRhsScalar side snapshot now =
      .ok (Rules.resolveRhsScalar (.static value) snapshot now) := by
  cases h with
  | static hsource hvalue =>
    simp [Raw.resolveRhsScalar, Rules.resolveRhsScalar, hsource, hvalue, Raw.isText, Raw.number,
      bind, Except.bind, pure, Except.pure]

omit [PyFloat F] in
theorem resolveMetric_ok {deviceId name : String}
    (h : StoresRhs side (some (.metric deviceId name))) (snapshot : MetricSnapshot F)
    (now : Datetime) :
    Raw.resolveRhsScalar side snapshot now =
      .ok (Rules.resolveRhsScalar (.metric deviceId name) snapshot now) := by
  cases h with
  | metric hsource hdevice hmetric =>
    cases hget : snapshot.get ⟨deviceId, name⟩ with
    | none =>
      simp [Raw.resolveRhsScalar, Rules.resolveRhsScalar, hsource, hdevice, hmetric, Raw.isText,
        Raw.str, Raw.text, hget, bind, Except.bind, pure, Except.pure]
    | some mv =>
      by_cases hfresh : signalState (some mv) now = .fresh
      · simp [Raw.resolveRhsScalar, Rules.resolveRhsScalar, hsource, hdevice, hmetric, Raw.isText,
          Raw.str, Raw.text, hget, hfresh, bind, Except.bind, pure, Except.pure]
      · simp [Raw.resolveRhsScalar, Rules.resolveRhsScalar, hsource, hdevice, hmetric, Raw.isText,
          Raw.str, Raw.text, hget, hfresh, bind, Except.bind, pure, Except.pure]

theorem rearmConditionMet_ok (operator : Comparator) (value threshold hysteresis : F)
    (conditionTrue : Bool) :
    Raw.rearmConditionMet (Operator.text (.comparison operator)) value threshold (.num hysteresis)
        conditionTrue =
      .ok (Rules.rearmConditionMet operator value threshold hysteresis conditionTrue) := by
  cases operator <;> rfl

/-- What a leaf is to the evaluator. -/
def toRules (leaf : ConditionLeaf F) (test : LeafTest F) : Rules.ConditionLeaf F :=
  ⟨deviceText leaf.deviceId, leaf.metric, test⟩

variable {operator : Operator} {test : LeafTest F}

theorem evaluateLeaf_ok {doc : Json F} {leaf : ConditionLeaf F} (h : StoresLeaf doc leaf)
    (hop : leaf.operator = Operator.text operator)
    (hreads : Reads operator leaf.rhs leaf.hysteresis test) (snapshot : MetricSnapshot F)
    (now : Datetime) (leafState : LeafState) :
    Raw.evaluateLeaf doc snapshot now leafState =
      .ok (Rules.evaluateLeaf (toRules leaf test) snapshot now leafState) := by
  have hsignal := leafSignal_ok h
  obtain ⟨side, hrhs, hside⟩ := h.rhs
  have hoperator := h.operator
  have hhysteresis := h.hysteresis
  rw [hop] at hoperator
  cases hget : snapshot.get ⟨deviceText leaf.deviceId, leaf.metric⟩ with
  | none =>
    simp [Raw.evaluateLeaf, Rules.evaluateLeaf, hsignal, leafSignal, toRules, hget, bind,
      Except.bind, pure, Except.pure]
  | some mv =>
    by_cases hfresh : signalState (some mv) now = .fresh
    · simp only [Raw.evaluateLeaf, Rules.evaluateLeaf, hsignal, leafSignal, toRules, hget, hfresh,
        hoperator, Raw.text, hrhs, hhysteresis, bind, Except.bind, pure, Except.pure, ne_eq,
        not_true_eq_false, if_false]
      generalize leaf.rhs = rhs at hside hreads
      generalize leaf.hysteresis = hysteresis at hreads
      cases hreads with
      | change op =>
        simp [mem_raw_changeOperators, compareChange_eq]
      | range op low high =>
        simp [mem_raw_changeOperators, mem_raw_rangeOperators, compareRange_ok hside]
      | set op values =>
        simp [mem_raw_changeOperators, mem_raw_rangeOperators, mem_raw_setOperators,
          compareSet_ok hside]
      | static op value =>
        simp [mem_raw_changeOperators, mem_raw_rangeOperators, mem_raw_setOperators,
          resolveStatic_ok hside]
        cases (resolveRhsScalar (.static value) snapshot now).1 with
        | none => rfl
        | some rhsValue =>
          by_cases hlatched : leafState.latchedTrue = true <;>
            simp [hlatched, compare_ok, rearmConditionMet_ok]
      | metric op deviceId name =>
        simp [mem_raw_changeOperators, mem_raw_rangeOperators, mem_raw_setOperators,
          resolveMetric_ok hside]
        cases (resolveRhsScalar (.metric deviceId name) snapshot now).1 with
        | none => rfl
        | some rhsValue =>
          by_cases hlatched : leafState.latchedTrue = true <;>
            simp [hlatched, compare_ok, rearmConditionMet_ok]
    · simp [Raw.evaluateLeaf, Rules.evaluateLeaf, hsignal, leafSignal, toRules, hget, hfresh,
        bind, Except.bind, pure, Except.pure]

omit [PyFloat F] in
theorem assertGiven_ok {rhs : RhsSpec F} (h : StoresRhs side (some rhs)) :
    Raw.assertGiven side = .ok () := by
  cases side with
  | null =>
    exfalso
    cases h with
    | static hsource | range hsource | set hsource | metric hsource => cases hsource
  | _ => rfl

/-- On a fresh signal the explanation compares what the evaluator compares. A leaf whose other side
is unknown is false here. -/
theorem explainFresh_yields {rhs : Option (RhsSpec F)} {hysteresis : F} (hside : StoresRhs side rhs)
    (hreads : Reads operator rhs hysteresis test) {signal : SignalKey} {mv : MetricValue F}
    {snapshot : MetricSnapshot F} {now : Datetime} (hget : snapshot.get signal = some mv)
    (hfresh : signalState (some mv) now = .fresh) :
    Yields (Raw.explainFresh (Operator.text operator) side mv snapshot now)
      fun r => r.1 = leafHolds snapshot now ⟨signal.deviceId, signal.metric, test⟩ := by
  simp only [Raw.explainFresh]
  cases hreads with
  | change op =>
    rw [if_pos (by simp [mem_raw_changeOperators])]
    exact .ok (by simp [leafHolds, evaluateLeaf, leafSignal, hget, hfresh, compareChange_eq])
  | range op low high =>
    rw [if_neg (by simp [mem_raw_changeOperators]), if_pos (by simp [mem_raw_rangeOperators])]
    refine .bind (assertGiven_ok hside) (.bind (compareRange_ok hside op mv.value) (.ok ?_))
    simp [leafHolds, evaluateLeaf, leafSignal, hget, hfresh]
  | set op values =>
    rw [if_neg (by simp [mem_raw_changeOperators]), if_neg (by simp [mem_raw_rangeOperators]),
      if_pos (by simp [mem_raw_setOperators])]
    refine .bind (assertGiven_ok hside) (.bind (compareSet_ok hside op mv.value) (.ok ?_))
    simp [leafHolds, evaluateLeaf, leafSignal, hget, hfresh]
  | static op value =>
    rw [if_neg (by simp [mem_raw_changeOperators]), if_neg (by simp [mem_raw_rangeOperators]),
      if_neg (by simp [mem_raw_setOperators])]
    refine .bind (assertGiven_ok hside) (.bind (resolveStatic_ok hside snapshot now) ?_)
    cases hside with
    | static hsource hvalue =>
      refine .bind hsource (.bind (compare_ok mv.value value op) (.ok ?_))
      simp [leafHolds, evaluateLeaf, leafSignal, hget, hfresh, resolveRhsScalar]
  | metric op deviceId name =>
    rw [if_neg (by simp [mem_raw_changeOperators]), if_neg (by simp [mem_raw_rangeOperators]),
      if_neg (by simp [mem_raw_setOperators])]
    refine .bind (assertGiven_ok hside) (.bind (resolveMetric_ok hside snapshot now) ?_)
    cases hside with
    | metric hsource hdevice hmetric =>
      refine .bind hsource ?_
      cases hrhs : (resolveRhsScalar (.metric deviceId name) snapshot now).1 with
      | none => exact .ok (by simp [leafHolds, evaluateLeaf, leafSignal, hget, hfresh, hrhs])
      | some rhsValue =>
        refine .bind (compare_ok mv.value rhsValue op) (.ok ?_)
        simp [leafHolds, evaluateLeaf, leafSignal, hget, hfresh, hrhs]

omit [PyFloat F] in
theorem comparesMetric_completes {rhs : Option (RhsSpec F)} (h : StoresRhs side rhs) :
    Completes (Raw.comparesMetric side) := by
  cases side with
  | null => exact .ok false
  | _ =>
    cases h with
    | static hsource | range hsource | set hsource | metric hsource =>
      exact .bind (get_of_item hsource) (.ok _)

theorem explainResult_yields {rhs : Option (RhsSpec F)} {hysteresis : F}
    (hside : StoresRhs side rhs) (hreads : Reads operator rhs hysteresis test) (signal : SignalKey)
    (snapshot : MetricSnapshot F) (now : Datetime) :
    Yields (Raw.explainResult (Operator.text operator) side (snapshot.get signal) snapshot now)
      fun r => r.1 = leafHolds snapshot now ⟨signal.deviceId, signal.metric, test⟩ := by
  unfold Raw.explainResult
  cases hget : snapshot.get signal with
  | none =>
    refine .ok ?_
    simp [leafHolds, evaluateLeaf, leafSignal, hget]
  | some mv =>
    by_cases hfresh : signalState (some mv) now = .fresh
    · rw [if_pos hfresh]
      exact explainFresh_yields hside hreads hget hfresh
    · rw [if_neg hfresh]
      refine .ok ?_
      simp [leafHolds, evaluateLeaf, leafSignal, hget, hfresh]

theorem explainLeaf_yields {doc : Json F} {leaf : ConditionLeaf F} (h : StoresLeaf doc leaf)
    (hop : leaf.operator = Operator.text operator)
    (hreads : Reads operator leaf.rhs leaf.hysteresis test) (snapshot : MetricSnapshot F)
    (now : Datetime) :
    Yields (Raw.explainLeaf doc snapshot now)
      fun e => e.result = leafHolds snapshot now (toRules leaf test) := by
  obtain ⟨side, hrhs, hside⟩ := h.rhs
  have htext : Raw.text (.str leaf.operator : Json F) = .ok (Operator.text operator) := by
    rw [hop]
    rfl
  obtain ⟨r, hr, hresult⟩ := explainResult_yields hside hreads
    ⟨deviceText leaf.deviceId, leaf.metric⟩ snapshot now
  obtain ⟨b, hb⟩ := comparesMetric_completes hside
  exact .bind (leafSignal_ok h) (.bind h.operator (.bind htext (.bind (get_of_item hrhs)
    (.bind hr (.bind h.deviceId (.bind h.metric (.bind hb (.ok hresult))))))))

/-! ## Trees -/

mutual

/-- What a tree is to the evaluator. -/
inductive Means : ConditionNode F → Node F → Prop where
  | leaf {l : ConditionLeaf F} {operator : Operator} {test : LeafTest F}
      (hop : l.operator = Operator.text operator)
      (hreads : Reads operator l.rhs l.hysteresis test) : Means (.leaf l) (.leaf (toRules l test))
  | group (op : GroupOp) {predicates : List (ConditionNode F)} {nodes : List (Node F)}
      (h : MeansEach predicates nodes) : Means (.group op predicates) (.group op nodes)

inductive MeansEach : List (ConditionNode F) → List (Node F) → Prop where
  | nil : MeansEach [] []
  | cons {node : ConditionNode F} {read : Node F} {rest : List (ConditionNode F)}
      {reads : List (Node F)} (head : Means node read) (tail : MeansEach rest reads) :
      MeansEach (node :: rest) (read :: reads)

end

omit [PyFloat F] in
theorem predicates_ok {doc : Json F} {items : List (Json F)}
    (h : Raw.item "predicates" doc = .ok (.arr items)) :
    ∃ hlt, Raw.predicates doc = .ok ⟨items, hlt⟩ := by
  unfold Raw.predicates
  split
  · rename_i e he
    rw [h] at he
    cases he
  · rename_i items' hitems
    rw [h] at hitems
    cases hitems
    exact ⟨Raw.items_sizeOf h, rfl⟩
  · rename_i v hne hv
    rw [h] at hv
    cases hv
    exact absurd rfl (hne items)

theorem groupText_dominant (op : GroupOp) : decide (groupText op = "OR") = dominant op := by
  cases op <;> simp [groupText, dominant]

mutual

theorem evaluateNode_ok {doc : Json F} {node : ConditionNode F} {read : Node F}
    (hs : Stores doc node) (hm : Means node read) (snapshot : MetricSnapshot F) (now : Datetime)
    (leafStates : LeafStates) (path : Path) :
    Raw.evaluateNode snapshot now doc leafStates path =
      .ok (Rules.evaluateNode snapshot now read leafStates path) := by
  cases hm with
  | leaf hop hreads =>
    cases hs with
    | leaf h =>
      rw [Raw.evaluateNode]
      simp [h.kind, Raw.isText, evaluateLeaf_ok h hop hreads, Rules.evaluateNode, bind,
        Except.bind, pure, Except.pure]
  | group op hm =>
    cases hs with
    | group hkind hop hpredicates heach =>
      obtain ⟨hlt, hitems⟩ := predicates_ok hpredicates
      have hrun := evaluateNodes_ok heach hm snapshot now leafStates path 0
      rw [Raw.evaluateNode]
      simp [hkind, hop, hitems, hrun, groupText_dominant, Rules.evaluateNode, bind, Except.bind,
        pure, Except.pure, Raw.isText]

theorem evaluateNodes_ok {docs : List (Json F)} {nodes : List (ConditionNode F)}
    {reads : List (Node F)} (hs : StoresEach docs nodes) (hm : MeansEach nodes reads)
    (snapshot : MetricSnapshot F) (now : Datetime) (leafStates : LeafStates) (path : Path)
    (i : Nat) :
    Raw.evaluateNodes snapshot now docs leafStates path i =
      .ok (Rules.evaluateNodes snapshot now reads leafStates path i) := by
  cases hm with
  | nil =>
    cases hs
    rw [Raw.evaluateNodes]
    rfl
  | cons hm hms =>
    cases hs with
    | cons hs hss =>
      rw [Raw.evaluateNodes]
      simp [evaluateNode_ok hs hm, evaluateNodes_ok hss hms, Rules.evaluateNodes, bind,
        Except.bind, pure, Except.pure]

end

mutual

/-- **The explanation of a stored tree** ends well, with the tree's two-valued result. -/
theorem explainCondition_yields {doc : Json F} {node : ConditionNode F} {read : Node F}
    (hs : Stores doc node) (hm : Means node read) (snapshot : MetricSnapshot F) (now : Datetime) :
    Yields (Raw.explainCondition snapshot now doc)
      fun e => e.result = nodeHolds snapshot now read := by
  cases hm with
  | leaf hop hreads =>
    cases hs with
    | leaf h =>
      rw [Raw.explainCondition, nodeHolds]
      exact .bind h.kind (explainLeaf_yields h hop hreads snapshot now)
  | group op hm =>
    cases hs with
    | group hkind hop hpredicates heach =>
      obtain ⟨hlt, hitems⟩ := predicates_ok hpredicates
      obtain ⟨explained, hrun, hresults⟩ := explainConditions_yields heach hm snapshot now
      rw [Raw.explainCondition]
      refine .bind hkind (.bind hitems (.bind hrun (.bind hop (.ok ?_))))
      cases op with
      | and => simp [Raw.Explained.result, Raw.isText, groupText, hresults, nodeHolds]
      | or => simp [Raw.Explained.result, Raw.isText, groupText, hresults, nodeHolds]

theorem explainConditions_yields {docs : List (Json F)} {nodes : List (ConditionNode F)}
    {reads : List (Node F)} (hs : StoresEach docs nodes) (hm : MeansEach nodes reads)
    (snapshot : MetricSnapshot F) (now : Datetime) :
    Yields (Raw.explainConditions snapshot now docs)
      fun es => es.map Raw.Explained.result = nodesHold snapshot now reads := by
  cases hm with
  | nil =>
    cases hs
    rw [Raw.explainConditions]
    exact .ok rfl
  | cons hm hms =>
    cases hs with
    | cons hs hss =>
      obtain ⟨e, he, hresult⟩ := explainCondition_yields hs hm snapshot now
      obtain ⟨es, hes, hresults⟩ := explainConditions_yields hss hms snapshot now
      rw [Raw.explainConditions]
      refine .bind he (.bind hes (.ok ?_))
      rw [List.map_cons, hresult, hresults, nodesHold]

end

end

/-! ## Accepted trees -/

section

variable [JsonNumber F]

mutual

theorem means_of_accepted (node : ConditionNode F) (h : node.accepted = true) :
    ∃ read, Means node read := by
  cases node with
  | leaf l =>
    simp only [ConditionNode.accepted] at h
    obtain ⟨operator, test, hop, hreads⟩ := reads_of_accepted h
    exact ⟨_, .leaf hop hreads⟩
  | group op predicates =>
    simp only [ConditionNode.accepted, Bool.and_eq_true] at h
    obtain ⟨reads, hreads⟩ := meansEach_of_accepted predicates h.2
    exact ⟨_, .group op hreads⟩

theorem meansEach_of_accepted (nodes : List (ConditionNode F))
    (h : ConditionNode.allAccepted nodes = true) : ∃ reads, MeansEach nodes reads := by
  cases nodes with
  | nil => exact ⟨[], .nil⟩
  | cons node rest =>
    simp only [ConditionNode.allAccepted, Bool.and_eq_true] at h
    obtain ⟨read, hread⟩ := means_of_accepted node h.1
    obtain ⟨reads, hreads⟩ := meansEach_of_accepted rest h.2
    exact ⟨_, .cons hread hreads⟩

end

/-- A document in the column of an accepted tree. -/
def Accepted (doc : Json F) : Prop :=
  ∃ node : ConditionNode F, node.accepted = true ∧ Stores doc node

/-- A tree the evaluator reads as this node, if there is one at all. -/
inductive Reading : Option (Json F) → Option (Node F) → Prop where
  | none : Reading none none
  | some {doc : Json F} {node : ConditionNode F} {read : Node F} (hs : Stores doc node)
      (hm : Means node read) : Reading (some doc) (some read)

theorem exists_reading {tree : Option (Json F)} (h : ∀ doc ∈ tree, Accepted doc) :
    ∃ read, Reading tree read := by
  cases tree with
  | none => exact ⟨none, .none⟩
  | some doc =>
    obtain ⟨node, haccepted, hs⟩ := h doc rfl
    obtain ⟨read, hm⟩ := means_of_accepted node haccepted
    exact ⟨some read, .some hs hm⟩

end

/-! ## Rules -/

section

variable [PyFloat F]

theorem evaluateCondition_ok {tree : Option (Json F)} {read : Option (Node F)}
    (h : Reading tree read) (snapshot : MetricSnapshot F) (now : Datetime) :
    Raw.evaluateCondition tree snapshot now =
      .ok (Worker.OutOfBand.evaluateCondition read snapshot now) := by
  cases h with
  | none => rfl
  | some hs hm =>
    simp [Raw.evaluateCondition, Worker.OutOfBand.evaluateCondition, evaluateNode_ok hs hm, bind,
      Except.bind, pure, Except.pure]

variable {row : Raw.RuleRow F} {condition reset : Option (Node F)}

theorem evaluateTree_ok (reset : Option (Node F)) (hc : Reading row.condition condition)
    (snapshot : MetricSnapshot F) (now : Datetime) (leafStates : LeafStates) :
    row.evaluateTree snapshot now leafStates =
      .ok (Rules.evaluateTree (row.toRule condition reset) snapshot now leafStates) := by
  simp only [Raw.RuleRow.evaluateTree, Rules.evaluateTree, Raw.RuleRow.toRule]
  generalize row.condition = tree at hc
  cases hc with
  | none => rfl
  | some hs hm => exact evaluateNode_ok hs hm snapshot now leafStates []

theorem evaluateReset_ok (condition : Option (Node F)) (hr : Reading row.resetCondition reset)
    (snapshot : MetricSnapshot F) (now : Datetime) (resetLeafStates : LeafStates) :
    row.evaluateReset snapshot now resetLeafStates =
      .ok (Rules.evaluateReset (row.toRule condition reset) snapshot now resetLeafStates) := by
  simp only [Raw.RuleRow.evaluateReset, Rules.evaluateReset, Raw.RuleRow.toRule]
  generalize row.resetCondition = tree at hr
  cases hr with
  | none => rfl
  | some hs hm => simp [evaluateNode_ok hs hm, bind, Except.bind, pure, Except.pure]

theorem rearm_ok (condition : Option (Node F)) (hr : Reading row.resetCondition reset)
    (tree : Option Bool) (snapshot : MetricSnapshot F) (now : Datetime) (state : RuleState) :
    row.rearm tree snapshot now state =
      .ok (Rules.rearm (row.toRule condition reset) tree snapshot now state) := by
  unfold Raw.RuleRow.rearm Rules.rearm
  by_cases harmed : state.armed = true
  · simp [harmed, pure, Except.pure]
  · have hstrategy :
        (row.toRule condition reset).executionPolicy.strategy = row.strategy := rfl
    have hreset := evaluateReset_ok condition hr snapshot now state.resetLeafStates
    simp only [if_neg harmed, hstrategy]
    cases row.strategy with
    | continuous => rfl
    | edge => rfl
    | resetCondition =>
      simp only [hreset, bind, Except.bind]
      cases Rules.evaluateReset (row.toRule condition reset) snapshot now
        state.resetLeafStates <;> rfl
    | latch =>
      simp only [hreset, bind, Except.bind]
      cases Rules.evaluateReset (row.toRule condition reset) snapshot now
        state.resetLeafStates <;> rfl

/-- `evaluate` on the documents is `evaluate` on the trees they store. -/
theorem evaluate_ok (hc : Reading row.condition condition) (hr : Reading row.resetCondition reset)
    (snapshot : MetricSnapshot F) (now : Datetime) (state : RuleState) :
    row.evaluate snapshot now state =
      .ok (Rules.evaluate (row.toRule condition reset) snapshot now state) := by
  have htree := evaluateTree_ok reset hc snapshot now state.leafStates
  simp only [Raw.RuleRow.evaluate, Rules.evaluate, htree, bind, Except.bind]
  generalize Rules.evaluateTree (row.toRule condition reset) snapshot now state.leafStates = tree
  simp only [rearm_ok condition hr]
  generalize Rules.rearm (row.toRule condition reset) tree.1 snapshot now
    { state with leafStates := tree.2 } = state
  simp only [apply_ite Except.ok]
  rfl

theorem evaluateEvent_ok (reset : Option (Node F)) (hc : Reading row.condition condition)
    (snapshot : MetricSnapshot F) (now : Datetime) (state : RuleState) :
    row.evaluateEvent snapshot now state =
      .ok (Rules.evaluateEvent (row.toRule condition reset) snapshot now state) := by
  have htree := evaluateTree_ok reset hc snapshot now state.leafStates
  simp only [Raw.RuleRow.evaluateEvent, Rules.evaluateEvent, htree, bind, Except.bind,
    apply_ite Except.ok]
  rfl

end

/-! ## No exception -/

/-- Nothing raises on a stored tree: neither a rule over it nor the one-shot walks. -/
theorem evaluators_complete {F : Type} [JsonNumber F] (row : Raw.RuleRow F)
    (hcondition : ∀ doc ∈ row.condition, Accepted doc)
    (hreset : ∀ doc ∈ row.resetCondition, Accepted doc) (snapshot : MetricSnapshot F)
    (now : Datetime) (state : RuleState) :
    Completes (row.evaluate snapshot now state) ∧
      Completes (row.evaluateEvent snapshot now state) ∧
      Completes (Raw.evaluateCondition row.condition snapshot now) ∧
      Completes (Raw.evaluateCondition row.resetCondition snapshot now) ∧
      ∀ doc, doc ∈ row.condition ∨ doc ∈ row.resetCondition →
        Completes (Raw.explainCondition snapshot now doc) := by
  obtain ⟨condition, hc⟩ := exists_reading hcondition
  obtain ⟨reset, hr⟩ := exists_reading hreset
  refine ⟨.of_eq (evaluate_ok hc hr snapshot now state),
    .of_eq (evaluateEvent_ok reset hc snapshot now state),
    .of_eq (evaluateCondition_ok hc snapshot now),
    .of_eq (evaluateCondition_ok hr snapshot now), ?_⟩
  intro doc hdoc
  obtain ⟨node, haccepted, hs⟩ := hdoc.elim (hcondition doc) (hreset doc)
  obtain ⟨read, hm⟩ := means_of_accepted node haccepted
  exact (explainCondition_yields hs hm snapshot now).completes

/-- A range beside a comparison with a second sensor, under an `OR`. -/
def overheating : ConditionNode Int :=
  .group .or
    [ .leaf
        { deviceId := some "boiler"
          metric := "pressure"
          operator := "not_between"
          rhs := some (.range 1 6)
          hysteresis := 0 },
      .leaf
        { deviceId := some "boiler"
          metric := "temp"
          operator := ">="
          rhs := some (.metric "room" "temp")
          hysteresis := 5 } ]

/-- A sample is enough to arm the rule again. -/
def pressureChanged : ConditionNode Int :=
  .leaf
    { deviceId := some "boiler"
      metric := "pressure"
      operator := "changed"
      hysteresis := 0 }

theorem accepted_overheating : overheating.accepted = true := by decide

theorem accepted_pressureChanged : pressureChanged.accepted = true := by decide

def boilerRow : Raw.RuleRow Int where
  id := "rule"
  tenantId := "tenant"
  condition := some overheating.modelDump
  strategy := .resetCondition
  resetCondition := some pressureChanged.modelDump

/-- Every signal is fresh, so every leaf is compared. -/
def boilerSnapshot : MetricSnapshot Int :=
  ((Dict.empty.set ⟨"boiler", "pressure"⟩ { value := 7, timestamp := 0 }).set ⟨"boiler", "temp"⟩
    { value := 80, timestamp := 0 }).set ⟨"room", "temp"⟩ { value := 20, timestamp := 0 }

theorem evaluators_complete_boilerRow :
    Completes (boilerRow.evaluate boilerSnapshot 0 { armed := false }) ∧
      Completes (boilerRow.evaluateEvent boilerSnapshot 0 { armed := false }) ∧
      Completes (Raw.evaluateCondition boilerRow.condition boilerSnapshot 0) ∧
      Completes (Raw.evaluateCondition boilerRow.resetCondition boilerSnapshot 0) ∧
      ∀ doc, doc ∈ boilerRow.condition ∨ doc ∈ boilerRow.resetCondition →
        Completes (Raw.explainCondition boilerSnapshot 0 doc) := by
  apply evaluators_complete boilerRow
  · intro doc hdoc
    cases hdoc
    exact ⟨overheating, accepted_overheating, stores_modelDump overheating⟩
  · intro doc hdoc
    cases hdoc
    exact ⟨pressureChanged, accepted_pressureChanged, stores_modelDump pressureChanged⟩

/-! ## The explanation -/

/-- **The simulation agrees with the evaluator.** On every stored tree, its groups of any nesting
and any size, the explanation's root result is what `evaluate_condition` answers. -/
theorem explain_agrees {F : Type} [PyFloat F] {doc : Json F} {node : ConditionNode F}
    {read : Node F} (hs : Stores doc node) (hm : Means node read) (snapshot : MetricSnapshot F)
    (now : Datetime) :
    ∃ explained, Raw.explainCondition snapshot now doc = .ok explained ∧
      Raw.evaluateCondition (some doc) snapshot now = .ok explained.result := by
  obtain ⟨explained, hexplained, hresult⟩ := explainCondition_yields hs hm snapshot now
  refine ⟨explained, hexplained, ?_⟩
  rw [evaluateCondition_ok (.some hs hm), hresult, Worker.OutOfBand.evaluateCondition]
  congr 1
  rw [Bool.eq_iff_iff, decide_eq_true_iff]
  exact nodeHolds_iff snapshot now read

/-- What the boiler rule is to the evaluator. -/
theorem means_overheating : ∃ read, Means overheating read :=
  means_of_accepted overheating accepted_overheating

theorem explain_agrees_boilerRow :
    ∃ explained, Raw.explainCondition boilerSnapshot 0 overheating.modelDump = .ok explained ∧
      Raw.evaluateCondition (some overheating.modelDump) boilerSnapshot 0 =
        .ok explained.result := by
  obtain ⟨read, hread⟩ := means_overheating
  exact explain_agrees (stores_modelDump overheating) hread boilerSnapshot 0

end IotSaas.Api.Stored
