import IotSaas.Rules.HotPath
import IotSaas.Rules.Signals

/-!
# `Rules/Replay.lean` — the what-if replay and the hot path, side by side

`_simulate_replay` drives the evaluator over stored readings; `evaluate_and_dispatch` drives it over
live ones. The hot path shifts a signal's old value into `previous_value` before it overwrites it;
the replay builds its `MetricValue` from the stored point alone. Everything else the evaluator
reads is the same (`Forgotten`): the replay's snapshot is the hot path's with the previous values
forgotten.

Only the change operators look at a previous value, and without one they answer no. So the two
drivers agree as long as the hot path's change leaves answer no as well (`Unchanging`).
-/

set_option autoImplicit false

namespace IotSaas.Rules

open Lib

variable {F : Type}

/-- One stored point, with the signal it is of. -/
structure Reading (F : Type) where
  time : Datetime
  signal : SignalKey
  value : F

/-- `SimulateReplayResult`. -/
structure SimulateReplayResult where
  samples : Nat
  wouldHaveFiredAt : List Datetime
  wouldHaveClearedAt : List Datetime
  truncated : Bool

/-- The edges of one kind, in order. -/
def edgesAt (edge : Edge) (edges : List (Datetime × Edge)) : List Datetime :=
  (edges.filter fun e => e.2 = edge).map Prod.fst

/-- A change operator on a value and the one before it, if there is one. -/
def changesAfter [PyFloat F] (operator : ChangeOperator) (prior : Option F) (value : F) : Bool :=
  match prior with
  | none => false
  | some previous =>
      match operator with
      | .changed => !PyFloat.eq value previous
      | .increased => PyFloat.lt previous value
      | .decreased => PyFloat.lt value previous

/-- `events.sort(key=time)`, which is stable, and the cut at the sample limit. -/
def replayOrder (maxSamples : Nat) (events : List (Reading F)) : List (Reading F) :=
  (events.mergeSort fun a b => decide (a.time ≤ b.time)).take maxSamples

/-- Readings that come in order and within the limit are replayed as they come. -/
theorem replayOrder_of_sorted {maxSamples : Nat} {events : List (Reading F)}
    (hsorted : events.Pairwise fun a b => a.time ≤ b.time) (hlimit : events.length ≤ maxSamples) :
    replayOrder maxSamples events = events := by
  unfold replayOrder
  rw [List.mergeSort_of_pairwise (by simpa using hsorted), List.take_of_length_le hlimit]

/-- The reading a stored point becomes: no previous value. -/
def storedValue (maxAges : Dict SignalKey Int) (reading : Reading F) : MetricValue F :=
  { value := reading.value
    timestamp := reading.time
    maxAgeSeconds := maxAges.getD reading.signal defaultStaleMetricAgeSeconds }

variable [PyFloat F]

/-- The loop of `_simulate_replay`: the edges it finds, with their times. -/
def replay (rule : Rule F) (maxAges : Dict SignalKey Int) :
    List (Reading F) → MetricSnapshot F → RuleState → List (Datetime × Edge)
  | [], _, _ => []
  | reading :: rest, snapshot, state =>
      let snapshot := snapshot.set reading.signal (storedValue maxAges reading)
      let r := evaluate rule snapshot reading.time state
      (r.1.map fun firing => (reading.time, firing.edge)).toList ++
        replay rule maxAges rest snapshot r.2

/-- `_simulate_replay`, given what the range queries returned for each of the rule's signals at the
resolution the window asks for. -/
def simulateReplay (maxDays maxSamples : Nat) (rule : Rule F) (maxAges : Dict SignalKey Int)
    (windowFrom windowTo : Datetime) (events : List (Reading F)) :
    Except String SimulateReplayResult :=
  if windowTo ≤ windowFrom then .error "replay window 'to' must be after 'from'"
  else if seconds (86400 * maxDays) < elapsed windowTo windowFrom then
    .error s!"replay window must be {maxDays} days or less"
  else
    let samples := replayOrder maxSamples events
    let edges := replay rule maxAges samples .empty {}
    .ok
      { samples := samples.length
        wouldHaveFiredAt := edgesAt .fire edges
        wouldHaveClearedAt := edgesAt .clear edges
        truncated := decide (maxSamples < events.length) }

/-- The same readings through `evaluate_and_dispatch`, one by one: the edges of `rule`. -/
def hotEdges (digest : Option (Node F) → Option (Node F) → String) (rule : Rule F) :
    List (Reading F) → Worker F → List (Datetime × Edge)
  | [], _ => []
  | reading :: rest, worker =>
      let r := evaluateAndDispatch digest reading.signal reading.value reading.time worker
      (entriesOf rule.id r.1).flatMap (fun entry =>
          (entry.firing.map fun firing => (reading.time, firing.edge)).toList) ++
        hotEdges digest rule rest r.2

/-- A worker with the rule loaded, the staleness bounds in place, and nothing read yet. -/
def freshWorker (digest : Option (Node F) → Option (Node F) → String) (rule : Rule F)
    (maxAges : Dict SignalKey Int) : Worker F :=
  { caches := loadRuleCache digest [rule], stalenessThresholds := maxAges }

/-! ## What the replay forgets -/

/-- A reading without its predecessor. -/
def forget (mv : MetricValue F) : MetricValue F :=
  { mv with previousValue := none, previousTimestamp := none }

/-- `b` is `a` with every previous value forgotten. -/
def Forgotten (a b : MetricSnapshot F) : Prop :=
  ∀ signal, b.get signal = (a.get signal).map forget

/-- No change leaf of the tree answers yes on this snapshot. -/
def ChangeFree (node : Node F) (a : MetricSnapshot F) : Prop :=
  ∀ path leaf operator, LeafAt node path leaf → leaf.test = .change operator →
    ∀ mv, a.get (leafSignal leaf) = some mv → compareChange operator mv = false

section

variable {a b : MetricSnapshot F} {now : Datetime}

omit [PyFloat F] in
theorem Forgotten.signalState (h : Forgotten a b) (signal : SignalKey) :
    signalState (b.get signal) now = signalState (a.get signal) now := by
  rw [h signal]
  cases a.get signal <;> rfl

omit [PyFloat F] in
theorem Forgotten.resolveRhsScalar (h : Forgotten a b) (rhs : ScalarRhs F) :
    resolveRhsScalar rhs b now = resolveRhsScalar rhs a now := by
  cases rhs with
  | static value => rfl
  | metric deviceId metric =>
    unfold Rules.resolveRhsScalar
    dsimp only
    rw [h.signalState, h ⟨deviceId, metric⟩]
    cases a.get ⟨deviceId, metric⟩ <;> rfl

/-- **A leaf misses a previous value only where it would have said yes.** -/
theorem Forgotten.evaluateLeaf (h : Forgotten a b) {leaf : ConditionLeaf F}
    (hfree : ∀ operator, leaf.test = .change operator →
      ∀ mv, a.get (leafSignal leaf) = some mv → compareChange operator mv = false)
    (leafState : LeafState) :
    evaluateLeaf leaf b now leafState = evaluateLeaf leaf a now leafState := by
  unfold Rules.evaluateLeaf
  cases hget : a.get (leafSignal leaf) with
  | none =>
    rw [h, hget]
    rfl
  | some mv =>
    have hstate : Rules.signalState (some (forget mv)) now = Rules.signalState (some mv) now := rfl
    rw [h, hget]
    simp only [Option.map_some, hstate, h.resolveRhsScalar]
    cases htest : leaf.test with
    | compare operator rhs hysteresis => rfl
    | range operator low high => rfl
    | set operator values => rfl
    | change operator =>
      have hno := hfree operator htest mv hget
      have hforgot : compareChange operator (forget mv) = false := rfl
      simp only [hno, hforgot]

mutual

theorem Forgotten.evaluateNode (h : Forgotten a b) : ∀ (node : Node F), ChangeFree node a →
    ∀ (leafStates : LeafStates) (path : Path),
      evaluateNode b now node leafStates path = evaluateNode a now node leafStates path
  | .leaf leaf, hfree, leafStates, path => by
      have hleaf : ∀ leafState,
          Rules.evaluateLeaf leaf b now leafState = Rules.evaluateLeaf leaf a now leafState :=
        h.evaluateLeaf fun operator htest => hfree [] leaf operator (.here leaf) htest
      simp only [Rules.evaluateNode, hleaf]
  | .group op predicates, hfree, leafStates, path => by
      have hchildren := h.evaluateNodes predicates
        fun i child hi p leaf operator hleaf => hfree (i :: p) leaf operator (.child hi hleaf)
      simp only [Rules.evaluateNode, hchildren]

theorem Forgotten.evaluateNodes (h : Forgotten a b) : ∀ (nodes : List (Node F)),
    (∀ (i : Nat) (child : Node F), nodes[i]? = some child → ChangeFree child a) →
    ∀ (leafStates : LeafStates) (path : Path) (i : Nat),
      evaluateNodes b now nodes leafStates path i = evaluateNodes a now nodes leafStates path i
  | [], _, leafStates, path, i => by simp only [Rules.evaluateNodes]
  | child :: rest, hfree, leafStates, path, i => by
      have hchild := h.evaluateNode child (hfree 0 child rfl)
      have hrest := h.evaluateNodes rest fun i node hi => hfree (i + 1) node hi
      simp only [Rules.evaluateNodes, hchild, hrest]

end

/-- The trees a rule's evaluation may look at. -/
def ruleTrees (rule : Rule F) : List (Node F) :=
  rule.condition.toList ++ rule.executionPolicy.resetCondition.toList

/-- **A call misses a previous value only where a change leaf would have said yes.** -/
theorem Forgotten.evaluate (h : Forgotten a b) {rule : Rule F}
    (hfree : ∀ node ∈ ruleTrees rule, ChangeFree node a) (state : RuleState) :
    evaluate rule b now state = evaluate rule a now state := by
  have htree : ∀ leafStates,
      evaluateTree rule b now leafStates = evaluateTree rule a now leafStates := by
    intro leafStates
    unfold evaluateTree
    cases hc : rule.condition with
    | none => rfl
    | some node => exact h.evaluateNode node (hfree node (by simp [ruleTrees, hc])) leafStates []
  have hreset : ∀ resetLeafStates,
      evaluateReset rule b now resetLeafStates = evaluateReset rule a now resetLeafStates := by
    intro resetLeafStates
    unfold evaluateReset
    cases hr : rule.executionPolicy.resetCondition with
    | none => rfl
    | some node =>
      rw [Option.map_some, Option.map_some,
        h.evaluateNode node (hfree node (by simp [ruleTrees, hr]))]
  have hrearm : ∀ tree state, rearm rule tree b now state = rearm rule tree a now state := by
    intro tree state
    unfold rearm
    simp only [hreset]
  unfold Rules.evaluate
  simp only [htree, hrearm]

end

/-! ## One rule loaded -/

variable {rule : Rule F}

omit [PyFloat F] in
theorem loadRuleCache_single (digest : Option (Node F) → Option (Node F) → String)
    (hmetric : rule.trigger = .metric) {signal : SignalKey}
    (hsignal : signal ∈ referencedSignals rule.condition) :
    (loadRuleCache digest [rule]).ruleCache.getD signal [] = [rule] := by
  have hcache : (loadRuleCache digest [rule]).ruleCache =
      cacheUnder .empty rule (referencedSignals rule.condition) := by
    simp [loadRuleCache, registerRule, hmetric]
  rw [hcache, cacheUnder_getD rule (referencedSignals_nodup _)]
  simp [hsignal]

/-! ## The condition -/

/-- No value of the list, coming after `prior`, changes in the operator's direction. -/
def unchangedFrom (operator : ChangeOperator) : Option F → List F → Bool
  | _, [] => true
  | prior, value :: rest =>
      !changesAfter operator prior value && unchangedFrom operator (some value) rest

omit [PyFloat F] in
/-- The values read of one signal, in order. -/
def valuesOf (signal : SignalKey) (readings : List (Reading F)) : List F :=
  (readings.filter fun reading => reading.signal = signal).map Reading.value

/-- No change leaf of the rule's trees is ever shown two consecutive values that change in its
direction. -/
def Unchanging (rule : Rule F) (readings : List (Reading F)) : Prop :=
  ∀ node ∈ ruleTrees rule, ∀ path leaf operator, LeafAt node path leaf →
    leaf.test = .change operator →
    unchangedFrom operator none (valuesOf (leafSignal leaf) readings) = true

theorem compareChange_eq (operator : ChangeOperator) (mv : MetricValue F) :
    compareChange operator mv = changesAfter operator mv.previousValue mv.value := by
  unfold compareChange changesAfter
  cases mv.previousValue <;> rfl

/-! ## The simulation -/

theorem rearm_fingerprint (rule : Rule F) (tree : Option Bool) (snapshot : MetricSnapshot F)
    (now : Datetime) (state : RuleState) (fingerprint : Option String) :
    rearm rule tree snapshot now { state with conditionFingerprint := fingerprint } =
      { rearm rule tree snapshot now state with conditionFingerprint := fingerprint } := by
  unfold rearm
  by_cases harmed : state.armed = true
  · rw [if_pos harmed, if_pos harmed]
  · rw [if_neg harmed, if_neg harmed]
    cases rule.executionPolicy.strategy with
    | edge => rfl
    | continuous => rfl
    | resetCondition =>
      dsimp only
      cases evaluateReset rule snapshot now state.resetLeafStates <;> rfl
    | latch =>
      dsimp only
      cases evaluateReset rule snapshot now state.resetLeafStates <;> rfl

/-- **The evaluator does not look at the fingerprint**, and leaves it as it is. -/
theorem evaluate_fingerprint (rule : Rule F) (snapshot : MetricSnapshot F) (now : Datetime)
    (state : RuleState) (fingerprint : Option String) :
    evaluate rule snapshot now { state with conditionFingerprint := fingerprint } =
      ((evaluate rule snapshot now state).1,
        { (evaluate rule snapshot now state).2 with conditionFingerprint := fingerprint }) := by
  have hrearm := rearm_fingerprint rule (evaluateTree rule snapshot now state.leafStates).1 snapshot
    now { state with leafStates := (evaluateTree rule snapshot now state.leafStates).2 } fingerprint
  unfold evaluate maybeClear coolingDown
  dsimp only at hrearm ⊢
  rw [hrearm]
  generalize rearm rule (evaluateTree rule snapshot now state.leafStates).1 snapshot now _ = r
  dsimp only
  repeat' split
  all_goals rfl

omit [PyFloat F] in
/-- A cache that holds the rule's signals only is its own narrowing. -/
theorem snapshotForSignals_self {cache : MetricSnapshot F} {signals : List SignalKey}
    (h : ∀ signal, signal ∉ signals → cache.get signal = none) :
    snapshotForSignals cache signals = cache := by
  apply Dict.ext
  funext signal
  rw [get_snapshotForSignals]
  by_cases hs : signal ∈ signals
  · rw [if_pos hs]
  · rw [if_neg hs, h signal hs]

/-- The change leaves of the rule have been answering no, and will for `readings`. -/
def Quiet (rule : Rule F) (cache : MetricSnapshot F) (readings : List (Reading F)) : Prop :=
  ∀ node ∈ ruleTrees rule, ∀ path leaf operator, LeafAt node path leaf →
    leaf.test = .change operator →
    (∀ mv, cache.get (leafSignal leaf) = some mv → compareChange operator mv = false) ∧
    unchangedFrom operator ((cache.get (leafSignal leaf)).map (·.value))
      (valuesOf (leafSignal leaf) readings) = true

theorem Quiet.changeFree {cache : MetricSnapshot F} {readings : List (Reading F)}
    (h : Quiet rule cache readings) : ∀ node ∈ ruleTrees rule, ChangeFree node cache :=
  fun node hnode path leaf operator hleaf htest =>
    (h node hnode path leaf operator hleaf htest).1

/-- The cache shift keeps the leaves quiet. -/
theorem Quiet.noteReading {worker : Worker F} {reading : Reading F} {rest : List (Reading F)}
    (h : Quiet rule worker.signalValueCache (reading :: rest)) :
    Quiet rule (noteReading reading.signal reading.value reading.time worker).signalValueCache
      rest := by
  intro node hnode path leaf operator hleaf htest
  obtain ⟨hcached, hcoming⟩ := h node hnode path leaf operator hleaf htest
  unfold Rules.noteReading
  dsimp only
  rw [Dict.get_set]
  by_cases hs : leafSignal leaf = reading.signal
  · rw [if_pos hs]
    rw [valuesOf, List.filter_cons_of_pos (by simp [hs]), List.map_cons, unchangedFrom,
      Bool.and_eq_true] at hcoming
    refine ⟨fun mv hmv => ?_, hcoming.2⟩
    obtain rfl := Option.some.inj hmv
    rw [compareChange_eq, ← hs]
    exact (Bool.not_eq_true' _).mp hcoming.1
  · rw [if_neg hs]
    rw [valuesOf, List.filter_cons_of_neg (by simpa using Ne.symm hs)] at hcoming
    exact ⟨hcached, hcoming⟩

/-- The replay and the worker, in step. -/
structure InStep (digest : Option (Node F) → Option (Node F) → String) (rule : Rule F)
    (maxAges : Dict SignalKey Int) (snapshot : MetricSnapshot F) (state : RuleState)
    (worker : Worker F) : Prop where
  ruleCache : worker.caches.ruleCache = (loadRuleCache digest [rule]).ruleCache
  table : worker.caches.ruleFingerprints.get rule.id = some (conditionFingerprint digest rule)
  ages : worker.stalenessThresholds = maxAges
  forgotten : Forgotten worker.signalValueCache snapshot
  own : ∀ signal, signal ∉ referencedSignals rule.condition →
    worker.signalValueCache.get signal = none
  state : alignedState rule.id (conditionFingerprint digest rule) worker =
    { state with conditionFingerprint := some (conditionFingerprint digest rule) }

section

variable {digest : Option (Node F) → Option (Node F) → String} {rule : Rule F}
  {maxAges : Dict SignalKey Int} {snapshot : MetricSnapshot F} {state : RuleState}
  {worker : Worker F} {reading : Reading F}

omit [PyFloat F] in
/-- Both sides take the reading in. -/
theorem InStep.noteReading (h : InStep digest rule maxAges snapshot state worker)
    (hsignal : reading.signal ∈ referencedSignals rule.condition) :
    InStep digest rule maxAges (snapshot.set reading.signal (storedValue maxAges reading)) state
      (noteReading reading.signal reading.value reading.time worker) := by
  refine ⟨h.ruleCache, h.table, h.ages, fun signal => ?_, fun signal hs => ?_, h.state⟩
  · unfold Rules.noteReading storedValue
    dsimp only
    rw [Dict.get_set, Dict.get_set, h.ages]
    by_cases hs : signal = reading.signal
    · rw [if_pos hs, if_pos hs]
      rfl
    · rw [if_neg hs, if_neg hs]
      exact h.forgotten signal
  · have hne : signal ≠ reading.signal := fun he => hs (he ▸ hsignal)
    show (worker.signalValueCache.set _ _).get signal = none
    rw [Dict.get_set_ne _ _ hne]
    exact h.own signal hs

/-- **One evaluation on each side:** the same firing, and in step again. -/
theorem InStep.evaluate (now : Datetime) {readings : List (Reading F)}
    (h : InStep digest rule maxAges snapshot state worker)
    (hquiet : Quiet rule worker.signalValueCache readings) :
    (evaluateCached digest rule now worker).1 = (evaluate rule snapshot now state).1 ∧
    InStep digest rule maxAges snapshot (evaluate rule snapshot now state).2
      (evaluateCached digest rule now worker).2 := by
  obtain ⟨_, hfiring, hafter⟩ := evaluateCached_self digest now h.table
  have hsame := evaluate_fingerprint rule snapshot now state
    (some (conditionFingerprint digest rule))
  rw [snapshotForSignals_self h.own, ← h.forgotten.evaluate hquiet.changeFree, h.state, hsame]
    at hfiring hafter
  refine ⟨hfiring, ?_, ?_, h.ages, h.forgotten, h.own, hafter⟩
  · exact (evaluateRules_ruleCache digest now [rule] worker).trans h.ruleCache
  · exact (evaluateCached_follows digest rule now h.table).table

/-- A reading on the hot path is one evaluation of the one rule. -/
theorem InStep.hotEdges_cons (hmetric : rule.trigger = .metric)
    (h : InStep digest rule maxAges snapshot state worker)
    (hsignal : reading.signal ∈ referencedSignals rule.condition) (rest : List (Reading F)) :
    hotEdges digest rule (reading :: rest) worker =
      ((evaluateCached digest rule reading.time
          (Rules.noteReading reading.signal reading.value reading.time worker)).1.map
        fun firing => (reading.time, firing.edge)).toList ++
      hotEdges digest rule rest
        (evaluateCached digest rule reading.time
          (Rules.noteReading reading.signal reading.value reading.time worker)).2 := by
  have hrules : (Rules.noteReading reading.signal reading.value reading.time
      worker).caches.ruleCache.getD reading.signal [] = [rule] := by
    rw [show (Rules.noteReading reading.signal reading.value reading.time
      worker).caches.ruleCache = worker.caches.ruleCache from rfl, h.ruleCache]
    exact loadRuleCache_single digest hmetric hsignal
  rw [hotEdges, evaluateAndDispatch]
  simp only [hrules, evaluateRules, entriesOf, List.filter_cons, decide_true, ↓reduceIte,
    List.filter_nil, List.flatMap_cons, List.flatMap_nil, List.append_nil]

/-- **The run:** in step from here on, the two drivers find the same edges. -/
theorem InStep.edges (hmetric : rule.trigger = .metric) (readings : List (Reading F)) :
    ∀ {snapshot : MetricSnapshot F} {state : RuleState} {worker : Worker F},
      InStep digest rule maxAges snapshot state worker →
      Quiet rule worker.signalValueCache readings →
      (∀ reading ∈ readings, reading.signal ∈ referencedSignals rule.condition) →
      replay rule maxAges readings snapshot state = hotEdges digest rule readings worker := by
  induction readings with
  | nil =>
    intro snapshot state worker _ _ _
    rfl
  | cons reading rest ih =>
    intro snapshot state worker h hquiet hsignals
    have hsignal := hsignals reading List.mem_cons_self
    obtain ⟨hfiring, hafter⟩ := (h.noteReading hsignal).evaluate reading.time
      hquiet.noteReading
    rw [h.hotEdges_cons hmetric hsignal, hfiring, replay]
    congr 1
    exact ih hafter hquiet.noteReading fun r hr => hsignals r (List.mem_cons_of_mem _ hr)

end

omit [PyFloat F] in
/-- Before the first reading. -/
theorem inStep_fresh (digest : Option (Node F) → Option (Node F) → String) (rule : Rule F)
    (maxAges : Dict SignalKey Int) :
    InStep digest rule maxAges .empty {} (freshWorker digest rule maxAges) := by
  have hloaded : (loadRuleCache digest [rule]).ruleFingerprints.get rule.id =
      some (conditionFingerprint digest rule) :=
    ruleFingerprints_of_mem (by simp) List.mem_cons_self
  refine ⟨rfl, hloaded, rfl, fun _ => rfl, fun _ _ => rfl, ?_⟩
  simp [alignedState, freshWorker, alignStateToCondition]

theorem quiet_fresh {digest : Option (Node F) → Option (Node F) → String}
    {maxAges : Dict SignalKey Int} {readings : List (Reading F)} (h : Unchanging rule readings) :
    Quiet rule (freshWorker digest rule maxAges).signalValueCache readings :=
  fun node hnode path leaf operator hleaf htest =>
    ⟨fun _ hmv => (by cases hmv), h node hnode path leaf operator hleaf htest⟩

/-! ## Where a change leaf speaks, the replay is silent -/

/-- Nothing has fired and no hold is running. -/
structure Untouched (state : RuleState) : Prop where
  armed : state.armed = true
  fired : state.lastFiredAt = none
  shut : state.active = false
  since : state.conditionSince = none

section

variable {rule : Rule F} {snapshot : MetricSnapshot F} {now : Datetime} {state : RuleState}

theorem Untouched.silent (h : Untouched state)
    (ht : treeResult rule snapshot now state ≠ some true) :
    (evaluate rule snapshot now state).1 = none ∧
      Untouched (evaluate rule snapshot now state).2 := by
  cases evaluate_exit rule snapshot now state with
  | gated tree gate eq => exact absurd tree ht
  | fired tree held armed cool eq => exact absurd tree ht
  | idle tree shut eq =>
    rw [eq]
    refine ⟨rfl, rearmed_armed h.armed, ?_, ?_, rfl⟩
    · show (rearmed rule snapshot now state).lastFiredAt = none
      rw [rearmed_lastFiredAt]
      exact h.fired
    · show (rearmed rule snapshot now state).active = false
      rw [rearmed_active]
      exact h.shut
  | dropped tree isOpen gone eq => rw [h.shut] at isOpen; cases isOpen
  | holding tree isOpen has short eq => rw [h.shut] at isOpen; cases isOpen
  | cleared tree isOpen has done eq => rw [h.shut] at isOpen; cases isOpen

theorem Untouched.fires (h : Untouched state) (hhold : rule.executionPolicy.forDuration = 0)
    (ht : treeResult rule snapshot now state = some true) :
    (evaluate rule snapshot now state).1 = some { ruleId := rule.id } := by
  have hheld : HoldComplete rule now state := by
    simp [HoldComplete, hhold, h.since, elapsed, seconds]
  cases evaluate_exit rule snapshot now state with
  | gated tree gate eq =>
    rcases gate with hopen | hdisarmed | hcool
    · exact absurd hheld hopen
    · rw [rearmed_armed h.armed] at hdisarmed
      cases hdisarmed
    · simp [coolingDown, h.fired] at hcool
  | fired tree held armed cool eq => rw [eq]
  | idle tree shut eq => exact absurd ht tree
  | dropped tree isOpen gone eq => rw [ht] at tree; cases tree
  | holding tree isOpen has short eq => rw [ht] at tree; cases tree
  | cleared tree isOpen has done eq => rw [ht] at tree; cases tree

variable {operator : ChangeOperator}

/-- What a condition that is one change leaf comes to. -/
theorem treeResult_change {deviceId : Uuid} {metric : String}
    (hc : rule.condition = some (.leaf ⟨deviceId, metric, .change operator⟩)) :
    treeResult rule snapshot now state =
      match snapshot.get ⟨deviceId, metric⟩ with
      | none => none
      | some mv =>
          if signalState (some mv) now ≠ .fresh then none
          else some (compareChange operator mv) := by
  unfold treeResult evaluateTree
  rw [hc]
  dsimp only
  rw [evaluateNode, evaluateLeaf]
  dsimp only [leafSignal]
  cases snapshot.get ⟨deviceId, metric⟩ with
  | none => rfl
  | some mv =>
    dsimp only
    split <;> rfl

/-- **The replay of a change leaf finds nothing.** -/
theorem replay_change {deviceId : Uuid} {metric : String}
    (hc : rule.condition = some (.leaf ⟨deviceId, metric, .change operator⟩))
    (maxAges : Dict SignalKey Int) (readings : List (Reading F)) :
    ∀ {snapshot : MetricSnapshot F} {state : RuleState},
      (∀ signal mv, snapshot.get signal = some mv → mv.previousValue = none) →
      Untouched state → replay rule maxAges readings snapshot state = [] := by
  induction readings with
  | nil =>
    intro snapshot state _ _
    rfl
  | cons reading rest ih =>
    intro snapshot state hprior hstate
    have hprior' : ∀ signal mv,
        (snapshot.set reading.signal (storedValue maxAges reading)).get signal = some mv →
        mv.previousValue = none := by
      intro signal mv hmv
      rw [Dict.get_set] at hmv
      split at hmv
      · obtain rfl := Option.some.inj hmv
        rfl
      · exact hprior signal mv hmv
    have hno : treeResult rule (snapshot.set reading.signal (storedValue maxAges reading))
        reading.time state ≠ some true := by
      rw [treeResult_change hc]
      split
      · simp
      · rename_i mv hmv
        rw [compareChange_eq, hprior' _ mv hmv]
        split <;> simp [changesAfter]
    obtain ⟨hfiring, hafter⟩ := hstate.silent hno
    rw [replay, hfiring]
    exact ih hprior' hafter

omit [PyFloat F] in
/-- A reading is fresh at its own time. -/
theorem signalState_own {mv : MetricValue F} (h : 0 ≤ mv.maxAgeSeconds) :
    signalState (some mv) mv.timestamp = .fresh := by
  have hnot : ¬ seconds mv.maxAgeSeconds < elapsed mv.timestamp mv.timestamp := by
    simp only [seconds, elapsed]
    omega
  simp only [signalState, if_neg hnot]

omit [PyFloat F] in
/-- A reading as the hot path caches it. -/
theorem get_noteReading (signal : SignalKey) (value : F) (time : Datetime) (worker : Worker F) :
    (noteReading signal value time worker).signalValueCache.get signal =
      some
        { value := value
          timestamp := time
          maxAgeSeconds := worker.stalenessThresholds.getD signal defaultStaleMetricAgeSeconds
          previousValue := (worker.signalValueCache.get signal).map (·.value)
          previousTimestamp := (worker.signalValueCache.get signal).map (·.timestamp) } := by
  unfold noteReading
  dsimp only
  rw [Dict.get_set_self]

/-- A rule that is one change leaf is quiet while the cached value has not changed. -/
theorem quiet_change {deviceId : Uuid} {metric : String}
    (hc : rule.condition = some (.leaf ⟨deviceId, metric, .change operator⟩))
    (hr : rule.executionPolicy.resetCondition = none) {cache : MetricSnapshot F}
    (h : ∀ mv, cache.get ⟨deviceId, metric⟩ = some mv → compareChange operator mv = false) :
    Quiet rule cache [] := by
  intro node hnode path leaf op hleaf htest
  simp only [ruleTrees, hc, hr, Option.toList_some, Option.toList_none, List.append_nil,
    List.mem_singleton] at hnode
  subst hnode
  cases hleaf
  cases htest
  exact ⟨h, rfl⟩

/-- **The hot path fires at the first value that changes in the leaf's direction.** -/
theorem hotEdges_change {digest : Option (Node F) → Option (Node F) → String}
    {maxAges : Dict SignalKey Int} {deviceId : Uuid} {metric : String}
    (hmetric : rule.trigger = .metric)
    (hc : rule.condition = some (.leaf ⟨deviceId, metric, .change operator⟩))
    (hr : rule.executionPolicy.resetCondition = none) (hhold : rule.executionPolicy.forDuration = 0)
    (hage : 0 ≤ maxAges.getD ⟨deviceId, metric⟩ defaultStaleMetricAgeSeconds)
    (readings : List (Reading F)) :
    ∀ {snapshot : MetricSnapshot F} {state : RuleState} {worker : Worker F},
      InStep digest rule maxAges snapshot state worker → Untouched state →
      (∀ reading ∈ readings, reading.signal ∈ referencedSignals rule.condition) →
      unchangedFrom operator ((worker.signalValueCache.get ⟨deviceId, metric⟩).map (·.value))
        (valuesOf ⟨deviceId, metric⟩ readings) = false →
      ∃ time, (time, Edge.fire) ∈ hotEdges digest rule readings worker := by
  induction readings with
  | nil =>
    intro snapshot state worker _ _ _ hchanges
    cases hchanges
  | cons reading rest ih =>
    intro snapshot state worker h hstate hsignals hchanges
    have hsignal := hsignals reading List.mem_cons_self
    have hs : reading.signal = ⟨deviceId, metric⟩ := by
      rw [hc, referencedSignals, nodeSignals] at hsignal
      simpa [leafSignals, rhsSignal?, leafSignal] using hsignal
    have hnoted := h.noteReading hsignal
    rw [valuesOf, List.filter_cons_of_pos (by simp [hs]), List.map_cons, unchangedFrom] at hchanges
    rw [h.hotEdges_cons hmetric hsignal]
    have hget := get_noteReading reading.signal reading.value reading.time worker
    rw [hs, h.ages] at hget
    cases hch : changesAfter operator
        ((worker.signalValueCache.get ⟨deviceId, metric⟩).map (·.value)) reading.value with
    | true =>
      -- the leaf says yes, and nothing holds the rule back
      refine ⟨reading.time, List.mem_append_left _ ?_⟩
      obtain ⟨_, hfiring, _⟩ := evaluateCached_self digest reading.time hnoted.table
      rw [snapshotForSignals_self hnoted.own, hnoted.state, evaluate_fingerprint] at hfiring
      have hyes : treeResult rule (noteReading reading.signal reading.value reading.time
          worker).signalValueCache reading.time state = some true := by
        rw [treeResult_change hc, hs, hget]
        dsimp only
        rw [if_neg, compareChange_eq]
        · exact congrArg some hch
        · exact not_not.mpr (signalState_own hage)
      rw [hfiring, hstate.fires hhold hyes]
      exact List.mem_singleton.mpr rfl
    | false =>
      have hquiet : Quiet rule (noteReading reading.signal reading.value reading.time
          worker).signalValueCache [] := by
        refine quiet_change hc hr fun mv hmv => ?_
        rw [hs, hget] at hmv
        obtain rfl := Option.some.inj hmv
        rw [compareChange_eq]
        exact hch
      obtain ⟨_, hafter⟩ := hnoted.evaluate reading.time hquiet
      have hno : treeResult rule (snapshot.set reading.signal (storedValue maxAges reading))
          reading.time state ≠ some true := by
        rw [treeResult_change hc, hs, Dict.get_set_self]
        dsimp only
        rw [compareChange_eq]
        split <;> simp [changesAfter, storedValue]
      rw [hch, Bool.not_false, Bool.true_and] at hchanges
      obtain ⟨time, htime⟩ := ih hafter (hstate.silent hno).2
        (fun r hr' => hsignals r (List.mem_cons_of_mem _ hr')) (by
          show unchangedFrom operator (((noteReading reading.signal reading.value reading.time
            worker).signalValueCache.get ⟨deviceId, metric⟩).map (·.value)) _ = false
          rw [hs, hget]
          exact hchanges)
      exact ⟨time, List.mem_append_right _ htime⟩

end

/-! ## The two drivers -/

/-- The replay reports the edges the hot path finds on the same readings. -/
def Agrees (digest : Option (Node F) → Option (Node F) → String) (rule : Rule F)
    (maxAges : Dict SignalKey Int) (readings : List (Reading F)) (result : SimulateReplayResult) :
    Prop :=
  result.wouldHaveFiredAt =
      edgesAt .fire (hotEdges digest rule readings (freshWorker digest rule maxAges)) ∧
    result.wouldHaveClearedAt =
      edgesAt .clear (hotEdges digest rule readings (freshWorker digest rule maxAges))

/-- What an accepted window reports: the replay of its samples. -/
theorem simulateReplay_ok {maxDays maxSamples : Nat} {maxAges : Dict SignalKey Int}
    {windowFrom windowTo : Datetime} {events : List (Reading F)} {result : SimulateReplayResult}
    (h : simulateReplay maxDays maxSamples rule maxAges windowFrom windowTo events = .ok result) :
    result.wouldHaveFiredAt =
        edgesAt .fire (replay rule maxAges (replayOrder maxSamples events) .empty {}) ∧
      result.wouldHaveClearedAt =
        edgesAt .clear (replay rule maxAges (replayOrder maxSamples events) .empty {}) := by
  unfold simulateReplay at h
  split at h
  · cases h
  · split at h
    · cases h
    · cases h
      exact ⟨rfl, rfl⟩

omit [PyFloat F] in
theorem mem_replayOrder {maxSamples : Nat} {events : List (Reading F)} {reading : Reading F}
    (h : reading ∈ replayOrder maxSamples events) : reading ∈ events :=
  List.mem_mergeSort.mp (List.mem_of_mem_take h)

/-- **The replay agrees with the hot path where no change leaf speaks.** For every metric rule and
all stored readings of its signals; and for a rule that is a change leaf, without a hold and without
a reset tree, exactly there. -/
theorem replay_agrees (digest : Option (Node F) → Option (Node F) → String)
    (maxDays maxSamples : Nat) (rule : Rule F) (maxAges : Dict SignalKey Int)
    (windowFrom windowTo : Datetime) (events : List (Reading F))
    (hmetric : rule.trigger = .metric)
    (hsignals : ∀ reading ∈ events, reading.signal ∈ referencedSignals rule.condition)
    {result : SimulateReplayResult}
    (h : simulateReplay maxDays maxSamples rule maxAges windowFrom windowTo events = .ok result) :
    (Unchanging rule (replayOrder maxSamples events) →
      Agrees digest rule maxAges (replayOrder maxSamples events) result) ∧
    ∀ deviceId metric operator,
      rule.condition = some (.leaf ⟨deviceId, metric, .change operator⟩) →
      rule.executionPolicy.resetCondition = none → rule.executionPolicy.forDuration = 0 →
      0 ≤ maxAges.getD ⟨deviceId, metric⟩ defaultStaleMetricAgeSeconds →
      (Agrees digest rule maxAges (replayOrder maxSamples events) result ↔
        Unchanging rule (replayOrder maxSamples events)) := by
  obtain ⟨hfired, hcleared⟩ := simulateReplay_ok h
  have hsamples : ∀ reading ∈ replayOrder maxSamples events,
      reading.signal ∈ referencedSignals rule.condition :=
    fun reading hr => hsignals reading (mem_replayOrder hr)
  have hfresh := inStep_fresh digest rule maxAges
  have henough : Unchanging rule (replayOrder maxSamples events) →
      Agrees digest rule maxAges (replayOrder maxSamples events) result := by
    intro hunch
    rw [Agrees, hfired, hcleared, hfresh.edges hmetric _ (quiet_fresh hunch) hsamples]
    exact ⟨rfl, rfl⟩
  refine ⟨henough, fun deviceId metric operator hc hr hhold hage => ⟨fun hagrees => ?_, henough⟩⟩
  intro node hnode path leaf op hleaf htest
  simp only [ruleTrees, hc, hr, Option.toList_some, Option.toList_none, List.append_nil,
    List.mem_singleton] at hnode
  subst hnode
  cases hleaf
  cases htest
  by_contra hchanges
  obtain ⟨time, htime⟩ := hotEdges_change hmetric hc hr hhold hage _ hfresh
    ⟨rfl, rfl, rfl, rfl⟩ hsamples ((Bool.not_eq_true _).mp hchanges)
  have hnothing : replay rule maxAges (replayOrder maxSamples events) .empty {} = [] :=
    replay_change hc maxAges _ (fun _ _ hmv => nomatch hmv) ⟨rfl, rfl, rfl, rfl⟩
  have hnone := hagrees.1
  rw [hfired, hnothing] at hnone
  -- the replay reports no fire at all, and the hot path at least one
  have hmem : time ∈ edgesAt .fire (hotEdges digest rule (replayOrder maxSamples events)
      (freshWorker digest rule maxAges)) :=
    List.mem_map.mpr ⟨(time, .fire), List.mem_filter.mpr ⟨htime, by simp⟩, rfl⟩
  rw [← hnone] at hmem
  cases hmem

/-! ## A rising temperature -/

/-- Fires whenever the temperature has increased. -/
def rising : Rule Int :=
  { thermostat with condition := some (.leaf ⟨"device", "temperature", .change .increased⟩) }

def temperatureAt (time : Datetime) (value : Int) : Reading Int :=
  ⟨time, ⟨"device", "temperature"⟩, value⟩

def rises : List (Reading Int) := [temperatureAt 0 20, temperatureAt (seconds 30) 35]

theorem replayOrder_rises : replayOrder 5000 rises = rises :=
  replayOrder_of_sorted (by decide) (by decide)

/-- The minute around two readings, replayed. -/
theorem simulateReplay_rises (rule : Rule Int) :
    simulateReplay 7 5000 rule .empty 0 (seconds 60) rises =
      .ok
        { samples := 2
          wouldHaveFiredAt := edgesAt .fire (replay rule .empty rises .empty {})
          wouldHaveClearedAt := edgesAt .clear (replay rule .empty rises .empty {})
          truncated := false } := by
  have hwindow : ¬ seconds 60 ≤ 0 := by decide
  have hspan : ¬ seconds (86400 * 7) < elapsed (seconds 60) 0 := by decide
  unfold simulateReplay
  rw [if_neg hwindow, if_neg (by exact hspan), replayOrder_rises]
  rfl

/-- The thermostat fires at the second reading, on both sides. -/
theorem replay_agrees_thermostat :
    Agrees (fun _ _ => "digest") thermostat .empty (replayOrder 5000 rises)
      { samples := 2
        wouldHaveFiredAt := edgesAt .fire (replay thermostat .empty rises .empty {})
        wouldHaveClearedAt := edgesAt .clear (replay thermostat .empty rises .empty {})
        truncated := false } :=
  (replay_agrees (fun _ _ => "digest") 7 5000 thermostat .empty 0 (seconds 60) rises rfl
    (by decide) (simulateReplay_rises thermostat)).1 (by
      intro node hnode path leaf operator hleaf htest
      obtain rfl : node = .leaf ⟨"device", "temperature", .compare .gt (.static 30) 0⟩ := by
        simpa [ruleTrees, thermostat] using hnode
      cases hleaf
      cases htest)

/-- **The replay misses the increase:** the hot path fires at the second reading, the replay
reports nothing. -/
theorem increase_missed :
    ¬ ∀ result, simulateReplay 7 5000 rising .empty 0 (seconds 60) rises = .ok result →
      Agrees (fun _ _ => "digest") rising .empty (replayOrder 5000 rises) result := by
  intro h
  have hfired := (h _ (simulateReplay_rises rising)).1
  rw [replayOrder_rises] at hfired
  exact absurd hfired (by decide +kernel)

end IotSaas.Rules
