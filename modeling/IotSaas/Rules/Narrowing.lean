import IotSaas.Rules.Cache
import IotSaas.Rules.Calls
import IotSaas.Rules.Signals

/-!
# `Rules/Narrowing.lean` — the snapshot a rule is shown

`evaluate_and_dispatch` does not hand a rule the whole value cache; it hands it the signals
`referenced_signals(rule.condition)` lists, and `load_rule_cache` registers the rule under the
same list. That is everything the evaluator reads — unless the strategy looks at a reset tree
that names some other signal (`ResetCovered`). Then the reset tree sees a hole where the full
cache has a reading, and an update of that signal does not even wake the rule.
-/

set_option autoImplicit false

namespace IotSaas.Rules

open Lib

variable {F : Type} [PyFloat F]

/-- The rule cannot tell the narrowed snapshot from the whole cache. -/
def NarrowingExact (rule : Rule F) : Prop :=
  ∀ (cache : MetricSnapshot F) (now : Datetime) (state : RuleState),
    evaluate rule (snapshotForSignals cache (referencedSignals rule.condition)) now state =
      evaluate rule cache now state

/-- A signal whose cached value can make a difference to the rule is one it is registered under,
after any reload that loads the rule. -/
def RegisteredUnderInputs (digest : Option (Node F) → Option (Node F) → String) (rule : Rule F) :
    Prop :=
  ∀ (rows : List (Rule F)), rule ∈ rows → ∀ (signal : SignalKey) (a b : MetricSnapshot F)
    (now : Datetime) (state : RuleState), (∀ other, other ≠ signal → a.get other = b.get other) →
    evaluate rule a now state ≠ evaluate rule b now state →
    rule ∈ (loadRuleCache digest rows).ruleCache.getD signal []

omit [PyFloat F] in
/-- Whatever reset tree the strategy looks at reads signals of the condition only. -/
def ResetCovered (rule : Rule F) : Prop :=
  rule.executionPolicy.strategy.ReadsReset →
    referencedSignals rule.executionPolicy.resetCondition ⊆ referencedSignals rule.condition

/-! ## Covered is enough -/

omit [PyFloat F] in
theorem agreeOn_snapshotForSignals (cache : MetricSnapshot F) {signals signals' : List SignalKey}
    (h : signals' ⊆ signals) : AgreeOn signals' (snapshotForSignals cache signals) cache := by
  intro signal hs
  rw [get_snapshotForSignals, if_pos (h hs)]

theorem narrowingExact_of_covered {rule : Rule F} (h : ResetCovered rule) :
    NarrowingExact rule := fun cache _ state =>
  evaluate_congr (agreeOn_snapshotForSignals cache (List.Subset.refl _))
    (fun hs => agreeOn_snapshotForSignals cache (h hs)) state

theorem registered_of_covered {digest : Option (Node F) → Option (Node F) → String}
    {rule : Rule F} (hmetric : rule.trigger = .metric) (h : ResetCovered rule) :
    RegisteredUnderInputs digest rule := by
  intro rows hmem signal a b now state hagree hne
  refine registered_iff.mpr ⟨hmem, hmetric, ?_⟩
  by_contra hout
  have hcond : AgreeOn (referencedSignals rule.condition) a b := fun s hs =>
    hagree s fun heq => hout (heq ▸ hs)
  exact hne (evaluate_congr hcond (fun hs => hcond.mono (h hs)) state)

/-! ## Uncovered shows -/

/-- Some readings make the leaf true, or re-arm it. Ordinary thresholds all can; what cannot is
a comparison with a not-a-number, or of a signal with itself across a positive hysteresis. -/
def CanAnswer (leaf : ConditionLeaf F) : Prop :=
  match leaf.test with
  | .compare operator rhs hysteresis =>
      ∃ value rhsValue : F,
        (match rhs with
          | .static threshold => rhsValue = threshold
          | .metric deviceId metric => (⟨deviceId, metric⟩ : SignalKey) = leafSignal leaf →
              rhsValue = value) ∧
        (compare value operator rhsValue = true ∨
          rearmConditionMet operator value rhsValue hysteresis false = true)
  | _ => True

/-- A leaf that misses one of its signals keeps its latch. -/
theorem evaluateLeaf_missing {leaf : ConditionLeaf F} {signal : SignalKey}
    {snapshot : MetricSnapshot F} (hs : signal ∈ leafSignals leaf)
    (hmissing : snapshot.get signal = none) (now : Datetime) (leafState : LeafState) :
    evaluateLeaf leaf snapshot now leafState = (none, leafState) := by
  unfold evaluateLeaf
  rcases mem_leafSignals hs with rfl | hr
  · rw [hmissing]
  · cases hg : snapshot.get (leafSignal leaf) with
    | none => rfl
    | some mv =>
      dsimp only
      split
      · rfl
      · cases leaf with
        | mk deviceId metric test =>
          cases test with
          | compare operator rhs hysteresis =>
            cases rhs with
            | static value => cases hr
            | metric rhsDevice rhsMetric =>
              cases hr
              simp [resolveRhsScalar, hmissing]
          | range operator low high => cases hr
          | set operator values => cases hr
          | change operator => cases hr

omit [PyFloat F] in
private theorem signalState_now (value : F) :
    signalState (some { value := value, timestamp := 0 }) 0 = .fresh := by
  simp [signalState, seconds, elapsed]

/-- The comparison of a leaf with both sides fresh. -/
private theorem evaluateLeaf_compare {deviceId : Uuid} {metric : String} {operator : Comparator}
    {rhs : ScalarRhs F} {hysteresis value rhsValue : F} {cache : MetricSnapshot F}
    (hv : cache.get ⟨deviceId, metric⟩ = some { value := value, timestamp := 0 })
    (hr : (resolveRhsScalar rhs cache 0).1 = some rhsValue) (latched : Bool) :
    (evaluateLeaf ⟨deviceId, metric, .compare operator rhs hysteresis⟩ cache 0 ⟨latched⟩).2 =
      ⟨if latched then
          !rearmConditionMet operator value rhsValue hysteresis (compare value operator rhsValue)
        else compare value operator rhsValue⟩ := by
  simp [evaluateLeaf, leafSignal, hv, signalState_now, hr]

/-- Re-arming asks whether the comparison holds only where it is its negation. -/
private theorem rearm_of_false {operator : Comparator} {value rhsValue hysteresis : F}
    (hraw : compare value operator rhsValue = false)
    (h : compare value operator rhsValue = true ∨
      rearmConditionMet operator value rhsValue hysteresis false = true) :
    rearmConditionMet operator value rhsValue hysteresis (compare value operator rhsValue) =
      true := by
  rcases h with h | h
  · rw [hraw] at h
    cases h
  · rw [hraw]
    exact h

/-- **A leaf that can answer has a latch some cache moves.** -/
theorem exists_latch_moved [Inhabited F] {leaf : ConditionLeaf F} (h : CanAnswer leaf) :
    ∃ (cache : MetricSnapshot F) (leafState : LeafState),
      (evaluateLeaf leaf cache 0 leafState).2 ≠ leafState := by
  cases leaf with
  | mk deviceId metric test =>
    cases test with
    | compare operator rhs hysteresis =>
      obtain ⟨value, rhsValue, hrhs, hor⟩ := h
      have hside : ∃ cache : MetricSnapshot F,
          cache.get ⟨deviceId, metric⟩ = some { value := value, timestamp := 0 } ∧
          (resolveRhsScalar rhs cache 0).1 = some rhsValue := by
        cases rhs with
        | static threshold =>
          exact ⟨Dict.empty.set ⟨deviceId, metric⟩ { value := value, timestamp := 0 }, by simp,
            congrArg some hrhs.symm⟩
        | metric rhsDevice rhsMetric =>
          by_cases heq : (⟨rhsDevice, rhsMetric⟩ : SignalKey) = ⟨deviceId, metric⟩
          · obtain rfl := hrhs heq
            refine ⟨Dict.empty.set ⟨deviceId, metric⟩ { value := rhsValue, timestamp := 0 },
              by simp, ?_⟩
            simp [resolveRhsScalar, heq, signalState_now]
          · refine ⟨(Dict.empty.set ⟨deviceId, metric⟩ { value := value, timestamp := 0 }).set
              ⟨rhsDevice, rhsMetric⟩ { value := rhsValue, timestamp := 0 }, ?_, ?_⟩
            · rw [Dict.get_set_ne _ _ (Ne.symm heq), Dict.get_set_self]
            · simp [resolveRhsScalar, signalState_now]
      obtain ⟨cache, hv, hr⟩ := hside
      -- true from an open latch, or re-armed from a closed one
      cases hraw : compare value operator rhsValue with
      | true =>
        refine ⟨cache, ⟨false⟩, ?_⟩
        rw [evaluateLeaf_compare hv hr, hraw]
        simp
      | false =>
        refine ⟨cache, ⟨true⟩, ?_⟩
        rw [evaluateLeaf_compare hv hr, rearm_of_false hraw hor]
        simp
    | range operator low high =>
      refine ⟨Dict.empty.set ⟨deviceId, metric⟩ { value := low, timestamp := 0 },
        ⟨!compareRange operator low low high⟩, ?_⟩
      simp [evaluateLeaf, leafSignal, signalState_now]
    | set operator values =>
      refine ⟨Dict.empty.set ⟨deviceId, metric⟩ { value := default, timestamp := 0 },
        ⟨!compareSet operator default values⟩, ?_⟩
      simp [evaluateLeaf, leafSignal, signalState_now]
    | change operator =>
      refine ⟨Dict.empty.set ⟨deviceId, metric⟩ { value := default, timestamp := 0 },
        ⟨!compareChange operator { value := (default : F), timestamp := 0 }⟩, ?_⟩
      simp [evaluateLeaf, leafSignal, signalState_now]

/-- A disarmed rule that looks at its reset tree leaves the tree's latches. -/
theorem evaluate_resetLeafStates {rule : Rule F} {reset : Node F}
    (hreads : rule.executionPolicy.strategy.ReadsReset)
    (hreset : rule.executionPolicy.resetCondition = some reset) {snapshot : MetricSnapshot F}
    {now : Datetime} {state : RuleState} (ha : state.armed = false) :
    (evaluate rule snapshot now state).2.resetLeafStates =
      (evaluateNode snapshot now reset state.resetLeafStates []).2 := by
  have hlooks : (resetResult rule snapshot now state).isSome := by
    unfold resetResult
    rcases hreads with hs | hs <;> simp [ha, hs, evaluateReset, hreset]
  obtain ⟨reset', hreset', hlatches⟩ := rearmed_resetLeafStates_of_some hlooks
  obtain rfl := Option.some.inj (hreset.symm.trans hreset')
  rw [(evaluate_frame rule snapshot now state).2.1, hlatches]

/-- **An uncovered reset leaf that can answer is seen by the full cache alone.** -/
theorem not_narrowingExact [Inhabited F] {rule : Rule F} {reset : Node F} {path : Path}
    {leaf : ConditionLeaf F} {signal : SignalKey}
    (hreads : rule.executionPolicy.strategy.ReadsReset)
    (hreset : rule.executionPolicy.resetCondition = some reset) (hleaf : LeafAt reset path leaf)
    (hs : signal ∈ leafSignals leaf) (hout : signal ∉ referencedSignals rule.condition)
    (hcan : CanAnswer leaf) : ¬ NarrowingExact rule := by
  intro hexact
  obtain ⟨cache, latch, hmoved⟩ := exists_latch_moved hcan
  -- a disarmed rule with that latch: the whole cache moves it, the snapshot cannot
  let state : RuleState := { armed := false, resetLeafStates := Dict.empty.set path latch }
  have hlatch : ∀ snapshot : MetricSnapshot F,
      (evaluate rule snapshot 0 state).2.resetLeafStates.get path =
        some (evaluateLeaf leaf snapshot 0 latch).2 := by
    intro snapshot
    rw [evaluate_resetLeafStates hreads hreset rfl]
    have h := evaluateNode_latch snapshot 0 hleaf state.resetLeafStates []
    rw [List.nil_append] at h
    rw [h, Dict.getD_set_self]
  have hmissing : (snapshotForSignals cache (referencedSignals rule.condition)).get signal =
      none := by
    rw [get_snapshotForSignals, if_neg hout]
  have hsame := congrArg (fun r => r.2.resetLeafStates.get path) (hexact cache 0 state)
  rw [hlatch, hlatch, evaluateLeaf_missing hs hmissing, Option.some.injEq] at hsame
  exact hmoved hsame.symm

/-! ## Exactness -/

/-- **Narrowing is exact, and registration complete, just when the reset tree is covered.** The
condition is enough for every rule; it is needed wherever each leaf of the reset tree can answer
some reading. -/
theorem narrowing_iff_covered [Inhabited F]
    (digest : Option (Node F) → Option (Node F) → String) (rule : Rule F)
    (hmetric : rule.trigger = .metric) :
    (ResetCovered rule → NarrowingExact rule ∧ RegisteredUnderInputs digest rule) ∧
    ((∀ reset path leaf, rule.executionPolicy.resetCondition = some reset →
        LeafAt reset path leaf → CanAnswer leaf) →
      NarrowingExact rule → ResetCovered rule) := by
  refine ⟨fun h => ⟨narrowingExact_of_covered h, registered_of_covered hmetric h⟩, ?_⟩
  intro hcan hexact hreads signal hs
  by_contra hout
  cases hreset : rule.executionPolicy.resetCondition with
  | none =>
    rw [hreset] at hs
    cases hs
  | some reset =>
    rw [hreset, referencedSignals] at hs
    obtain ⟨path, leaf, hleaf, hmem⟩ := mem_nodeSignals hs
    exact not_narrowingExact hreads hreset hleaf hmem hout (hcan reset path leaf hreset hleaf)
      hexact

/-- A pump that starts when the tank runs over and is re-armed by a float switch elsewhere. -/
def floodPump : Rule Int :=
  { id := "pump"
    tenantId := "tenant"
    condition := some (.leaf ⟨"tank", "level", .compare .gt (.static 80) 0⟩)
    executionPolicy :=
      { strategy := .resetCondition
        resetCondition := some (.leaf ⟨"float", "down", .compare .eq (.static 1) 0⟩) } }

/-- The tank over its mark and the float down. -/
def floodCache : MetricSnapshot Int :=
  (Dict.empty.set ⟨"tank", "level"⟩ { value := 90, timestamp := 0 }).set
    ⟨"float", "down"⟩ { value := 1, timestamp := 0 }

/-- The thermostat has no reset tree to cover; the pump's can answer and is not covered. -/
theorem narrowing_iff_covered_samples : NarrowingExact thermostat ∧ ¬ NarrowingExact floodPump :=
  ⟨((narrowing_iff_covered (fun _ _ => "") thermostat rfl).1 (by rintro (h | h) <;> cases h)).1,
    fun hexact => absurd
      ((narrowing_iff_covered (fun _ _ => "") floodPump rfl).2
        (by
          intro reset path leaf hreset hleaf
          cases hreset
          cases hleaf
          exact ⟨1, 1, rfl, .inl rfl⟩)
        hexact (.inl rfl))
      (by decide)⟩

/-- On the whole cache the disarmed pump re-arms and fires; on the snapshot it is shown it does
not, and no update of the float switch wakes it. -/
theorem floodPump_stuck :
    ¬ NarrowingExact floodPump ∧ ¬ RegisteredUnderInputs (fun _ _ => "") floodPump := by
  have hwhole : (evaluate floodPump floodCache 0 { armed := false }).1 =
      some { ruleId := "pump" } := by decide +kernel
  have hshown : (evaluate floodPump
      (snapshotForSignals floodCache (referencedSignals floodPump.condition)) 0
      { armed := false }).1 = none := by decide +kernel
  refine ⟨fun hexact => ?_, fun hreg => ?_⟩
  · rw [hexact floodCache 0, hwhole] at hshown
    cases hshown
  · -- the same cache before the float switch reported
    have hbefore : (evaluate floodPump
        (Dict.empty.set ⟨"tank", "level"⟩ { value := 90, timestamp := 0 }) 0
        { armed := false }).1 = none := by decide +kernel
    have hmem := hreg [floodPump] (by simp) ⟨"float", "down"⟩ floodCache
      (Dict.empty.set ⟨"tank", "level"⟩ { value := 90, timestamp := 0 }) 0 { armed := false }
      (fun other hne => Dict.get_set_ne _ _ hne)
      (fun heq => by rw [heq, hbefore] at hwhole; cases hwhole)
    revert hmem
    simp [registered_iff, floodPump, referencedSignals, nodeSignals, leafSignals, rhsSignal?,
      leafSignal]

end IotSaas.Rules
