import IotSaas.Rules.Evaluators

/-!
# `Rules/Cache.lean` — the worker's memory, and one evaluation out of it

The module-level dictionaries of `rules/service.py` and the synchronous code between them:
`load_rule_cache` after its query, `_snapshot_for_signals`, `_state_for`, and the body of the loop
in `evaluate_and_dispatch` up to the point where it has a firing to dispatch. None of this awaits,
so each definition is one atomic step of whatever task runs it.

A reload builds all five caches from the rows and swaps them in together. `registered_iff` says
what the signal-keyed one then holds.
-/

set_option autoImplicit false

namespace IotSaas.Rules

open Lib

variable {F : Type}

/-! ## The rule caches -/

/-- What `load_rule_cache` replaces. -/
structure RuleCaches (F : Type) where
  /-- Metric rules only, under every signal their condition reads. -/
  ruleCache : Dict SignalKey (List (Rule F)) := .empty
  rulesById : Dict Uuid (Rule F) := .empty
  scheduledRules : List (Rule F) := []
  /-- Under the device they watch. -/
  deviceStatusRules : Dict Uuid (List (Rule F)) := .empty
  ruleFingerprints : Dict Uuid String := .empty

/-- `new_cache.setdefault(signal, []).append(rule)` for every signal of the condition. -/
def cacheUnder (cache : Dict SignalKey (List (Rule F))) (rule : Rule F)
    (signals : List SignalKey) : Dict SignalKey (List (Rule F)) :=
  signals.foldl (fun cache signal => cache.append signal rule) cache

/-- One turn of the loop over the rows. -/
def registerRule (caches : RuleCaches F) (rule : Rule F) : RuleCaches F :=
  let caches := { caches with rulesById := caches.rulesById.set rule.id rule }
  -- only a metric rule is registered under signals
  match rule.trigger with
  | .schedule _ _ => { caches with scheduledRules := caches.scheduledRules ++ [rule] }
  | .deviceStatus watched _ =>
      { caches with deviceStatusRules := caches.deviceStatusRules.append watched rule }
  | .manual => caches
  | .metric =>
      { caches with
        ruleCache := cacheUnder caches.ruleCache rule (referencedSignals rule.condition) }

/-- `load_rule_cache`, given the rows its query returned. -/
def loadRuleCache (digest : Option (Node F) → Option (Node F) → String) (rows : List (Rule F)) :
    RuleCaches F :=
  let loaded := rows.foldl registerRule {}
  { loaded with
    ruleFingerprints := loaded.rulesById.mapValues (conditionFingerprint digest) }

/-! ## The worker -/

/-- The process's memory. -/
structure Worker (F : Type) where
  caches : RuleCaches F := {}
  ruleStates : Dict Uuid RuleState := .empty
  signalValueCache : MetricSnapshot F := .empty
  stalenessThresholds : Dict SignalKey Int := .empty

/-- `_snapshot_for_signals`. -/
def snapshotForSignals (signalValueCache : MetricSnapshot F) (signals : List SignalKey) :
    MetricSnapshot F :=
  signals.foldl
    (fun snapshot signal =>
      match signalValueCache.get signal with
      | some value => snapshot.set signal value
      | none => snapshot)
    .empty

/-- The stored fingerprint of a rule, computed where the table has none. -/
def fingerprintFor (digest : Option (Node F) → Option (Node F) → String) (rule : Rule F)
    (caches : RuleCaches F) : String :=
  (caches.ruleFingerprints.get rule.id).getD (conditionFingerprint digest rule)

/-- `_state_for`: the rule's state, aligned to the fingerprint the table has for its id. -/
def stateFor (digest : Option (Node F) → Option (Node F) → String) (rule : Rule F)
    (worker : Worker F) : RuleState × Worker F :=
  let fingerprint := fingerprintFor digest rule worker.caches
  let state := alignStateToCondition (worker.ruleStates.getD rule.id {}) fingerprint
  (state,
    { worker with
      ruleStates := worker.ruleStates.set rule.id state
      caches := { worker.caches with
        ruleFingerprints := worker.caches.ruleFingerprints.set rule.id fingerprint } })

/-- `DEFAULT_STALE_METRIC_AGE_SECONDS`. -/
def defaultStaleMetricAgeSeconds : Int := 90

/-- The cache shift at the head of `evaluate_and_dispatch`. -/
def noteReading (signal : SignalKey) (value : F) (timestamp : Datetime) (worker : Worker F) :
    Worker F :=
  let maxAge := worker.stalenessThresholds.getD signal defaultStaleMetricAgeSeconds
  let prior := worker.signalValueCache.get signal
  { worker with
    signalValueCache := worker.signalValueCache.set signal
      { value := value
        timestamp := timestamp
        maxAgeSeconds := maxAge
        previousValue := prior.map (·.value)
        previousTimestamp := prior.map (·.timestamp) } }

variable [PyFloat F]

/-- The evaluator's two entry points that keep state. -/
inductive EntryPoint where
  | evaluate | evaluateEvent
  deriving DecidableEq

def EntryPoint.apply (entry : EntryPoint) (rule : Rule F) (snapshot : MetricSnapshot F)
    (now : Datetime) (state : RuleState) : Option Firing × RuleState :=
  match entry with
  | .evaluate => Rules.evaluate rule snapshot now state
  | .evaluateEvent => Rules.evaluateEvent rule snapshot now state

/-- One evaluation out of the worker's memory: the narrowed snapshot, the aligned state, the call.
Both `evaluate_and_dispatch` and `run_rule_out_of_band` do this much before their first await. -/
def runCached (digest : Option (Node F) → Option (Node F) → String) (entry : EntryPoint)
    (rule : Rule F) (now : Datetime) (worker : Worker F) : Option Firing × Worker F :=
  -- the signals of the condition, not those of the reset tree
  let needed := referencedSignals rule.condition
  let snapshot := snapshotForSignals worker.signalValueCache needed
  let (state, worker) := stateFor digest rule worker
  let (firing, state) := entry.apply rule snapshot now state
  (firing, { worker with ruleStates := worker.ruleStates.set rule.id state })

/-- One turn of the loop of `evaluate_and_dispatch`, up to the dispatch. -/
def evaluateCached (digest : Option (Node F) → Option (Node F) → String) (rule : Rule F)
    (now : Datetime) (worker : Worker F) : Option Firing × Worker F :=
  runCached digest .evaluate rule now worker

/-- The state an evaluation leaves, and that it touches no other rule's. -/
theorem runCached_get (digest : Option (Node F) → Option (Node F) → String) (entry : EntryPoint)
    (rule : Rule F) (now : Datetime) (worker : Worker F) (id : Uuid) :
    (runCached digest entry rule now worker).2.ruleStates.get id =
      if id = rule.id then
        some (entry.apply rule
          (snapshotForSignals worker.signalValueCache (referencedSignals rule.condition)) now
          (stateFor digest rule worker).1).2
      else worker.ruleStates.get id := by
  by_cases h : id = rule.id
  · subst h
    simp [runCached]
  · simp [runCached, stateFor, Dict.get_set, h]

theorem runCached_getD (digest : Option (Node F) → Option (Node F) → String) (entry : EntryPoint)
    (rule : Rule F) (now : Datetime) (worker : Worker F) (id : Uuid) (default : RuleState) :
    (runCached digest entry rule now worker).2.ruleStates.getD id default =
      if id = rule.id then
        (entry.apply rule
          (snapshotForSignals worker.signalValueCache (referencedSignals rule.condition)) now
          (stateFor digest rule worker).1).2
      else worker.ruleStates.getD id default := by
  rw [Dict.getD, runCached_get]
  split <;> rfl

omit [PyFloat F]

/-! ## What a snapshot holds -/

private theorem get_snapshot_foldl (cache : MetricSnapshot F) (signals : List SignalKey)
    (acc : MetricSnapshot F) (signal : SignalKey)
    (hacc : acc.get signal = none ∨ acc.get signal = cache.get signal) :
    (signals.foldl (fun snapshot signal =>
        match cache.get signal with
        | some value => snapshot.set signal value
        | none => snapshot) acc).get signal =
      if signal ∈ signals then cache.get signal else acc.get signal := by
  induction signals generalizing acc with
  | nil => simp
  | cons head rest ih =>
    rw [List.foldl_cons]
    by_cases hs : signal = head
    · subst hs
      rw [if_pos List.mem_cons_self]
      cases hc : cache.get signal with
      | none =>
        have hnone : acc.get signal = none := by
          rcases hacc with h | h
          · exact h
          · rw [h, hc]
        rw [ih acc hacc]
        simp [hc, hnone]
      | some value =>
        rw [ih (acc.set signal value) (.inr (by rw [Dict.get_set_self, hc])), hc]
        simp
    · have hstep : ∀ acc' : MetricSnapshot F, acc'.get signal = acc.get signal →
          (rest.foldl (fun snapshot signal =>
            match cache.get signal with
            | some value => snapshot.set signal value
            | none => snapshot) acc').get signal =
          if signal ∈ head :: rest then cache.get signal else acc.get signal := by
        intro acc' hacc'
        rw [ih acc' (by rw [hacc']; exact hacc), hacc']
        simp [hs]
      cases hc : cache.get head with
      | none => exact hstep acc rfl
      | some value => exact hstep _ (Dict.get_set_ne acc value hs)

/-- A narrowed snapshot is the cache on the signals it was narrowed to, and empty elsewhere. -/
theorem get_snapshotForSignals (cache : MetricSnapshot F) (signals : List SignalKey)
    (signal : SignalKey) : (snapshotForSignals cache signals).get signal =
      if signal ∈ signals then cache.get signal else none :=
  get_snapshot_foldl cache signals .empty signal (.inl rfl)

/-! ## What a reload registers -/

variable {signal : SignalKey}

theorem mem_cacheUnder {cache : Dict SignalKey (List (Rule F))} {rule rule' : Rule F}
    {signals : List SignalKey} :
    rule' ∈ (cacheUnder cache rule signals).getD signal [] ↔
      rule' ∈ cache.getD signal [] ∨ rule' = rule ∧ signal ∈ signals := by
  unfold cacheUnder
  induction signals generalizing cache with
  | nil => simp
  | cons head rest ih =>
    rw [List.foldl_cons, ih, Dict.mem_append]
    constructor
    · rintro ((h | ⟨rfl, rfl⟩) | ⟨rfl, h⟩)
      · exact .inl h
      · exact .inr ⟨rfl, List.mem_cons_self⟩
      · exact .inr ⟨rfl, List.mem_cons_of_mem _ h⟩
    · rintro (h | ⟨rfl, h⟩)
      · exact .inl (.inl h)
      · rcases List.mem_cons.mp h with rfl | h
        · exact .inl (.inr ⟨rfl, rfl⟩)
        · exact .inr ⟨rfl, h⟩

/-- Registered under each of its signals once. -/
theorem cacheUnder_getD (rule : Rule F) {signals : List SignalKey} (hnodup : signals.Nodup)
    (cache : Dict SignalKey (List (Rule F))) (signal : SignalKey) :
    (cacheUnder cache rule signals).getD signal [] =
      cache.getD signal [] ++ if signal ∈ signals then [rule] else [] := by
  unfold cacheUnder
  induction signals generalizing cache with
  | nil => simp
  | cons head rest ih =>
    obtain ⟨hhead, hrest⟩ := List.nodup_cons.mp hnodup
    rw [List.foldl_cons, ih hrest]
    by_cases h : signal = head
    · subst h
      simp [Dict.append, hhead]
    · simp [Dict.append, Dict.getD_set_ne _ _ _ h, h]

variable {caches : RuleCaches F}

/-- One row enters the signal cache if it is a metric rule, under its condition's signals. -/
theorem mem_registerRule {rule rule' : Rule F} :
    rule' ∈ (registerRule caches rule).ruleCache.getD signal [] ↔
      rule' ∈ caches.ruleCache.getD signal [] ∨
        rule' = rule ∧ rule.trigger = .metric ∧ signal ∈ referencedSignals rule.condition := by
  unfold registerRule
  cases ht : rule.trigger with
  | metric => simp [mem_cacheUnder]
  | schedule cron timezone => simp
  | manual => simp
  | deviceStatus watched transition => simp

variable {rows : List (Rule F)} {rule : Rule F}

private theorem mem_foldl_registerRule :
    rule ∈ (rows.foldl registerRule caches).ruleCache.getD signal [] ↔
      rule ∈ caches.ruleCache.getD signal [] ∨
        rule ∈ rows ∧ rule.trigger = .metric ∧ signal ∈ referencedSignals rule.condition := by
  induction rows generalizing caches with
  | nil => simp
  | cons row rest ih =>
    rw [List.foldl_cons, ih, mem_registerRule]
    constructor
    · rintro ((h | ⟨rfl, h⟩) | ⟨hmem, h⟩)
      · exact .inl h
      · exact .inr ⟨List.mem_cons_self, h⟩
      · exact .inr ⟨List.mem_cons_of_mem _ hmem, h⟩
    · rintro (h | ⟨hmem, h⟩)
      · exact .inl (.inl h)
      · rcases List.mem_cons.mp hmem with rfl | hmem
        · exact .inl (.inr ⟨rfl, h⟩)
        · exact .inr ⟨hmem, h⟩

variable {digest : Option (Node F) → Option (Node F) → String}

/-- **A reload registers exactly the metric rows, each under its condition's signals.** -/
theorem registered_iff :
    rule ∈ (loadRuleCache digest rows).ruleCache.getD signal [] ↔
      rule ∈ rows ∧ rule.trigger = .metric ∧ signal ∈ referencedSignals rule.condition := by
  have h : rule ∈ (rows.foldl registerRule ({} : RuleCaches F)).ruleCache.getD signal [] ↔ _ :=
    mem_foldl_registerRule
  simpa [loadRuleCache] using h

@[simp] theorem registerRule_rulesById (caches : RuleCaches F) (rule : Rule F) :
    (registerRule caches rule).rulesById = caches.rulesById.set rule.id rule := by
  unfold registerRule
  cases rule.trigger <;> rfl

private theorem get_foldl_rulesById (hsame : ∀ row ∈ rows, row.id = rule.id → row = rule)
    (h : rule ∈ rows ∨ caches.rulesById.get rule.id = some rule) :
    (rows.foldl registerRule caches).rulesById.get rule.id = some rule := by
  induction rows generalizing caches with
  | nil => simpa using h
  | cons row rest ih =>
    rw [List.foldl_cons]
    refine ih (fun r hr => hsame r (List.mem_cons_of_mem _ hr)) ?_
    rw [registerRule_rulesById, Dict.get_set]
    by_cases hid : rule.id = row.id
    · rw [if_pos hid, hsame row List.mem_cons_self hid.symm]
      exact .inr rfl
    · rw [if_neg hid]
      rcases h with h | h
      · rcases List.mem_cons.mp h with rfl | h
        · exact absurd rfl hid
        · exact .inl h
      · exact .inr h

private theorem id_of_foldl_rulesById {id : Uuid}
    (hacc : ∀ rule, caches.rulesById.get id = some rule → rule.id = id)
    (h : (rows.foldl registerRule caches).rulesById.get id = some rule) : rule.id = id := by
  induction rows generalizing caches with
  | nil => exact hacc rule h
  | cons row rest ih =>
    refine ih (fun found hf => ?_) h
    rw [registerRule_rulesById, Dict.get_set] at hf
    by_cases hid : id = row.id
    · rw [if_pos hid] at hf
      rw [← Option.some.inj hf, hid]
    · rw [if_neg hid] at hf
      exact hacc found hf

/-- A rule found by an id has that id. -/
theorem id_of_rulesById {id : Uuid} (h : (loadRuleCache digest rows).rulesById.get id = some rule) :
    rule.id = id := by
  have hempty : ∀ rule, ({} : RuleCaches F).rulesById.get id = some rule → rule.id = id :=
    fun _ hf => nomatch hf
  exact id_of_foldl_rulesById hempty h

/-- Every loaded rule is found by its id, ids being unique. -/
theorem rulesById_of_mem (hsame : ∀ row ∈ rows, row.id = rule.id → row = rule) (h : rule ∈ rows) :
    (loadRuleCache digest rows).rulesById.get rule.id = some rule :=
  get_foldl_rulesById hsame (.inl h)

/-- After a reload the table has every loaded rule's own fingerprint. -/
theorem ruleFingerprints_of_mem (hsame : ∀ row ∈ rows, row.id = rule.id → row = rule)
    (h : rule ∈ rows) :
    (loadRuleCache digest rows).ruleFingerprints.get rule.id =
      some (conditionFingerprint digest rule) :=
  congrArg (Option.map (conditionFingerprint digest)) (get_foldl_rulesById hsame (.inl h))

end IotSaas.Rules
