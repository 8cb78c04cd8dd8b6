import IotSaas.Rules.Cache
import IotSaas.Rules.Calls

/-!
# `Rules/HotPath.lean` — `evaluate_and_dispatch`, undisturbed

One reading through the cache shift and the loop over the rules registered under its signal, with
no other task in between. What leaves the loop is a log: each evaluation with the snapshot it was
shown, what its tree came to, and the firing handed to `_dispatch_actions`, if any.

A rule's own entries in that log are a history in the sense of `Calls.lean`: its state is
aligned once, and from then on only ever evaluated (`Recorded`, `Recorded.callAt`). That is how
facts about calls become facts about readings.
-/

set_option autoImplicit false

namespace IotSaas.Rules

open Lib

variable {F : Type} [PyFloat F]

/-- One evaluation the loop made. -/
structure Evaluated (F : Type) where
  rule : Rule F
  snapshot : MetricSnapshot F
  now : Datetime
  tree : Option Bool
  firing : Option Firing

/-- The loop over `_rule_cache.get(signal)`. -/
def evaluateRules (digest : Option (Node F) → Option (Node F) → String) (now : Datetime) :
    List (Rule F) → Worker F → List (Evaluated F) × Worker F
  | [], worker => ([], worker)
  | rule :: rest, worker =>
      let snapshot := snapshotForSignals worker.signalValueCache (referencedSignals rule.condition)
      let r := evaluateCached digest rule now worker
      let rs := evaluateRules digest now rest r.2
      ({ rule := rule
         snapshot := snapshot
         now := now
         tree := treeResult rule snapshot now (stateFor digest rule worker).1
         firing := r.1 } :: rs.1, rs.2)

/-- `evaluate_and_dispatch`. -/
def evaluateAndDispatch (digest : Option (Node F) → Option (Node F) → String) (signal : SignalKey)
    (value : F) (timestamp : Datetime) (worker : Worker F) : List (Evaluated F) × Worker F :=
  let worker := noteReading signal value timestamp worker
  evaluateRules digest timestamp (worker.caches.ruleCache.getD signal []) worker

/-! ## Fingerprints come to rest -/

omit [PyFloat F] in
@[simp] theorem align_conditionFingerprint (state : RuleState) (fingerprint : String) :
    (alignStateToCondition state fingerprint).conditionFingerprint = some fingerprint := by
  unfold alignStateToCondition
  repeat' split
  all_goals rfl

variable {fingerprint : String}

/-- A state already aligned stays as it is. -/
theorem align_of_eq {state : RuleState} (h : state.conditionFingerprint = some fingerprint) :
    alignStateToCondition state fingerprint = state := by
  unfold alignStateToCondition
  rw [h]
  dsimp only
  rw [if_pos rfl, ← h]

/-! ## One rule's view of the loop -/

/-- The state of rule `id`, aligned to `fingerprint`. -/
def alignedState (id : Uuid) (fingerprint : String) (worker : Worker F) : RuleState :=
  alignStateToCondition (worker.ruleStates.getD id {}) fingerprint

/-- The entries of `log` that evaluated rule `id`. -/
def entriesOf (id : Uuid) (log : List (Evaluated F)) : List (Evaluated F) :=
  log.filter fun e => e.rule.id = id

/-- The entries are what evaluating their rules, one after another from `state`, gives. -/
def Recorded : RuleState → List (Evaluated F) → Prop
  | _, [] => True
  | state, e :: rest =>
      (e.tree = treeResult e.rule e.snapshot e.now state ∧
        e.firing = (evaluate e.rule e.snapshot e.now state).1) ∧
      Recorded (evaluate e.rule e.snapshot e.now state).2 rest

/-- The state the entries leave. -/
def recordedFinal (state : RuleState) (log : List (Evaluated F)) : RuleState :=
  log.foldl (fun state e => (evaluate e.rule e.snapshot e.now state).2) state

theorem Recorded.append {state : RuleState} {log log' : List (Evaluated F)}
    (h : Recorded state log) (h' : Recorded (recordedFinal state log) log') :
    Recorded state (log ++ log') := by
  induction log generalizing state with
  | nil => exact h'
  | cons e rest ih => exact ⟨h.1, ih h.2 h'⟩

/-- The log of a stretch of the hot path as rule `id` sees it: what it recorded, where it left
the rule's state, and that the table's fingerprint stood. -/
structure Follows (id : Uuid) (fingerprint : String) (worker : Worker F)
    (log : List (Evaluated F)) (worker' : Worker F) : Prop where
  recorded : Recorded (alignedState id fingerprint worker) (entriesOf id log)
  final : alignedState id fingerprint worker' =
    recordedFinal (alignedState id fingerprint worker) (entriesOf id log)
  table : worker'.caches.ruleFingerprints.get id = some fingerprint

variable {id : Uuid}

theorem Follows.trans {worker worker' worker'' : Worker F} {log log' : List (Evaluated F)}
    (h : Follows id fingerprint worker log worker')
    (h' : Follows id fingerprint worker' log' worker'') :
    Follows id fingerprint worker (log ++ log') worker'' where
  recorded := by
    rw [entriesOf, List.filter_append]
    exact h.recorded.append (h.final ▸ h'.recorded)
  final := by
    rw [h'.final, h.final, entriesOf, entriesOf, entriesOf, List.filter_append]
    simp only [recordedFinal, List.foldl_append]
  table := h'.table

variable {worker : Worker F}

theorem Follows.nil (h : worker.caches.ruleFingerprints.get id = some fingerprint) :
    Follows id fingerprint worker [] worker := ⟨trivial, rfl, h⟩

/-- The state an evaluation of the rule itself finds and leaves. -/
theorem evaluateCached_self (digest : Option (Node F) → Option (Node F) → String) {rule : Rule F}
    (now : Datetime) (h : worker.caches.ruleFingerprints.get rule.id = some fingerprint) :
    (stateFor digest rule worker).1 = alignedState rule.id fingerprint worker ∧
    (evaluateCached digest rule now worker).1 =
      (evaluate rule (snapshotForSignals worker.signalValueCache (referencedSignals rule.condition))
        now (alignedState rule.id fingerprint worker)).1 ∧
    alignedState rule.id fingerprint (evaluateCached digest rule now worker).2 =
      (evaluate rule (snapshotForSignals worker.signalValueCache (referencedSignals rule.condition))
        now (alignedState rule.id fingerprint worker)).2 := by
  have hstate : (stateFor digest rule worker).1 = alignedState rule.id fingerprint worker := by
    simp [stateFor, fingerprintFor, h, alignedState]
  refine ⟨hstate, ?_, ?_⟩
  · rw [← hstate]
    rfl
  · have hset : (evaluateCached digest rule now worker).2.ruleStates.getD rule.id {} =
        (evaluate rule
          (snapshotForSignals worker.signalValueCache (referencedSignals rule.condition)) now
          (alignedState rule.id fingerprint worker)).2 := by
      rw [← hstate]
      simp only [evaluateCached, runCached, EntryPoint.apply, Dict.getD_set_self]
    rw [alignedState, hset]
    refine align_of_eq ?_
    rw [(evaluate_frame _ _ _ _).2.2]
    exact align_conditionFingerprint _ _

/-- Evaluating another rule leaves this one's state and fingerprint. -/
theorem evaluateCached_other (digest : Option (Node F) → Option (Node F) → String) {rule : Rule F}
    (worker : Worker F) (now : Datetime) (h : id ≠ rule.id) :
    (evaluateCached digest rule now worker).2.ruleStates.get id = worker.ruleStates.get id ∧
    (evaluateCached digest rule now worker).2.caches.ruleFingerprints.get id =
      worker.caches.ruleFingerprints.get id := by
  simp [evaluateCached, runCached, stateFor, Dict.get_set, h]

/-- One turn of the loop, as rule `id` sees it. -/
theorem evaluateCached_follows (digest : Option (Node F) → Option (Node F) → String) (rule : Rule F)
    (now : Datetime) (h : worker.caches.ruleFingerprints.get id = some fingerprint) :
    Follows id fingerprint worker
      [{ rule := rule
         snapshot := snapshotForSignals worker.signalValueCache (referencedSignals rule.condition)
         now := now
         tree := treeResult rule
           (snapshotForSignals worker.signalValueCache (referencedSignals rule.condition)) now
           (stateFor digest rule worker).1
         firing := (evaluateCached digest rule now worker).1 }]
      (evaluateCached digest rule now worker).2 := by
  by_cases hid : rule.id = id
  · subst hid
    obtain ⟨hstate, hfiring, hafter⟩ := evaluateCached_self digest now h
    refine ⟨?_, ?_, ?_⟩
    · simp only [entriesOf, List.filter_cons, decide_true, ↓reduceIte, List.filter_nil]
      exact ⟨⟨by rw [hstate], hfiring⟩, trivial⟩
    · simp only [entriesOf, List.filter_cons, decide_true, ↓reduceIte, List.filter_nil]
      exact hafter
    · simp [evaluateCached, runCached, stateFor, fingerprintFor, h]
  · -- another rule's turn records nothing for this one
    obtain ⟨hget, htable⟩ := evaluateCached_other digest worker now (Ne.symm hid)
    refine ⟨?_, ?_, htable.trans h⟩
    · simp only [entriesOf, List.filter_cons, hid, decide_false, Bool.false_eq_true, ↓reduceIte,
        List.filter_nil]
      exact trivial
    · simp only [entriesOf, List.filter_cons, hid, decide_false, Bool.false_eq_true, ↓reduceIte,
        List.filter_nil]
      simp only [alignedState, Dict.getD, hget]
      rfl

theorem evaluateRules_follows (digest : Option (Node F) → Option (Node F) → String) (now : Datetime)
    (rules : List (Rule F)) :
    ∀ {worker : Worker F}, worker.caches.ruleFingerprints.get id = some fingerprint →
      Follows id fingerprint worker (evaluateRules digest now rules worker).1
        (evaluateRules digest now rules worker).2 := by
  induction rules with
  | nil => exact fun h => .nil h
  | cons rule rest ih =>
    intro worker h
    have hhead := evaluateCached_follows digest rule now h
    exact hhead.trans (ih hhead.table)

/-- **A reading, as one rule sees it.** -/
theorem evaluateAndDispatch_follows (digest : Option (Node F) → Option (Node F) → String)
    (signal : SignalKey) (value : F) (timestamp : Datetime)
    (h : worker.caches.ruleFingerprints.get id = some fingerprint) :
    Follows id fingerprint worker
      (evaluateAndDispatch digest signal value timestamp worker).1
      (evaluateAndDispatch digest signal value timestamp worker).2 := by
  have htable : (noteReading signal value timestamp worker).caches.ruleFingerprints.get id =
      some fingerprint := h
  have hrest := evaluateRules_follows digest timestamp
    (worker.caches.ruleCache.getD signal []) htable
  exact ⟨hrest.recorded, hrest.final, hrest.table⟩

/-- The loop replaces no cache. -/
theorem evaluateRules_ruleCache (digest : Option (Node F) → Option (Node F) → String)
    (now : Datetime) (rules : List (Rule F)) (worker : Worker F) :
    (evaluateRules digest now rules worker).2.caches.ruleCache = worker.caches.ruleCache := by
  induction rules generalizing worker with
  | nil => rfl
  | cons rule rest ih => exact ih _

theorem evaluateAndDispatch_ruleCache (digest : Option (Node F) → Option (Node F) → String)
    (signal : SignalKey) (value : F) (timestamp : Datetime) (worker : Worker F) :
    (evaluateAndDispatch digest signal value timestamp worker).2.caches.ruleCache =
      worker.caches.ruleCache :=
  evaluateRules_ruleCache digest timestamp _ _

/-- Whom a reading evaluates, and when. -/
theorem mem_evaluateRules {digest : Option (Node F) → Option (Node F) → String} {now : Datetime}
    {rules : List (Rule F)} {e : Evaluated F} (h : e ∈ (evaluateRules digest now rules worker).1) :
    e.rule ∈ rules ∧ e.now = now := by
  induction rules generalizing worker with
  | nil => cases h
  | cons rule rest ih =>
    rcases List.mem_cons.mp h with rfl | h
    · exact ⟨List.mem_cons_self, rfl⟩
    · exact ⟨List.mem_cons_of_mem _ (ih h).1, (ih h).2⟩

/-! ## From entries to calls -/

/-- An entry as a call on the rule's state. -/
def Evaluated.toCall (e : Evaluated F) : Call F := .evaluate e.rule e.snapshot e.now

/-- Recorded entries are the trace of their calls. -/
theorem Recorded.callAt {state : RuleState} {log : List (Evaluated F)} (h : Recorded state log)
    {n : Nat} {e : Evaluated F} (he : log[n]? = some e) :
    ∃ m, CallAt (trace callStep state (log.map Evaluated.toCall)) n m ∧ m.event = e.toCall ∧
      m.out = e.firing ∧ treeOf m = some e.tree := by
  induction log generalizing state n with
  | nil => cases he
  | cons head rest ih =>
    cases n with
    | zero =>
      obtain rfl : head = e := by simpa using he
      refine ⟨moment callStep state head.toCall, rfl, rfl, ?_, ?_⟩
      · exact h.1.2.symm
      · simp only [treeOf, moment_event, moment_before, Evaluated.toCall]
        rw [h.1.1]
    | succ n =>
      obtain ⟨m, hm, hrest⟩ := ih h.2 (by simpa using he)
      exact ⟨m, callAt_cons_succ.mpr hm, hrest⟩

/-- From a fresh state, entry `n` is call `n + 1` of the history that aligns first. -/
theorem Recorded.history_callAt {log : List (Evaluated F)}
    (h : Recorded (alignStateToCondition {} fingerprint) log) {n : Nat} {e : Evaluated F}
    (he : log[n]? = some e) :
    ∃ m, CallAt (history (.alignStateToCondition fingerprint :: log.map Evaluated.toCall))
        (n + 1) m ∧ m.event = e.toCall ∧ m.out = e.firing ∧ treeOf m = some e.tree := by
  obtain ⟨m, hm, hrest⟩ := h.callAt he
  exact ⟨m, callAt_cons_succ.mpr hm, hrest⟩

end IotSaas.Rules
