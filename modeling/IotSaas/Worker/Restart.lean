import IotSaas.Lib.Reach
import IotSaas.Rules.Admission
import IotSaas.Worker.Tasks
import Mathlib.Data.List.Nodup

/-!
# `Worker/Restart.lean` — start-up with a checkpoint

A worker that stopped gracefully has written all its rule states to Redis; the next one loads the
rules, reads the checkpoint and assigns it over `_rule_states`. The read is awaited, and the ingest
loop does not wait for it: as soon as the rules are loaded a reading evaluates them, from fresh
states. What that evaluation does is overwritten by the assignment, and what it should have known —
the last fire, the open episode — comes too late (`reading_before_restore`).

The checkpoint is modelled as the states themselves: the codec of `rule_state_to_dict` and
`rule_state_from_dict` is one-to-one on states, and start-up does not look inside.
-/

set_option autoImplicit false

namespace IotSaas.Worker

open Lib Rules Ingestion

variable {F : Type}

namespace Restart

/-- `snapshot_rule_states`, as the final one of `run()`. -/
def snapshotRuleStates (worker : Rules.Worker F) : Dict Uuid RuleState := worker.ruleStates

/-- `restore_rule_states` after its read: every checkpointed state of a rule that is loaded
replaces what is there. -/
def restoreRuleStates (checkpoint : Dict Uuid RuleState) (worker : Rules.Worker F) :
    Rules.Worker F :=
  { worker with
    ruleStates := ⟨fun id =>
      match checkpoint.get id with
      | some state =>
          if (worker.caches.rulesById.get id).isSome then some state
          else worker.ruleStates.get id
      | none => worker.ruleStates.get id⟩ }

/-- Where `rule_cache_loop` is in its start-up. -/
inductive Phase where
  /-- Before the swap of `load_rule_cache`. -/
  | loading
  /-- Awaiting the Redis read. -/
  | reading
  /-- With the checkpoint, before the assignment. -/
  | assigning
  | restored
  deriving DecidableEq

structure State (F : Type) where
  checkpoint : Dict Uuid RuleState
  tasks : Tasks.State F := {}
  phase : Phase := .loading
  /-- What the last evaluation since start-up left, by rule. -/
  sinceStart : Dict Uuid RuleState := .empty
  /-- The fires since start-up. -/
  fires : List (Rule F × Datetime) := []

inductive Event (F : Type) where
  | load (rows : List (Rule F))
  | read
  | assign
  /-- A step of the ingest loop. -/
  | message (tenantId : Uuid) (signal : SignalKey) (value : F) (timestamp : Datetime)
  | evaluate
  | hotAwait

/-- The step of `Tasks.lean` behind an event of the ingest loop. -/
def Event.task? (e : Event F) : Option (Tasks.Event F) :=
  match e with
  | .message tenantId signal value timestamp => some (.reading tenantId signal value timestamp)
  | .evaluate => some .evaluate
  | .hotAwait => some .hotAwait
  | .load _ | .read | .assign => none

/-- The evaluation an event makes. -/
def State.evaluation? (s : State F) (e : Event F) : Option (Tasks.Evaluation F) :=
  e.task?.bind s.tasks.evaluation?

/-- What an evaluation adds to the record of fires. -/
def firesOf (rule : Rule F) (now : Datetime) (firing : Option Firing) : List (Rule F × Datetime) :=
  match firing with
  | some ⟨_, .fire⟩ => [(rule, now)]
  | some ⟨_, .clear⟩ | none => []

section

variable [PyFloat F]

def step (digest : Option (Node F) → Option (Node F) → String)
    (directory : Uuid → Option DeviceDirectoryRecord) (s : State F) (e : Event F) :
    Option (State F) :=
  match e with
  | .load rows =>
      if s.phase = .loading then
        (Tasks.step digest directory s.tasks (.reload rows)).map fun tasks =>
          { s with tasks := tasks, phase := .reading }
      else none
  | .read => if s.phase = .reading then some { s with phase := .assigning } else none
  | .assign =>
      if s.phase = .assigning ∧ s.tasks.atAwait = true then
        some { s with
          tasks := { s.tasks with worker := restoreRuleStates s.checkpoint s.tasks.worker }
          phase := .restored }
      else none
  | .message tenantId signal value timestamp =>
      (Tasks.step digest directory s.tasks (.reading tenantId signal value timestamp)).map
        fun tasks => { s with tasks := tasks }
  | .evaluate =>
      match s.tasks.evaluation? .evaluate with
      | none => none
      | some evaluation =>
          let rule := evaluation.rule
          let r := runCached digest evaluation.entry rule evaluation.now s.tasks.worker
          (Tasks.step digest directory s.tasks .evaluate).map fun tasks =>
            { s with
              tasks := tasks
              sinceStart := s.sinceStart.set rule.id (r.2.ruleStates.getD rule.id {})
              fires := s.fires ++ firesOf rule evaluation.now r.1 }
  | .hotAwait =>
      (Tasks.step digest directory s.tasks .hotAwait).map fun tasks => { s with tasks := tasks }

end

/-- A loaded rule. -/
def Known (s : State F) (id : Uuid) : Prop :=
  (s.tasks.worker.caches.rulesById.get id).isSome

/-- **A graceful restart.** No fire comes sooner than its cooldown after the rule's last fire before
the stop; what an evaluation since start-up left is still there; and once the checkpoint is
assigned, a rule not evaluated since start-up has the state it was stopped in. -/
structure Graceful (s : State F) : Prop where
  cooled : ∀ rule now, (rule, now) ∈ s.fires → ∀ state t,
    s.checkpoint.get rule.id = some state → state.lastFiredAt = some t →
    seconds rule.executionPolicy.cooldown ≤ elapsed now t
  kept : ∀ id state, s.sinceStart.get id = some state →
    s.tasks.worker.ruleStates.get id = some state
  carried : s.phase = .restored → ∀ id state, s.checkpoint.get id = some state → Known s id →
    s.sinceStart.get id = none → s.tasks.worker.ruleStates.get id = some state

/-- A rule with a checkpointed state is evaluated only after the assignment. -/
def AfterRestore (s : State F) (e : Event F) : Prop :=
  ∀ evaluation, s.evaluation? e = some evaluation →
    (s.checkpoint.get evaluation.rule.id).isSome → s.phase = .restored

/-! ## The invariant -/

/-- The rules the ingest loop still holds. -/
def hotRules (hot : Tasks.Hot F) : List (Rule F) :=
  match hot with
  | .idle => []
  | .evaluating rest _ _ _ => rest
  | .dispatching _ rest _ _ _ => rest

@[simp] theorem hotRules_resume (rest : List (Rule F)) (tenantId deviceId : Uuid)
    (now : Datetime) : hotRules (.resume rest tenantId deviceId now) = rest := by
  cases rest <;> rfl

/-- The loop's rules are loaded ones. -/
structure Loaded (s : State F) : Prop where
  hot : ∀ rule ∈ hotRules s.tasks.hot, Known s rule.id
  cache : ∀ signal, ∀ rule ∈ s.tasks.worker.caches.ruleCache.getD signal [], Known s rule.id
  before : s.phase = .loading → ∀ id, ¬ Known s id

/-- What start-up keeps. -/
structure Kept (s : State F) : Prop where
  graceful : Graceful s
  loaded : Loaded s
  /-- Before the assignment no checkpointed rule has been evaluated. -/
  untouched : s.phase ≠ .restored → ∀ id, (s.checkpoint.get id).isSome →
    s.sinceStart.get id = none
  /-- After it, the last fire on record is no earlier than the last one before the stop. -/
  clock : s.phase = .restored → ∀ id state t, s.checkpoint.get id = some state →
    state.lastFiredAt = some t → Known s id → ∃ state' t',
      s.tasks.worker.ruleStates.get id = some state' ∧ state'.lastFiredAt = some t' ∧ t ≤ t'

/-- A step that leaves states, loaded rules, phase and record alone. -/
theorem Kept.quiet {s : State F} (h : Kept s) {tasks : Tasks.State F}
    (hstates : tasks.worker.ruleStates = s.tasks.worker.ruleStates)
    (hcaches : tasks.worker.caches = s.tasks.worker.caches)
    (hhot : ∀ rule ∈ hotRules tasks.hot, Known s rule.id) : Kept { s with tasks := tasks } := by
  have hknown : ∀ id, Known { s with tasks := tasks } id ↔ Known s id := by
    intro id
    unfold Known
    rw [hcaches]
  refine ⟨⟨h.graceful.cooled, fun id state hs => ?_, fun hp id state hc hk hn => ?_⟩,
    ⟨fun rule hr => (hknown _).mpr (hhot rule hr), fun signal rule hr => ?_, fun hp id hk => ?_⟩,
    h.untouched, fun hp id state t hc ht hk => ?_⟩
  · dsimp only
    rw [hstates]
    exact h.graceful.kept id state hs
  · dsimp only
    rw [hstates]
    exact h.graceful.carried hp id state hc ((hknown id).mp hk) hn
  · dsimp only at hr
    rw [hcaches] at hr
    exact (hknown _).mpr (h.loaded.cache signal rule hr)
  · exact h.loaded.before hp id ((hknown id).mp hk)
  · dsimp only
    rw [hstates]
    exact h.clock hp id state t hc ht ((hknown id).mp hk)

/-! ## Step by step -/

theorem get_restoreRuleStates {checkpoint : Dict Uuid RuleState} {worker : Rules.Worker F}
    {id : Uuid} {state : RuleState} (hc : checkpoint.get id = some state)
    (hk : (worker.caches.rulesById.get id).isSome) :
    (restoreRuleStates checkpoint worker).ruleStates.get id = some state := by
  simp [restoreRuleStates, hc, hk]

theorem get_restoreRuleStates_of_none {checkpoint : Dict Uuid RuleState} {worker : Rules.Worker F}
    {id : Uuid} (hc : checkpoint.get id = none) :
    (restoreRuleStates checkpoint worker).ruleStates.get id = worker.ruleStates.get id := by
  simp [restoreRuleStates, hc]

variable [PyFloat F] {digest : Option (Node F) → Option (Node F) → String}
  {directory : Uuid → Option DeviceDirectoryRecord} {s s' : State F}

theorem kept_load {rows : List (Rule F)} (h : Kept s)
    (hs : step digest directory s (.load rows) = some s') : Kept s' := by
  unfold step at hs
  dsimp only at hs
  by_cases hp : s.phase = .loading
  · rw [if_pos hp] at hs
    obtain ⟨tasks, htasks, rfl⟩ := Option.map_eq_some_iff.mp hs
    obtain ⟨hids, rfl⟩ := Tasks.step_reload htasks
    refine ⟨⟨h.graceful.cooled, h.graceful.kept, fun hr => nomatch hr⟩,
      ⟨fun rule hr => absurd (h.loaded.hot rule hr) (h.loaded.before hp rule.id),
        fun signal rule hr => ?_, fun hl => nomatch hl⟩,
      fun _ => h.untouched (by rw [hp]; exact fun hr => nomatch hr), fun hr => nomatch hr⟩
    -- what is cached under a signal is one of the rows, and those are found by id
    obtain ⟨hrow, -, -⟩ := registered_iff.mp hr
    unfold Known
    rw [rulesById_of_mem (fun row hrow' hid =>
      List.inj_on_of_nodup_map hids hrow' hrow hid) hrow]
    rfl
  · rw [if_neg hp] at hs
    cases hs

theorem kept_read (h : Kept s) (hs : step digest directory s .read = some s') : Kept s' := by
  unfold step at hs
  dsimp only at hs
  by_cases hp : s.phase = .reading
  · rw [if_pos hp] at hs
    obtain rfl := Option.some.inj hs
    exact ⟨⟨h.graceful.cooled, h.graceful.kept, fun hr => nomatch hr⟩,
      ⟨h.loaded.hot, h.loaded.cache, fun hl => nomatch hl⟩,
      fun _ => h.untouched (by rw [hp]; exact fun hr => nomatch hr), fun hr => nomatch hr⟩
  · rw [if_neg hp] at hs
    cases hs

/-- The assignment overwrites only what no evaluation has touched. -/
theorem kept_assign (h : Kept s) (hs : step digest directory s .assign = some s') : Kept s' := by
  obtain ⟨hguard, hs⟩ := Option.ite_none_right_eq_some.mp hs
  obtain rfl := Option.some.inj hs
  have huntouched := h.untouched (by rw [hguard.1]; exact fun hr => nomatch hr)
  refine ⟨⟨h.graceful.cooled, fun id state hsince => ?_,
      fun _ id state hc hk _ => get_restoreRuleStates hc hk⟩,
    ⟨h.loaded.hot, h.loaded.cache, fun hl => nomatch hl⟩, fun hr => absurd rfl hr,
    fun _ id state t hc ht hk => ⟨state, t, get_restoreRuleStates hc hk, ht, Int.le_refl t⟩⟩
  -- what was evaluated since start-up is not in the checkpoint
  cases hc : s.checkpoint.get id with
  | none => exact (get_restoreRuleStates_of_none hc).trans (h.graceful.kept id state hsince)
  | some checkpointed =>
    have hnone := huntouched id (by rw [hc]; rfl)
    rw [hnone] at hsince
    cases hsince

theorem kept_message {tenantId : Uuid} {signal : SignalKey} {value : F} {timestamp : Datetime}
    (h : Kept s)
    (hs : step digest directory s (.message tenantId signal value timestamp) = some s') :
    Kept s' := by
  obtain ⟨tasks, htasks, rfl⟩ := Option.map_eq_some_iff.mp hs
  obtain ⟨-, rfl⟩ := Tasks.step_reading htasks
  refine h.quiet rfl rfl fun rule hr => ?_
  rw [hotRules_resume] at hr
  exact h.loaded.cache signal rule hr

theorem kept_hotAwait (h : Kept s) (hs : step digest directory s .hotAwait = some s') :
    Kept s' := by
  obtain ⟨tasks, htasks, rfl⟩ := Option.map_eq_some_iff.mp hs
  obtain ⟨ruleId, awaits, rest, tenantId, deviceId, now, hhot, htasks⟩ :=
    Tasks.step_hotAwait htasks
  cases awaits with
  | nil =>
    subst htasks
    refine h.quiet rfl rfl fun rule hr => h.loaded.hot rule ?_
    rw [hotRules_resume] at hr
    rwa [hhot]
  | cons await awaits =>
    subst htasks
    refine h.quiet (by simp) (by simp) fun rule hr => h.loaded.hot rule ?_
    rwa [hhot]

/-! ## An evaluation -/

/-- The last fire on record only moves forward, and a fire keeps its cooldown from it. -/
theorem evaluate_clock (rule : Rule F) (snapshot : MetricSnapshot F) (now : Datetime)
    {state : RuleState} {t : Datetime} (ht : state.lastFiredAt = some t) :
    (∃ t', (evaluate rule snapshot now state).2.lastFiredAt = some t' ∧ t ≤ t') ∧
    ∀ firing, (evaluate rule snapshot now state).1 = some firing → firing.edge = .fire →
      seconds rule.executionPolicy.cooldown ≤ elapsed now t := by
  have hcooled : ∀ firing, (evaluate rule snapshot now state).1 = some firing →
      firing.edge = .fire → seconds rule.executionPolicy.cooldown ≤ elapsed now t := by
    intro firing hf he
    obtain ⟨-, -, -, hcool, -⟩ := evaluate_fires hf he
    rw [coolingDown, ht] at hcool
    exact Int.not_lt.mp (of_decide_eq_false hcool)
  refine ⟨?_, hcooled⟩
  by_cases hfires : ∃ firing, (evaluate rule snapshot now state).1 = some firing ∧
      firing.edge = .fire
  · obtain ⟨firing, hf, he⟩ := hfires
    obtain ⟨-, -, -, -, hafter⟩ := evaluate_fires hf he
    have hspan := hcooled firing hf he
    refine ⟨now, by rw [hafter], ?_⟩
    have hnonneg : 0 ≤ seconds rule.executionPolicy.cooldown := by
      unfold seconds
      omega
    exact Int.sub_nonneg.mp (Int.le_trans hnonneg hspan)
  · refine ⟨t, ?_, Int.le_refl t⟩
    rw [evaluate_lastFiredAt fun firing hf he => hfires ⟨firing, hf, he⟩, ht]

/-- What the step of an evaluation does. -/
theorem step_evaluate (hs : step digest directory s .evaluate = some s') :
    ∃ rule rest tenantId deviceId now, ∃ tasks : Tasks.State F,
      s.tasks.hot = .evaluating (rule :: rest) tenantId deviceId now ∧
      tasks.worker = (runCached digest .evaluate rule now s.tasks.worker).2 ∧
      hotRules tasks.hot = rest ∧
      s' = { s with
        tasks := tasks
        sinceStart := s.sinceStart.set rule.id
          ((runCached digest .evaluate rule now s.tasks.worker).2.ruleStates.getD rule.id {})
        fires := s.fires ++
          firesOf rule now (runCached digest .evaluate rule now s.tasks.worker).1 } := by
  unfold step at hs
  dsimp only at hs
  cases he : s.tasks.evaluation? .evaluate with
  | none => rw [he] at hs; cases hs
  | some evaluation =>
    rw [he] at hs
    obtain ⟨tasks, htasks, rfl⟩ := Option.map_eq_some_iff.mp hs
    obtain ⟨rule, rest, tenantId, deviceId, now, hhot, rfl⟩ := Tasks.step_evaluate htasks
    simp only [Tasks.State.evaluation?, hhot] at he
    obtain rfl := Option.some.inj he
    refine ⟨rule, rest, tenantId, deviceId, now, _, hhot, rfl, ?_, rfl⟩
    dsimp only
    split
    · exact hotRules_resume rest tenantId deviceId now
    · rfl

omit [PyFloat F] in
theorem mem_firesOf {rule fired : Rule F} {now firedAt : Datetime} {firing : Option Firing}
    (h : (fired, firedAt) ∈ firesOf rule now firing) :
    fired = rule ∧ firedAt = now ∧ ∃ f, firing = some f ∧ f.edge = .fire := by
  unfold firesOf at h
  split at h
  · rw [List.mem_singleton] at h
    obtain ⟨rfl, rfl⟩ := Prod.mk.inj h
    exact ⟨rfl, rfl, _, rfl, rfl⟩
  · cases h
  · cases h

omit [PyFloat F] in
/-- The clock of the state that an evaluation after the assignment starts from. -/
theorem Kept.found_clock (h : Kept s) (hp : s.phase = .restored) {rule : Rule F}
    (hk : Known s rule.id) {state : RuleState} {t : Datetime}
    (hc : s.checkpoint.get rule.id = some state) (ht : state.lastFiredAt = some t) :
    ∃ t', (stateFor digest rule s.tasks.worker).1.lastFiredAt = some t' ∧ t ≤ t' := by
  obtain ⟨state', t', hstate', ht', hle⟩ := h.clock hp rule.id state t hc ht hk
  refine ⟨t', ?_, hle⟩
  simp [stateFor, Dict.getD_of_get hstate', ht']

/-- An evaluation leaves every other rule alone, and of a checkpointed one it continues the state
the assignment has put there. -/
theorem kept_evaluate (h : Kept s) (ok : AfterRestore s .evaluate)
    (hs : step digest directory s .evaluate = some s') : Kept s' := by
  obtain ⟨rule, rest, tenantId, deviceId, now, tasks, hhot, hworker, hrest, rfl⟩ :=
    step_evaluate hs
  have hafter : (s.checkpoint.get rule.id).isSome → s.phase = .restored :=
    ok ⟨rule, .evaluate, now, tenantId, some deviceId⟩ (by
      simp [State.evaluation?, Event.task?, Tasks.State.evaluation?, hhot])
  have hrule : Known s rule.id := h.loaded.hot rule (by rw [hhot]; exact List.mem_cons_self)
  have hknown : ∀ id, (tasks.worker.caches.rulesById.get id).isSome = true ↔ Known s id := by
    intro id
    rw [hworker]
    rfl
  have hcache : tasks.worker.caches.ruleCache = s.tasks.worker.caches.ruleCache := by
    rw [hworker]
    rfl
  have hget := runCached_get digest .evaluate rule now s.tasks.worker
  have hgetD := runCached_getD digest .evaluate rule now s.tasks.worker rule.id {}
  rw [if_pos rfl] at hgetD
  refine ⟨⟨?cooled, ?kept, ?carried⟩, ⟨?hot, ?cache, ?before⟩, ?untouched, ?clock⟩
  case cooled =>
    intro fired firedAt hmem state t hc ht
    -- A fire of this step: the rule is restored, so its clock is no earlier than the stored one.
    rcases List.mem_append.mp hmem with hold | hnew
    · exact h.graceful.cooled fired firedAt hold state t hc ht
    · obtain ⟨rfl, rfl, firing, hfire, hedge⟩ := mem_firesOf hnew
      have hp := hafter (by rw [hc]; rfl)
      obtain ⟨t', ht', hle⟩ := h.found_clock hp hrule hc ht
      have hspan := (evaluate_clock fired _ firedAt ht').2 firing hfire hedge
      exact Int.le_trans hspan (Int.sub_le_sub_left hle firedAt)
  case kept =>
    intro id state hsince
    dsimp only at hsince ⊢
    rw [Dict.get_set] at hsince
    rw [hworker, hget]
    by_cases hid : id = rule.id
    · rw [if_pos hid] at hsince ⊢
      rw [← hsince, hgetD]
    · rw [if_neg hid] at hsince ⊢
      exact h.graceful.kept id state hsince
  case carried =>
    intro hp id state hc hk hnone
    dsimp only at hnone ⊢
    rw [Dict.get_set] at hnone
    by_cases hid : id = rule.id
    · rw [if_pos hid] at hnone
      cases hnone
    · rw [if_neg hid] at hnone
      rw [hworker, hget, if_neg hid]
      exact h.graceful.carried hp id state hc ((hknown id).mp hk) hnone
  case hot =>
    intro later hlater
    dsimp only at hlater
    rw [hrest] at hlater
    exact (hknown later.id).mpr
      (h.loaded.hot later (by rw [hhot]; exact List.mem_cons_of_mem _ hlater))
  case cache =>
    intro signal cached hcached
    dsimp only at hcached
    rw [hcache] at hcached
    exact (hknown cached.id).mpr (h.loaded.cache signal cached hcached)
  case before => exact fun hp => absurd hrule (h.loaded.before hp rule.id)
  -- Before the restore nothing that the checkpoint has is evaluated.
  case untouched =>
    intro hp id hc
    dsimp only
    rw [Dict.get_set]
    by_cases hid : id = rule.id
    · subst hid
      exact absurd (hafter hc) hp
    · rw [if_neg hid]
      exact h.untouched hp id hc
  case clock =>
    intro hp id state t hc ht hk
    dsimp only
    rw [hworker, hget]
    by_cases hid : id = rule.id
    · subst hid
      obtain ⟨t', ht', hle⟩ := h.found_clock hp hrule hc ht
      obtain ⟨t'', ht'', hle'⟩ := (evaluate_clock rule
        (snapshotForSignals s.tasks.worker.signalValueCache (referencedSignals rule.condition))
        now ht').1
      rw [if_pos rfl]
      exact ⟨_, t'', rfl, ht'', Int.le_trans hle hle'⟩
    · rw [if_neg hid]
      exact h.clock hp id state t hc ht ((hknown id).mp hk)

theorem kept_step {e : Event F} (h : Kept s) (ok : AfterRestore s e)
    (hs : step digest directory s e = some s') : Kept s' := by
  cases e with
  | load rows => exact kept_load h hs
  | read => exact kept_read h hs
  | assign => exact kept_assign h hs
  | message tenantId signal value timestamp => exact kept_message h hs
  | evaluate => exact kept_evaluate h ok hs
  | hotAwait => exact kept_hotAwait h hs

omit [PyFloat F] in
/-- Nothing is loaded and nothing is evaluated when the process starts. -/
theorem kept_start (checkpoint : Dict Uuid RuleState) :
    Kept ({ checkpoint := checkpoint } : State F) where
  graceful := ⟨fun _ _ hf => (nomatch hf), fun _ _ hs => (nomatch hs), fun hp => nomatch hp⟩
  loaded := ⟨fun _ hr => (nomatch hr), fun _ _ hr => (nomatch hr), fun _ _ hk => nomatch hk⟩
  untouched := fun _ _ _ => rfl
  clock := fun hp => nomatch hp

/-- **A restart is graceful** in a run whose checkpointed rules are evaluated only once the
checkpoint is assigned: whatever the worker was stopped with, whatever rules are loaded, over any
messages before, during and after. -/
theorem graceful_restart (digest : Option (Node F) → Option (Node F) → String)
    (directory : Uuid → Option DeviceDirectoryRecord) (previous : Rules.Worker F) {s : State F}
    (h : Reaches (step digest directory) AfterRestore { checkpoint := snapshotRuleStates previous }
      s) : Graceful s :=
  (h.invariant (kept_start _) fun _ _ _ ih ok hs => kept_step ih ok hs).graceful

/-! ## A restart ten seconds after a fire -/

/-- A heater cut-out that fires at most once a minute. -/
def cutOut : Rule Int :=
  { thermostat with
    clearActions := [.actuatorCommand none "heater" (.bool true)]
    executionPolicy := { cooldown := 60 } }

/-- Stopped in an open episode, the fire at ten seconds. -/
def firedWorker : Rules.Worker Int :=
  { ruleStates := Dict.empty.set "thermostat"
      { armed := false
        lastFiredAt := some 10000000
        conditionFingerprint := some "digest"
        active := true } }

def startUp (events : List (Event Int)) : Option (State Int) :=
  run (step (fun _ _ => "digest") Tasks.oneDevice)
    { checkpoint := snapshotRuleStates firedWorker } events

/-- The checkpoint assigned, then a cooler reading evaluated. -/
def restoredState : State Int :=
  (startUp [.load [cutOut], .read, .assign, .message "tenant" ⟨"device", "temperature"⟩ 25 20000000,
    .evaluate]).getD { checkpoint := .empty }

omit [PyFloat F] in
theorem afterRestore_of_no_evaluation {s : State F} {e : Event F} (h : s.evaluation? e = none) :
    AfterRestore s e := by
  intro evaluation he
  rw [h] at he
  cases he

theorem graceful_restart_restored : Graceful restoredState := by
  refine graceful_restart (fun _ _ => "digest") Tasks.oneDevice firedWorker
    (.next (.next (.next (.next (.next .start
      (e := .load [cutOut]) (afterRestore_of_no_evaluation rfl) rfl)
      (e := .read) (afterRestore_of_no_evaluation rfl) rfl)
      (e := .assign) (afterRestore_of_no_evaluation rfl) rfl)
      (e := .message "tenant" ⟨"device", "temperature"⟩ 25 20000000)
        (afterRestore_of_no_evaluation rfl) rfl)
      (e := .evaluate) ?_ rfl)
  intro _ _ _
  rfl

/-- A reading evaluated between the load and the assignment. -/
def readingBeforeRestore : List (Event Int) :=
  [.load [cutOut], .message "tenant" ⟨"device", "temperature"⟩ 35 20000000, .evaluate, .read,
    .assign]

/-- **A reading before the restore fires the rule inside its cooldown**, ten seconds after the
fire before the stop. -/
theorem reading_before_restore :
    ¬ ∀ s : State Int,
      Reaches (step (fun _ _ => "digest") Tasks.oneDevice) Always
        { checkpoint := snapshotRuleStates firedWorker } s → Graceful s := by
  intro h
  have hrun : (startUp readingBeforeRestore).map
      (fun s => s.fires.map fun fire =>
        (fire.1.id, fire.1.executionPolicy.cooldown, fire.2,
          ((s.checkpoint.get fire.1.id).bind (·.lastFiredAt)))) =
      some [("thermostat", 60, 20000000, some 10000000)] := by decide +kernel
  obtain ⟨s, hs, hvals⟩ := Option.map_eq_some_iff.mp hrun
  obtain ⟨⟨rule, now⟩, hfire, hvals⟩ := List.map_eq_singleton_iff.mp hvals
  obtain ⟨-, hcooldown, rfl, hlast⟩ : _ ∧ _ ∧ _ ∧ _ := by simpa only [Prod.mk.injEq] using hvals
  obtain ⟨state, hstate, ht⟩ := Option.bind_eq_some_iff.mp hlast
  have hcooled := (h s (.of_run hs)).cooled rule 20000000 (by rw [hfire]; exact List.mem_cons_self)
    state 10000000 hstate ht
  rw [hcooldown] at hcooled
  revert hcooled
  decide

end Restart

end IotSaas.Worker
