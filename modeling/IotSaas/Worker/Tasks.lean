import IotSaas.Ingestion.Service
import IotSaas.Rules.Cache

/-!
# `Worker/Tasks.lean` — the worker's tasks, await by await

Two tasks share the worker's memory: the ingest loop inside `evaluate_and_dispatch`, and the manual
command loop inside `run_rule_out_of_band`. Between two awaits a task runs alone; at an await the
other may go on, and so may a reload. A `step` is such a stretch. The hot loop's stretch between
two dispatches is given evaluation by evaluation (`Hot.evaluating`), and while it lasts no other
step is enabled, so the stretch is still one.

All I/O succeeds, and the device directory answers the same throughout, so what a dispatch is going
to do is known when it starts: the list of its awaits. `WorkerStep` is the inversion of a step that
later files work from: whatever happened, the memory changed by one evaluation, by a latch reset,
by a reload, or not where rules are concerned.
-/

set_option autoImplicit false

namespace IotSaas.Worker

open Lib Rules Ingestion

variable {F : Type}

namespace Tasks

/-! ## Dispatches -/

inductive TopicKind where
  | cmd | state
  deriving DecidableEq

/-- `{tenant}/{device}/cmd/{actuator}`, or the retained `…/state/{actuator}`. -/
structure Topic where
  kind : TopicKind
  deviceId : Uuid
  actuator : String
  deriving DecidableEq

/-- What a dispatch awaits. -/
inductive Await (F : Type) where
  /-- `lookup_rule_dispatch_targets`. -/
  | lookup
  | publish (topic : Topic) (value : CommandValue F)
  /-- A database or Redis write, which changes nothing modelled here. -/
  | write

/-- `lookup_rule_dispatch_targets` and the checks on its row. -/
def usable (directory : Uuid → Option DeviceDirectoryRecord) (tenantId deviceId : Uuid) :
    Option Uuid :=
  match directory deviceId with
  | none => none
  | some row => if row.tenantId = tenantId ∧ row.status = .active then some row.deviceId else none

/-- `dispatch_command`: the command, the retained desired state, the row. -/
def dispatchCommand (deviceId : Uuid) (actuator : String) (value : CommandValue F) :
    List (Await F) :=
  [.publish ⟨.cmd, deviceId, actuator⟩ value, .publish ⟨.state, deviceId, actuator⟩ value, .write]

/-- One turn of the loop of `_dispatch_actions`, its target by `_resolve_target`. -/
def actionAwaits (directory : Uuid → Option DeviceDirectoryRecord) (tenantId : Uuid)
    (trigger : Option Uuid) (action : Action F) : List (Await F) :=
  match action with
  | .actuatorCommand none actuator value =>
      match trigger with
      -- dropped with a warning: no target device
      | none => []
      | some deviceId => dispatchCommand deviceId actuator value
  | .actuatorCommand (some deviceId) actuator value =>
      if some deviceId = trigger then dispatchCommand deviceId actuator value
      else
        match usable directory tenantId deviceId with
        | none => [.lookup]
        | some target => .lookup :: dispatchCommand target actuator value
  | .notification _ _ | .webhook _ | .email _ _ _ => []

def edgeActions (rule : Rule F) (edge : Edge) : List (Action F) :=
  match edge with
  | .fire => rule.actions
  | .clear => rule.clearActions

def Action.isNotification (action : Action F) : Bool :=
  match action with
  | .notification _ _ => true
  | _ => false

/-- `_dispatch_actions`: the actions in order, the notification row, the execution record, and
the latched flag of a latch rule fired by the evaluator from a metric. The tenant is that of the
run: on the hot path the reading's. -/
def dispatchActions (directory : Uuid → Option DeviceDirectoryRecord) (tenantId : Uuid)
    (rule : Rule F) (trigger : Option Uuid) (metricSource : Bool) (edge : Edge) :
    List (Await F) :=
  (edgeActions rule edge).flatMap (actionAwaits directory tenantId trigger) ++
    (if edge = .fire ∨ (edgeActions rule edge).any Action.isNotification then [.write] else []) ++
    [.write] ++
    (if edge = .fire ∧ metricSource = true ∧ rule.executionPolicy.strategy = .latch then [.write]
      else [])

mutual

/-- `_condition_leaves`. -/
def conditionLeaves : Node F → List (ConditionLeaf F)
  | .leaf leaf => [leaf]
  | .group _ predicates => predicatesLeaves predicates

def predicatesLeaves : List (Node F) → List (ConditionLeaf F)
  | [] => []
  | child :: rest => conditionLeaves child ++ predicatesLeaves rest

end

/-- The device `_resolve_rule_context` derives: the first leaf's, else the first one an actuator
action names. -/
def contextDevice (rule : Rule F) : Option Uuid :=
  let leaves :=
    match rule.condition with
    | none => []
    | some node => (conditionLeaves node).map fun leaf => some leaf.deviceId
  let targets := rule.actions.filterMap fun action =>
    match action with
    | .actuatorCommand deviceId _ _ => some deviceId
    | _ => none
  (leaves ++ targets).findSome? fun candidate => candidate

/-- The awaits of `run_rule_out_of_band` once the evaluator has returned an edge: the look-up of the
context device, and the dispatch if it is usable. -/
def outOfBandAwaits (directory : Uuid → Option DeviceDirectoryRecord) (tenantId : Uuid)
    (rule : Rule F) (context : Option Uuid) (metricSource : Bool) (edge : Edge) :
    List (Await F) :=
  match context with
  | none => dispatchActions directory tenantId rule none metricSource edge
  | some deviceId =>
      match usable directory tenantId deviceId with
      -- the evaluator has returned the edge, and nobody will dispatch it
      | none => [.lookup]
      | some target =>
          .lookup :: dispatchActions directory tenantId rule (some target) metricSource edge

/-- A dispatch in flight, with the awaits it still has before it. -/
structure Dispatch (F : Type) where
  ruleId : Uuid
  awaits : List (Await F)

/-! ## The machine -/

/-- Where the ingest loop is. -/
inductive Hot (F : Type) where
  | idle
  /-- In the loop of `evaluate_and_dispatch`, about to evaluate the next rule. -/
  | evaluating (rest : List (Rule F)) (tenantId deviceId : Uuid) (now : Datetime)
  /-- Awaiting a dispatch, the rules after it still to come. -/
  | dispatching (dispatch : Dispatch F) (rest : List (Rule F)) (tenantId deviceId : Uuid)
      (now : Datetime)

/-- On with the loop, or back to the next message. -/
def Hot.resume (rest : List (Rule F)) (tenantId deviceId : Uuid) (now : Datetime) : Hot F :=
  match rest with
  | [] => .idle
  | _ :: _ => .evaluating rest tenantId deviceId now

structure Published (F : Type) where
  ruleId : Uuid
  topic : Topic
  value : CommandValue F

structure State (F : Type) where
  worker : Rules.Worker F := {}
  hot : Hot F := .idle
  outOfBand : Option (Dispatch F) := none
  /-- Everything published, oldest first. -/
  published : List (Published F) := []

/-- The trigger sources that reach the evaluator's state. A `device_status` run happens inside the
ingest task; it evaluates and awaits like the others and is given the same place. -/
inductive Source where
  | schedule | deviceStatus | metric
  deriving DecidableEq

def Source.entry (source : Source) : EntryPoint :=
  match source with
  | .schedule | .deviceStatus => .evaluateEvent
  | .metric => .evaluate

inductive Event (F : Type) where
  /-- A telemetry message reaches `evaluate_and_dispatch`. -/
  | reading (tenantId : Uuid) (signal : SignalKey) (value : F) (timestamp : Datetime)
  | evaluate
  | hotAwait
  /-- The manual command loop receives a run request; `deviceId` is the device whose connectivity
  changed, for a `device_status` run. -/
  | trigger (tenantId ruleId : Uuid) (source : Source) (deviceId : Option Uuid) (now : Datetime)
  | outOfBandAwait
  /-- `reset_rule_latch`. -/
  | reset (tenantId ruleId : Uuid)
  /-- `load_rule_cache` swaps in the rows of a query made at some earlier time. -/
  | reload (rows : List (Rule F))

/-- No task is in the middle of a stretch without awaits. -/
def State.atAwait (s : State F) : Bool :=
  match s.hot with
  | .evaluating _ _ _ _ => false
  | .idle | .dispatching _ _ _ _ _ => true

/-- `_rules_by_id.get`, and the tenant check behind it. -/
def State.ruleOf (s : State F) (tenantId ruleId : Uuid) : Option (Rule F) :=
  match s.worker.caches.rulesById.get ruleId with
  | none => none
  | some rule => if rule.tenantId = tenantId then some rule else none

/-- An evaluation that is about to be made: the rule object, the entry point, the clock, and the
tenant and device its edge will be dispatched for. -/
structure Evaluation (F : Type) where
  rule : Rule F
  entry : EntryPoint
  now : Datetime
  tenantId : Uuid
  trigger : Option Uuid

/-- The evaluation a step makes, if it makes one. -/
def State.evaluation? (s : State F) (e : Event F) : Option (Evaluation F) :=
  match e with
  | .evaluate =>
      match s.hot with
      | .evaluating (rule :: _) tenantId deviceId now =>
          some ⟨rule, .evaluate, now, tenantId, some deviceId⟩
      | _ => none
  | .trigger tenantId ruleId source deviceId now =>
      if s.atAwait = true ∧ s.outOfBand.isNone = true then
        (s.ruleOf tenantId ruleId).map fun rule =>
          ⟨rule, source.entry, now, tenantId, deviceId.or (contextDevice rule)⟩
      else none
  | _ => none

/-- An await of a dispatch, done. -/
def State.perform (s : State F) (ruleId : Uuid) (await : Await F) : State F :=
  match await with
  | .publish topic value => { s with published := s.published ++ [⟨ruleId, topic, value⟩] }
  | .lookup | .write => s

/-- `reset_latch(_state_for(rule))`. -/
def resetCached (digest : Option (Node F) → Option (Node F) → String) (rule : Rule F)
    (worker : Rules.Worker F) : Rules.Worker F :=
  let (state, worker) := stateFor digest rule worker
  { worker with ruleStates := worker.ruleStates.set rule.id (resetLatch state).2 }

variable [PyFloat F]

def step (digest : Option (Node F) → Option (Node F) → String)
    (directory : Uuid → Option DeviceDirectoryRecord) (s : State F) (e : Event F) :
    Option (State F) :=
  match e with
  | .reading tenantId signal value timestamp =>
      match s.hot with
      | .idle =>
          -- `handle_message` drops the telemetry of an unknown or inactive device
          if (usable directory tenantId signal.deviceId).isSome then
            let worker := noteReading signal value timestamp s.worker
            some { s with
              worker := worker
              hot := .resume (worker.caches.ruleCache.getD signal []) tenantId signal.deviceId
                timestamp }
          else none
      | _ => none
  | .evaluate =>
      match s.hot with
      | .evaluating (rule :: rest) tenantId deviceId now =>
          let r := runCached digest .evaluate rule now s.worker
          some { s with
            worker := r.2
            hot := match r.1 with
              | none => .resume rest tenantId deviceId now
              | some firing =>
                  .dispatching
                    ⟨rule.id,
                      dispatchActions directory tenantId rule (some deviceId) true firing.edge⟩
                    rest tenantId deviceId now }
      | _ => none
  | .hotAwait =>
      match s.hot with
      | .dispatching ⟨_, []⟩ rest tenantId deviceId now =>
          some { s with hot := .resume rest tenantId deviceId now }
      | .dispatching ⟨ruleId, await :: awaits⟩ rest tenantId deviceId now =>
          some { s.perform ruleId await with
            hot := .dispatching ⟨ruleId, awaits⟩ rest tenantId deviceId now }
      | _ => none
  | .trigger tenantId ruleId source deviceId now =>
      match s.evaluation? (.trigger tenantId ruleId source deviceId now) with
      | none => none
      | some evaluation =>
          let r := runCached digest evaluation.entry evaluation.rule evaluation.now s.worker
          some { s with
            worker := r.2
            outOfBand := r.1.map fun firing =>
              ⟨evaluation.rule.id,
                outOfBandAwaits directory tenantId evaluation.rule evaluation.trigger
                  (source = .metric) firing.edge⟩ }
  | .outOfBandAwait =>
      if s.atAwait then
        match s.outOfBand with
        | none => none
        | some ⟨_, []⟩ => some { s with outOfBand := none }
        | some ⟨ruleId, await :: awaits⟩ =>
            some { s.perform ruleId await with outOfBand := some ⟨ruleId, awaits⟩ }
      else none
  | .reset tenantId ruleId =>
      if s.atAwait then
        match s.ruleOf tenantId ruleId with
        | none => none
        | some rule =>
            if rule.executionPolicy.strategy = .latch then
              -- the stored flag of the rule is written as well, which nothing here reads
              some { s with worker := resetCached digest rule s.worker }
            else none
      else none
  | .reload rows =>
      -- the rows of one query on a table keyed by id
      if s.atAwait = true ∧ (rows.map (·.id)).Nodup then
        some { s with worker := { s.worker with caches := loadRuleCache digest rows } }
      else none

/-! ## What each event does

One inversion lemma an event: where the tasks were, and what the step left. -/

section

variable {digest : Option (Node F) → Option (Node F) → String}
  {directory : Uuid → Option DeviceDirectoryRecord} {s s' : State F}

theorem step_reading {tenantId : Uuid} {signal : SignalKey} {value : F} {timestamp : Datetime}
    (h : step digest directory s (.reading tenantId signal value timestamp) = some s') :
    s.hot = .idle ∧
      s' = { s with
        worker := noteReading signal value timestamp s.worker
        hot := .resume (s.worker.caches.ruleCache.getD signal []) tenantId signal.deviceId
          timestamp } := by
  unfold step at h
  dsimp only at h
  split at h
  · rename_i hhot
    split at h
    · exact ⟨hhot, (Option.some.inj h).symm⟩
    · cases h
  · cases h

theorem step_evaluate (h : step digest directory s .evaluate = some s') :
    ∃ rule rest tenantId deviceId now, s.hot = .evaluating (rule :: rest) tenantId deviceId now ∧
      s' = { s with
        worker := (runCached digest .evaluate rule now s.worker).2
        hot := match (runCached digest .evaluate rule now s.worker).1 with
          | none => .resume rest tenantId deviceId now
          | some firing =>
              .dispatching
                ⟨rule.id,
                  dispatchActions directory tenantId rule (some deviceId) true firing.edge⟩
                rest tenantId deviceId now } := by
  unfold step at h
  dsimp only at h
  split at h
  · rename_i rule rest tenantId deviceId now hhot
    exact ⟨rule, rest, tenantId, deviceId, now, hhot, (Option.some.inj h).symm⟩
  · cases h

/-- A dispatch ends, or does its next await. -/
theorem step_hotAwait (h : step digest directory s .hotAwait = some s') :
    ∃ ruleId awaits rest tenantId deviceId now,
      s.hot = .dispatching ⟨ruleId, awaits⟩ rest tenantId deviceId now ∧
      match awaits with
      | [] => s' = { s with hot := .resume rest tenantId deviceId now }
      | await :: awaits =>
          s' = { s.perform ruleId await with
            hot := .dispatching ⟨ruleId, awaits⟩ rest tenantId deviceId now } := by
  unfold step at h
  dsimp only at h
  split at h
  · rename_i ruleId rest tenantId deviceId now hhot
    exact ⟨ruleId, [], rest, tenantId, deviceId, now, hhot, (Option.some.inj h).symm⟩
  · rename_i ruleId await awaits rest tenantId deviceId now hhot
    exact ⟨ruleId, await :: awaits, rest, tenantId, deviceId, now, hhot,
      (Option.some.inj h).symm⟩
  · cases h

theorem step_trigger {tenantId ruleId : Uuid} {source : Source} {deviceId : Option Uuid}
    {now : Datetime}
    (h : step digest directory s (.trigger tenantId ruleId source deviceId now) = some s') :
    ∃ evaluation,
      s.evaluation? (.trigger tenantId ruleId source deviceId now) = some evaluation ∧
      s' = { s with
        worker := (runCached digest evaluation.entry evaluation.rule evaluation.now s.worker).2
        outOfBand :=
          (runCached digest evaluation.entry evaluation.rule evaluation.now s.worker).1.map
            fun firing =>
              ⟨evaluation.rule.id,
                outOfBandAwaits directory tenantId evaluation.rule evaluation.trigger
                  (source = .metric) firing.edge⟩ } := by
  unfold step at h
  dsimp only at h
  split at h
  · cases h
  · rename_i evaluation he
    exact ⟨evaluation, he, (Option.some.inj h).symm⟩

theorem step_outOfBandAwait (h : step digest directory s .outOfBandAwait = some s') :
    ∃ ruleId awaits, s.outOfBand = some ⟨ruleId, awaits⟩ ∧
      match awaits with
      | [] => s' = { s with outOfBand := none }
      | await :: awaits =>
          s' = { s.perform ruleId await with outOfBand := some ⟨ruleId, awaits⟩ } := by
  unfold step at h
  dsimp only at h
  split at h
  · split at h
    · cases h
    · rename_i ruleId hout
      exact ⟨ruleId, [], hout, (Option.some.inj h).symm⟩
    · rename_i ruleId await awaits hout
      exact ⟨ruleId, await :: awaits, hout, (Option.some.inj h).symm⟩
  · cases h

theorem step_reset {tenantId ruleId : Uuid}
    (h : step digest directory s (.reset tenantId ruleId) = some s') :
    ∃ rule, s.ruleOf tenantId ruleId = some rule ∧
      s' = { s with worker := resetCached digest rule s.worker } := by
  unfold step at h
  dsimp only at h
  split at h
  · split at h
    · cases h
    · rename_i rule hrule
      split at h
      · exact ⟨rule, hrule, (Option.some.inj h).symm⟩
      · cases h
  · cases h

theorem step_reload {rows : List (Rule F)}
    (h : step digest directory s (.reload rows) = some s') :
    (rows.map (·.id)).Nodup ∧
      s' = { s with worker := { s.worker with caches := loadRuleCache digest rows } } := by
  unfold step at h
  dsimp only at h
  split at h
  · rename_i hguard
    exact ⟨hguard.2, (Option.some.inj h).symm⟩
  · cases h

end

/-! ## What a step does to the worker's memory -/

omit [PyFloat F] in
@[simp] theorem perform_worker (s : State F) (ruleId : Uuid) (await : Await F) :
    (s.perform ruleId await).worker = s.worker := by
  cases await <;> rfl

/-- The ways a step changes the memory. -/
inductive WorkerStep (digest : Option (Node F) → Option (Node F) → String) (s : State F)
    (e : Event F) (s' : State F) : Prop
  /-- One evaluation. -/
  | evaluated (evaluation : Evaluation F) (he : s.evaluation? e = some evaluation)
      (eq : s'.worker =
        (runCached digest evaluation.entry evaluation.rule evaluation.now s.worker).2)
  /-- A latch reset of a cached rule. -/
  | reset (tenantId ruleId : Uuid) (he : e = .reset tenantId ruleId) (rule : Rule F)
      (known : s.ruleOf tenantId ruleId = some rule)
      (eq : s'.worker = resetCached digest rule s.worker)
  | reloaded (rows : List (Rule F)) (he : e = .reload rows) (ids : (rows.map (·.id)).Nodup)
      (eq : s'.worker = { s.worker with caches := loadRuleCache digest rows })
  /-- Nothing about rules: a reading noted, or an await done. -/
  | kept (he : s.evaluation? e = none) (hr : ∀ tenantId ruleId, e ≠ .reset tenantId ruleId)
      (states : s'.worker.ruleStates = s.worker.ruleStates)
      (caches : s'.worker.caches = s.worker.caches)

theorem workerStep {digest : Option (Node F) → Option (Node F) → String}
    {directory : Uuid → Option DeviceDirectoryRecord} {s s' : State F} {e : Event F}
    (h : step digest directory s e = some s') : WorkerStep digest s e s' := by
  cases e with
  | reading tenantId signal value timestamp =>
    obtain ⟨-, rfl⟩ := step_reading h
    exact .kept rfl (by simp) rfl rfl
  | evaluate =>
    obtain ⟨rule, rest, tenantId, deviceId, now, hhot, rfl⟩ := step_evaluate h
    exact .evaluated ⟨rule, .evaluate, now, tenantId, some deviceId⟩
      (by simp [State.evaluation?, hhot]) rfl
  | hotAwait =>
    obtain ⟨ruleId, awaits, rest, tenantId, deviceId, now, -, hs'⟩ := step_hotAwait h
    cases awaits with
    | nil =>
      subst hs'
      exact .kept rfl (by simp) rfl rfl
    | cons await awaits =>
      subst hs'
      exact .kept rfl (by simp) (by simp) (by simp)
  | trigger tenantId ruleId source deviceId now =>
    obtain ⟨evaluation, he, rfl⟩ := step_trigger h
    exact .evaluated evaluation he rfl
  | outOfBandAwait =>
    obtain ⟨ruleId, awaits, -, hs'⟩ := step_outOfBandAwait h
    cases awaits with
    | nil =>
      subst hs'
      exact .kept rfl (by simp) rfl rfl
    | cons await awaits =>
      subst hs'
      exact .kept rfl (by simp) (by simp) (by simp)
  | reset tenantId ruleId =>
    obtain ⟨rule, hrule, rfl⟩ := step_reset h
    exact .reset tenantId ruleId rfl rule hrule rfl
  | reload rows =>
    obtain ⟨hids, rfl⟩ := step_reload h
    exact .reloaded rows rfl hids rfl

/-! ## A directory to run things on -/

def oneDevice (deviceId : Uuid) : Option DeviceDirectoryRecord :=
  if deviceId = "device" then some ⟨"tenant", "device", .active⟩ else none

end Tasks

end IotSaas.Worker
