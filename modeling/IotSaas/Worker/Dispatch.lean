import IotSaas.Lib.Attempt
import IotSaas.Worker.OutOfBand

/-!
# `Worker/Dispatch.lean` — `_dispatch_actions`, and the deliveries it spawns

A rule has fired or cleared, and its actions are carried out. Actuator commands go out where they
stand in the list; webhooks and emails are only collected there and run in the background
afterwards; notifications are passed over there, and one of them is written behind the loop. What
came of each is an `ActionOutcome`, and those are the rows of `action_executions`.

Every step that can raise is a `Step`, and the `Site` it stands at says whether it does. A step
carries what it publishes or writes, so the trace of a run is all that a run leaves behind.

What the history row says about the reading (metric, value, timestamp) is left out, and so is the
latency of a command. `summary` is what `_default_message` makes of the rule and the snapshot.
-/

set_option autoImplicit false

namespace IotSaas.Worker.Dispatch

open Lib Rules OutOfBand

variable {F : Type}

/-! ## What is dispatched -/

/-- An entry of `actions` as the worker finds it: one of the four types, or something else. -/
inductive StoredAction (F : Type) where
  | known (action : Action F)
  | unknown (type : Option String)

/-- What `_dispatch_actions` reads of a rule. -/
structure DispatchedRule (F : Type) where
  id : Uuid
  tenantId : Uuid
  name : String
  strategy : RuleStrategy
  actions : List (StoredAction F)
  clearActions : List (StoredAction F)

/-- A device with the slugs of its topic. -/
abbrev Target := Uuid × String × String

structure Call (F : Type) where
  rule : DispatchedRule F
  device : Option Target
  edge : Edge
  source : TriggerSource
  summary : String

/-- `rule.actions if edge == "fire" else (rule.clear_actions or [])`. -/
def Call.actions (call : Call F) : List (StoredAction F) :=
  match call.edge with
  | .fire => call.rule.actions
  | .clear => call.rule.clearActions

inductive Status where
  | success | failed
  deriving DecidableEq

/-- `_ActionOutcome`. -/
structure ActionOutcome (F : Type) where
  actionType : String
  actionIndex : Option Nat
  status : Status
  detail : List (String × Json F)
  commandId : Option Uuid := none

inductive DeliveryKind where
  | webhook | email
  deriving DecidableEq

def DeliveryKind.text (kind : DeliveryKind) : String :=
  match kind with
  | .webhook => "webhook"
  | .email => "email"

/-- The `config` of a deferred action: the action itself, or a notification's email channel. -/
inductive DeferredConfig (F : Type) where
  | webhook (config : WebhookConfig F)
  | email (recipients : List String) (subject body : String)
  | alert (message ruleName : String) (edge : Edge)

/-- `_DeferredAction`. -/
structure DeferredAction (F : Type) where
  actionIndex : Nat
  config : DeferredConfig F

def DeferredAction.kind (deferred : DeferredAction F) : DeliveryKind :=
  match deferred.config with
  | .webhook _ => .webhook
  | .email _ _ _ | .alert _ _ _ => .email

/-! ## Steps -/

/-- Where in `_dispatch_actions` something can raise; the index is that of the action. -/
inductive Site where
  | lookup (index : Nat)
  | command (index : Nat)
  | desired (index : Nat)
  | commandRow (index : Nat)
  | notification
  | notificationEvent
  | history
  | historyEvent
  | latched
  | latchedEvent
  deriving DecidableEq

inductive Step (F : Type) where
  | lookup (index : Nat) (deviceId : Uuid)
  | command (index : Nat) (topic : String) (value : CommandValue F) (commandId : Uuid)
  | desired (index : Nat) (topic : String) (value : CommandValue F)
  | commandRow (index : Nat) (commandId deviceId : Uuid) (actuator : String)
      (value : CommandValue F)
  | notification (message severity kind : String)
  | notificationEvent
  | history (summary : String) (rows : List (ActionOutcome F))
  | historyEvent
  | latched
  | latchedEvent
  | spawn (deferred : DeferredAction F)

/-- Spawning a task is not a step that raises. -/
def Step.site (step : Step F) : Option Site :=
  match step with
  | .lookup index _ => some (.lookup index)
  | .command index _ _ _ => some (.command index)
  | .desired index _ _ => some (.desired index)
  | .commandRow index _ _ _ _ => some (.commandRow index)
  | .notification _ _ _ => some .notification
  | .notificationEvent => some .notificationEvent
  | .history _ _ => some .history
  | .historyEvent => some .historyEvent
  | .latched => some .latched
  | .latchedEvent => some .latchedEvent
  | .spawn _ => none

/-- What a call finds: which sites raise and with which text, the rows a look-up would answer with,
whether `_DEFERRED_SEMAPHORE.locked()`, and the identifier drawn for the command of an index. -/
structure World where
  fails : Site → Option String
  lookup : Uuid → Option DispatchTarget
  saturated : Bool
  commandId : Nat → Uuid

def World.raises (world : World) (step : Step F) : Option String := step.site.bind world.fails

/-! ## `_dispatch_actions` -/

abbrev Program (F α : Type) := Attempt (Step F) String α

/-- `str(exc)[:_DETAIL_STRING_MAX]`. -/
def truncated (text : String) : String := String.ofList (text.toList.take 500)

def commandValue (value : CommandValue F) : Json F :=
  match value with
  | .bool b => .bool b
  | .float f => .num f
  | .str s => .str s

def optionalText (text : Option String) : Json F :=
  match text with
  | none => .null
  | some text => .str text

/-- What the row of a look-up comes to. -/
def usableTarget (tenantId : Uuid) (row : Option DispatchTarget) : Option Target :=
  match row with
  | none => none
  | some row =>
      if row.tenantId = tenantId ∧ row.status = .active then
        some (row.deviceId, row.tenantSlug, row.deviceSlug)
      else none

/-- The device to look up, where it is not the one the run was triggered by. -/
def lookedUp (call : Call F) (named : Option Uuid) : Option Uuid :=
  match named with
  | none => none
  | some deviceId =>
      if deviceId = "" ∨ call.device.map Prod.fst = some deviceId then none else some deviceId

/-- `_resolve_target`. -/
def resolveTarget (call : Call F) (world : World) (index : Nat) (named : Option Uuid) :
    Program F (Option Target) :=
  match lookedUp call named with
  | none => pure call.device
  | some deviceId => do
      Attempt.perform (.lookup index deviceId)
      pure (usableTarget call.rule.tenantId (world.lookup deviceId))

/-- `dispatch_command`: the command, the retained desired state, and only then the row. -/
def dispatchCommand (index : Nat) (target : Target) (actuator : String) (value : CommandValue F)
    (commandId : Uuid) : Program F Unit := do
  Attempt.perform
    (.command index (target.2.1 ++ "/" ++ target.2.2 ++ "/cmd/" ++ actuator) value commandId)
  Attempt.perform (.desired index (target.2.1 ++ "/" ++ target.2.2 ++ "/state/" ++ actuator) value)
  Attempt.perform (.commandRow index commandId target.1 actuator value)

def unresolvable (index : Nat) (named : Option Uuid) : ActionOutcome F :=
  { actionType := "actuator_command"
    actionIndex := some index
    status := .failed
    detail := [("reason", .str "target_unresolvable"), ("device_id", optionalText named)] }

/-- An actuator command, to its end. -/
def actuate (call : Call F) (world : World) (index : Nat) (named : Option Uuid) (actuator : String)
    (value : CommandValue F) : Program F (ActionOutcome F) := do
  match ← resolveTarget call world index named with
  | none => pure (unresolvable index named)
  | some target => do
      dispatchCommand index target actuator value (world.commandId index)
      pure
        { actionType := "actuator_command"
          actionIndex := some index
          status := .success
          detail :=
            [("actuator", .str actuator), ("value", commandValue value),
              ("device_id", .str target.1)]
          commandId := some (world.commandId index) }

/-- The outcomes and the deferred actions something adds. -/
abbrev Added (F : Type) := List (ActionOutcome F) × List (DeferredAction F)

/-- One round of the loop. -/
def runAction (call : Call F) (world : World) (entry : StoredAction F × Nat) :
    Program F (Added F) :=
  let (action, index) := entry
  match action with
  | .known (.actuatorCommand named actuator value) => do
      let outcome ← (actuate call world index named actuator value).caught fun error =>
        { actionType := "actuator_command"
          actionIndex := some index
          status := .failed
          detail := [("error", .str (truncated error))] }
      pure ([outcome], [])
  | .known (.webhook config) => pure ([], [⟨index, .webhook config⟩])
  | .known (.email recipients subject body) =>
      pure ([], [⟨index, .email recipients subject body⟩])
  -- written behind the loop
  | .known (.notification _ _) => pure ([], [])
  | .unknown type =>
      pure
        ([{ actionType := "unknown"
            actionIndex := some index
            status := .failed
            detail := [("action_type", optionalText type)] }],
          [])

/-- `next((i, a) for i, a in enumerate(actions) if a.get("type") == "notification")`. -/
def firstNotification (actions : List (StoredAction F)) :
    Option (Nat × String × List NotificationChannel) :=
  actions.zipIdx.findSome? fun entry =>
    match entry with
    | (.known (.notification message channels), index) => some (index, message, channels)
    | _ => none

def severity (edge : Edge) : String :=
  match edge with
  | .fire => "warning"
  | .clear => "info"

def notificationKind (edge : Edge) : String :=
  match edge with
  | .fire => "rule_fired"
  | .clear => "rule_cleared"

/-- `create_notification`, in its own `try`. -/
def createNotification (call : Call F) (index : Option Nat) (message : String) :
    Program F (ActionOutcome F) :=
  Attempt.caught
    (do
      Attempt.perform (.notification message (severity call.edge) (notificationKind call.edge))
      Attempt.perform .notificationEvent
      pure
        { actionType := "notification"
          actionIndex := index
          status := .success
          detail := [("message", .str message)] })
    fun error =>
      { actionType := "notification"
        actionIndex := index
        status := .failed
        detail := [("message", .str message), ("error", .str (truncated error))] }

/-- The notification block: a firing always has one, a clear only where it asks for it. -/
def notify (call : Call F) : Program F (Added F) :=
  match firstNotification call.actions with
  | some (index, message, channels) => do
      let outcome ← createNotification call (some index) message
      pure
        ([outcome],
          if .email ∈ channels then [⟨index, .alert message call.rule.name call.edge⟩] else [])
  | none =>
      match call.edge with
      | .clear => pure ([], [])
      | .fire => do
          let outcome ← createNotification call none call.summary
          pure ([outcome], [])

/-- A deferred action the executor has no room for. -/
def saturatedOutcome (deferred : DeferredAction F) : ActionOutcome F :=
  { actionType := deferred.kind.text
    actionIndex := some deferred.actionIndex
    status := .failed
    detail := [("reason", .str "executor_saturated")] }

/-- Between the notification and the history: who is recorded as failed, and who is to be spawned.
Nothing is awaited here, so the semaphore is asked once. -/
def admitted (world : World) (deferred : List (DeferredAction F)) : Added F :=
  if world.saturated then (deferred.map saturatedOutcome, []) else ([], deferred)

/-- `_record_rule_execution`, in its own `try`: whether there is an `execution_id`. -/
def recordRuleExecution (call : Call F) (outcomes : List (ActionOutcome F)) : Program F Bool :=
  Attempt.caught
    (do
      Attempt.perform (.history call.summary outcomes)
      Attempt.perform .historyEvent
      pure true)
    fun _ => false

/-- Only a firing by a reading latches. -/
def Call.latches (call : Call F) : Bool :=
  decide (call.edge = .fire) && decide (call.source = .metric) &&
    decide (call.rule.strategy = .latch)

/-- `_set_latched(…, True)`. The set is written under `except redis.RedisError`; the event is
published outside it. -/
def setLatched : Program F Unit := do
  (Attempt.perform .latched).caught fun _ => ()
  Attempt.perform .latchedEvent

def latchIfLatching (call : Call F) : Program F Unit :=
  if call.latches then setLatched else pure ()

/-- The deferred actions, once there is a row for theirs to refer to. -/
def spawnDeferred (recorded : Bool) (deferred : List (DeferredAction F)) :
    Program F (List Unit) :=
  if recorded then Attempt.each (fun d => Attempt.perform (.spawn d)) deferred else pure []

/-- `_dispatch_actions`. -/
def dispatchActions (call : Call F) (world : World) : Program F Unit := do
  let ran ← Attempt.each (runAction call world) call.actions.zipIdx
  let notified ← notify call
  let deferred := ran.flatMap Prod.snd ++ notified.2
  let outcomes := ran.flatMap Prod.fst ++ notified.1 ++ (admitted world deferred).1
  let recorded ← recordRuleExecution call outcomes
  latchIfLatching call
  let _ ← spawnDeferred recorded (admitted world deferred).2
  pure ()

/-! ## What comes of each part

Every part but the latch ends well whatever raises, so a run is its parts one after another. -/

/-- What an entry of the list leaves to the background. -/
def deferredOf (entry : StoredAction F × Nat) : List (DeferredAction F) :=
  match entry with
  | (.known (.webhook config), index) => [⟨index, .webhook config⟩]
  | (.known (.email recipients subject body), index) => [⟨index, .email recipients subject body⟩]
  | _ => []

/-- The email channel of the notification that is written. -/
def alertOf (call : Call F) : List (DeferredAction F) :=
  match firstNotification call.actions with
  | some (index, message, channels) =>
      if .email ∈ channels then [⟨index, .alert message call.rule.name call.edge⟩] else []
  | none => []

/-- The deliveries a call owes. -/
def Call.deferred (call : Call F) : List (DeferredAction F) :=
  call.actions.zipIdx.flatMap deferredOf ++ alertOf call

section

variable (call : Call F) (world : World)

/-- What an entry has added to the outcomes when its round is over. -/
def outcomesOf (entry : StoredAction F × Nat) : List (ActionOutcome F) :=
  match (runAction call world entry).result world.raises with
  | .ok added => added.1
  | .error _ => []

/-- What the notification block has added to them. -/
def noticeOf : List (ActionOutcome F) :=
  match (notify call).result world.raises with
  | .ok added => added.1
  | .error _ => []

/-- The rows the history is written with. -/
def recordedOutcomes : List (ActionOutcome F) :=
  call.actions.zipIdx.flatMap (outcomesOf call world) ++ noticeOf call world ++
    (admitted world call.deferred).1

theorem result_runAction (entry : StoredAction F × Nat) :
    (runAction call world entry).result world.raises =
      .ok (outcomesOf call world entry, deferredOf entry) := by
  unfold outcomesOf
  obtain ⟨action, index⟩ := entry
  cases action with
  | unknown type => rfl
  | known action => cases action <;> rfl

theorem result_notify :
    (notify call).result world.raises = .ok (noticeOf call world, alertOf call) := by
  unfold noticeOf alertOf notify
  cases firstNotification call.actions with
  | some notification => rfl
  | none => cases call.edge <;> rfl

/-- There is an `execution_id`. -/
def recorded : Bool :=
  (world.fails .history).isNone && (world.fails .historyEvent).isNone

theorem result_recordRuleExecution (outcomes : List (ActionOutcome F)) :
    (recordRuleExecution call outcomes).result world.raises = .ok (recorded world) := by
  unfold recordRuleExecution recorded
  rw [Attempt.result_caught]
  simp only [Attempt.result_perform_bind, World.raises, Step.site, Option.bind_some]
  cases world.fails .history with
  | some error => rfl
  | none => cases world.fails .historyEvent <;> rfl

theorem trace_recordRuleExecution (outcomes : List (ActionOutcome F)) :
    (recordRuleExecution call outcomes).trace world.raises =
      .history call.summary outcomes ::
        if (world.fails .history).isNone then [.historyEvent] else [] := by
  unfold recordRuleExecution
  rw [Attempt.trace_caught]
  simp only [Attempt.trace_perform_bind, World.raises, Step.site, Option.bind_some]
  cases world.fails .history with
  | some error => rfl
  | none => cases world.fails .historyEvent <;> rfl

/-- The latch does not get in the way of what is behind it. -/
def latchPassed : Bool :=
  !call.latches || (world.fails .latchedEvent).isNone

theorem result_latchIfLatching :
    (latchIfLatching call).result (world.raises (F := F)) = .ok () ↔ latchPassed call world := by
  unfold latchIfLatching latchPassed
  cases call.latches with
  | false => simp
  | true =>
    cases hevent : world.fails .latchedEvent with
    | some error =>
      have hraised : (setLatched (F := F)).result world.raises = .error error :=
        Attempt.result_perform_error _ hevent
      simp [hraised]
    | none =>
      have hpassed : (setLatched (F := F)).result world.raises = .ok () :=
        Attempt.result_perform _ hevent
      simp [hpassed]

theorem trace_spawnDeferred (recorded : Bool) (deferred : List (DeferredAction F)) :
    (do
      let _ ← spawnDeferred recorded deferred
      pure () : Program F Unit).trace world.raises =
      if recorded then deferred.map .spawn else [] := by
  cases recorded with
  | false => rfl
  | true =>
    obtain ⟨hresult, htrace⟩ := Attempt.each_ok world.raises
      (f := fun d : DeferredAction F => Attempt.perform (.spawn d)) (g := fun _ => ())
      (l := deferred) fun d _ => rfl
    show Attempt.trace (Attempt.each (fun d => Attempt.perform (Step.spawn d)) deferred >>=
      fun _ => pure ()) world.raises = _
    rw [Attempt.trace_bind_ok _ hresult, htrace]
    simp only [Attempt.trace_perform, Attempt.trace_pure, List.append_nil, if_true]
    exact List.flatMap_pure_eq_map _ _

/-- What is behind the history: the latch, and the spawning if nothing came in its way. -/
theorem trace_latch_spawn (deferred : List (DeferredAction F)) :
    (do
      latchIfLatching call
      let _ ← spawnDeferred (recorded world) deferred
      pure () : Program F Unit).trace world.raises =
      (latchIfLatching call).trace world.raises ++
        if recorded world && latchPassed call world then deferred.map .spawn else [] := by
  have hlatch := result_latchIfLatching call world
  cases hresult : (latchIfLatching call).result (world.raises (F := F)) with
  | ok =>
    rw [Attempt.trace_bind_ok _ hresult, trace_spawnDeferred, hlatch.mp hresult, Bool.and_true]
  | error error =>
    have hnot : latchPassed call world = false := by
      rw [Bool.eq_false_iff]
      intro hpassed
      rw [hlatch.mpr hpassed] at hresult
      cases hresult
    rw [Attempt.trace_bind_error _ hresult, hnot, Bool.and_false, if_neg Bool.false_ne_true,
      List.append_nil]

/-- **The trace of a run**: the actions, the notification, the history, the latch, and what is
spawned where nothing was in its way. -/
theorem trace_dispatchActions :
    (dispatchActions call world).trace world.raises =
      call.actions.zipIdx.flatMap (fun entry => (runAction call world entry).trace world.raises) ++
      ((notify call).trace world.raises ++
      ((recordRuleExecution call (recordedOutcomes call world)).trace world.raises ++
      ((latchIfLatching call).trace world.raises ++
      if recorded world && latchPassed call world then
        (admitted world call.deferred).2.map .spawn
      else []))) := by
  obtain ⟨hran, hranTrace⟩ := Attempt.each_ok world.raises (f := runAction call world)
    (g := fun entry => (outcomesOf call world entry, deferredOf entry)) (l := call.actions.zipIdx)
    fun entry _ => result_runAction call world entry
  unfold dispatchActions
  rw [Attempt.trace_bind_ok _ hran, hranTrace, Attempt.trace_bind_ok _ (result_notify call world),
    Attempt.trace_bind_ok _ (result_recordRuleExecution call world _), trace_latch_spawn]
  simp only [List.flatMap_map, recordedOutcomes, Call.deferred]

end

/-! ## What steps have spawned and written -/

/-- The deferred actions that steps have spawned. -/
def spawned (steps : List (Step F)) : List (DeferredAction F) :=
  steps.filterMap fun step =>
    match step with
    | .spawn deferred => some deferred
    | _ => none

/-- The rows of `action_executions` that steps have written. -/
def writtenRows (steps : List (Step F)) : List (ActionOutcome F) :=
  steps.flatMap fun step =>
    match step with
    | .history _ rows => rows
    | _ => []

/-- Neither the history nor a spawn. -/
def Step.Inline (step : Step F) : Prop :=
  match step with
  | .history _ _ | .spawn _ => False
  | _ => True

theorem inline_runAction (call : Call F) (world : World) (entry : StoredAction F × Nat) :
    Attempt.Only Step.Inline (runAction call world entry) := by
  obtain ⟨action, index⟩ := entry
  cases action with
  | unknown type => exact Attempt.only_pure _
  | known action =>
    cases action with
    | notification message channels => exact Attempt.only_pure _
    | webhook config => exact Attempt.only_pure _
    | email recipients subject body => exact Attempt.only_pure _
    | actuatorCommand named actuator value =>
      apply Attempt.only_bind
      · apply Attempt.only_caught
        apply Attempt.only_bind
        · unfold resolveTarget
          split
          · exact Attempt.only_pure _
          · exact Attempt.only_bind (Attempt.only_perform trivial) fun _ => Attempt.only_pure _
        · intro target
          cases target with
          | none => exact Attempt.only_pure _
          | some target =>
            apply Attempt.only_bind
            · refine Attempt.only_bind (Attempt.only_perform trivial) fun _ => ?_
              exact Attempt.only_bind (Attempt.only_perform trivial) fun _ =>
                Attempt.only_perform trivial
            · intro _
              exact Attempt.only_pure _
      · intro outcome
        exact Attempt.only_pure _

theorem inline_createNotification (call : Call F) (index : Option Nat) (message : String) :
    Attempt.Only Step.Inline (createNotification call index message) := by
  apply Attempt.only_caught
  refine Attempt.only_bind (Attempt.only_perform trivial) fun _ => ?_
  exact Attempt.only_bind (Attempt.only_perform trivial) fun _ => Attempt.only_pure _

theorem inline_notify (call : Call F) : Attempt.Only Step.Inline (notify call) := by
  unfold notify
  cases firstNotification call.actions with
  | some notification =>
    exact Attempt.only_bind (inline_createNotification _ _ _) fun _ => Attempt.only_pure _
  | none =>
    cases call.edge with
    | clear => exact Attempt.only_pure _
    | fire => exact Attempt.only_bind (inline_createNotification _ _ _) fun _ => Attempt.only_pure _

theorem inline_latchIfLatching (call : Call F) :
    Attempt.Only Step.Inline (latchIfLatching call) := by
  unfold latchIfLatching
  split
  · exact Attempt.only_bind (Attempt.only_caught _ (Attempt.only_perform trivial)) fun _ =>
      Attempt.only_perform trivial
  · exact Attempt.only_pure _

theorem spawned_inline {steps : List (Step F)} (h : ∀ step ∈ steps, step.Inline) :
    spawned steps = [] := by
  apply List.filterMap_eq_nil_iff.mpr
  intro step hstep
  have hinline := h step hstep
  cases step with
  | spawn deferred => cases hinline
  | _ => rfl

theorem writtenRows_inline {steps : List (Step F)} (h : ∀ step ∈ steps, step.Inline) :
    writtenRows steps = [] := by
  apply List.flatMap_eq_nil_iff.mpr
  intro step hstep
  have hinline := h step hstep
  cases step with
  | history summary rows => cases hinline
  | _ => rfl

@[simp] theorem spawned_append (steps steps' : List (Step F)) :
    spawned (steps ++ steps') = spawned steps ++ spawned steps' := List.filterMap_append

@[simp] theorem spawned_map_spawn (deferred : List (DeferredAction F)) :
    spawned (deferred.map .spawn) = deferred := by
  unfold spawned
  rw [List.filterMap_map]
  exact List.filterMap_some

@[simp] theorem writtenRows_append (steps steps' : List (Step F)) :
    writtenRows (steps ++ steps') = writtenRows steps ++ writtenRows steps' := List.flatMap_append

section

variable (call : Call F) (world : World)

/-- What went well of steps. -/
def went (steps : List (Step F)) : List (Step F) :=
  steps.filter fun step => (world.raises step).isNone

/-- The steps of a run that went well. -/
def doneSteps : List (Step F) := (dispatchActions call world).done world.raises

theorem went_inline {steps : List (Step F)} (h : ∀ step ∈ steps, step.Inline) :
    ∀ step ∈ went world steps, step.Inline := by
  intro step hstep
  exact h step (List.mem_of_mem_filter hstep)

/-- The steps before the history. -/
theorem inline_actions : ∀ step ∈
    call.actions.zipIdx.flatMap (fun entry => (runAction call world entry).trace world.raises),
    step.Inline := by
  intro step hstep
  obtain ⟨entry, -, hstep⟩ := List.mem_flatMap.mp hstep
  exact inline_runAction call world entry _ step hstep

/-- A task is always spawned. -/
theorem went_map_spawn (deferred : List (DeferredAction F)) :
    went world (deferred.map .spawn) = deferred.map .spawn := by
  apply List.filter_eq_self.mpr
  intro step hstep
  obtain ⟨d, -, rfl⟩ := List.mem_map.mp hstep
  rfl

theorem went_recordRuleExecution (outcomes : List (ActionOutcome F)) :
    went world ((recordRuleExecution call outcomes).trace world.raises) =
      if (world.fails .history).isNone then
        .history call.summary outcomes ::
          if (world.fails .historyEvent).isNone then [.historyEvent] else []
      else [] := by
  rw [trace_recordRuleExecution]
  unfold went
  cases hhistory : world.fails .history with
  | some error => simp [World.raises, Step.site, hhistory]
  | none =>
    cases hevent : world.fails .historyEvent <;>
      simp [World.raises, Step.site, hhistory, hevent]

theorem doneSteps_eq :
    doneSteps call world =
      went world (call.actions.zipIdx.flatMap
        fun entry => (runAction call world entry).trace world.raises) ++
      (went world ((notify call).trace world.raises) ++
      (went world ((recordRuleExecution call (recordedOutcomes call world)).trace world.raises) ++
      (went world ((latchIfLatching call).trace world.raises) ++
      if recorded world && latchPassed call world then
        (admitted world call.deferred).2.map .spawn
      else []))) := by
  unfold doneSteps Attempt.done
  rw [trace_dispatchActions]
  show went world _ = _
  unfold went
  simp only [List.filter_append]
  split
  · exact congrArg _ (congrArg _ (congrArg _ (congrArg _ (went_map_spawn world _))))
  · rfl

/-- **Who is spawned**: all that is owed and admitted, if there is an `execution_id` and the latch
let the run pass. -/
theorem spawned_doneSteps :
    spawned (doneSteps call world) =
      if recorded world && latchPassed call world then (admitted world call.deferred).2
      else [] := by
  have hrecord : spawned (went world
      ((recordRuleExecution call (recordedOutcomes call world)).trace world.raises)) = [] := by
    rw [went_recordRuleExecution]
    split
    · split <;> rfl
    · rfl
  rw [doneSteps_eq]
  simp only [spawned_append, hrecord, spawned_inline (went_inline world (inline_actions call world)),
    spawned_inline (went_inline world (inline_notify call _)),
    spawned_inline (went_inline world (inline_latchIfLatching call _)), List.nil_append]
  split
  · exact spawned_map_spawn _
  · rfl

/-- **What is written**: the outcomes, if the history row is. -/
theorem writtenRows_doneSteps :
    writtenRows (doneSteps call world) =
      if (world.fails .history).isNone then recordedOutcomes call world else [] := by
  have hrecord : writtenRows (went world
      ((recordRuleExecution call (recordedOutcomes call world)).trace world.raises)) =
      if (world.fails .history).isNone then recordedOutcomes call world else [] := by
    rw [went_recordRuleExecution]
    split
    · split <;> simp [writtenRows]
    · rfl
  rw [doneSteps_eq]
  simp only [writtenRows_append, hrecord,
    writtenRows_inline (went_inline world (inline_actions call world)),
    writtenRows_inline (went_inline world (inline_notify call _)),
    writtenRows_inline (went_inline world (inline_latchIfLatching call _)), List.nil_append]
  split <;> split <;> simp [writtenRows]

end

end IotSaas.Worker.Dispatch
