import IotSaas.Worker.Delivery

/-!
# `Worker/DispatchFailures.lean` — what a failing step takes with it

`_dispatch_actions` under every subset of failing steps. An actuator command has a `try` of its
own, so nothing that happens to another one keeps it from being attempted. The deliveries come
last and need an `execution_id`, since their rows refer to it: so they are lost with the history
row, with the realtime event that is published after that row has committed, and with the event of
a latch. `isolated_iff` says that this is all that can happen to them.
-/

set_option autoImplicit false

namespace IotSaas.Worker.Dispatch

open Lib Rules

variable {F : Type}

section

variable (call : Call F) (world : World)

/-- The command of an index is attempted: its device is looked up where it has to be, and once
there is a target, the command is published. -/
def CommandAttempted (index : Nat) (named : Option Uuid) (actuator : String)
    (value : CommandValue F) : Prop :=
  (∀ deviceId, lookedUp call named = some deviceId →
    .lookup index deviceId ∈ (dispatchActions call world).trace world.raises) ∧
  ∀ target, (resolveTarget call world index named).result world.raises = .ok (some target) →
    .command index (target.2.1 ++ "/" ++ target.2.2 ++ "/cmd/" ++ actuator) value
      (world.commandId index) ∈ (dispatchActions call world).trace world.raises

/-- A delivery is spawned, or recorded as failed. -/
def Handled (deferred : DeferredAction F) : Prop :=
  deferred ∈ spawned (doneSteps call world) ∨
    ∃ row ∈ writtenRows (doneSteps call world), row.actionType = deferred.kind.text ∧
      row.actionIndex = some deferred.actionIndex ∧ row.status = .failed

/-- **A failing step takes nothing else with it.** -/
structure Isolated : Prop where
  commands : ∀ (index : Nat) named actuator value,
    call.actions[index]? = some (StoredAction.known (.actuatorCommand named actuator value)) →
      CommandAttempted call world index named actuator value
  webhooks : ∀ (index : Nat) config,
    call.actions[index]? = some (StoredAction.known (.webhook config)) →
      Handled call world ⟨index, .webhook config⟩
  emails : ∀ (index : Nat) recipients subject body,
    call.actions[index]? = some (StoredAction.known (.email recipients subject body)) →
      Handled call world ⟨index, .email recipients subject body⟩
  alerts : ∀ deferred ∈ alertOf call, Handled call world deferred

end

/-! ## Commands -/

section

variable {call : Call F} {world : World}

theorem mem_trace_of_action {index : Nat} {action : StoredAction F}
    (hat : call.actions[index]? = some action) {step : Step F}
    (h : step ∈ (runAction call world (action, index)).trace world.raises) :
    step ∈ (dispatchActions call world).trace world.raises := by
  rw [trace_dispatchActions]
  apply List.mem_append_left
  exact List.mem_flatMap.mpr ⟨_, List.mem_zipIdx_iff_getElem?.mpr hat, h⟩

/-- Commands are attempted whatever raises elsewhere. -/
theorem commandAttempted (index : Nat) (named : Option Uuid) (actuator : String)
    (value : CommandValue F)
    (hat : call.actions[index]? =
      some (StoredAction.known (.actuatorCommand named actuator value))) :
    CommandAttempted call world index named actuator value := by
  constructor
  · intro deviceId hlooked
    apply mem_trace_of_action hat
    apply Attempt.mem_trace_bind
    rw [Attempt.trace_caught]
    apply Attempt.mem_trace_bind
    unfold resolveTarget
    rw [hlooked]
    exact Attempt.mem_trace_bind _ List.mem_cons_self
  · intro target htarget
    apply mem_trace_of_action hat
    apply Attempt.mem_trace_bind
    rw [Attempt.trace_caught]
    apply Attempt.mem_trace_bind_right _ htarget
    apply Attempt.mem_trace_bind
    exact Attempt.mem_trace_bind _ (List.mem_singleton.mpr rfl)

/-! ## Deliveries -/

/-- What the loop records is never a webhook's or an email's. -/
theorem actionType_outcomesOf {entry : StoredAction F × Nat} {row : ActionOutcome F}
    (h : row ∈ outcomesOf call world entry) (kind : DeliveryKind) : row.actionType ≠ kind.text := by
  obtain ⟨action, index⟩ := entry
  cases action with
  | unknown type =>
    cases List.mem_singleton.mp h
    show "unknown" ≠ kind.text
    cases kind <;> decide
  | known action =>
    cases action with
    | actuatorCommand named actuator value =>
      obtain ⟨outcome, htype, heq⟩ := outcomesOf_actuatorCommand call world
        named actuator value index
      rw [heq] at h
      rw [List.mem_singleton.mp h, htype.1]
      cases kind <;> decide
    | _ => cases h

theorem actionType_noticeOf {row : ActionOutcome F} (h : row ∈ noticeOf call world)
    (kind : DeliveryKind) : row.actionType ≠ kind.text := by
  rw [(mem_noticeOf h).1]
  cases kind <;> decide

/-- Where there is room, no delivery is recorded by the run itself. -/
theorem recorded_elsewhere (hroom : world.saturated = false) {row : ActionOutcome F}
    (h : row ∈ recordedOutcomes call world) (kind : DeliveryKind) :
    row.actionType ≠ kind.text := by
  have hadmitted : (admitted world call.deferred).1 = [] := by
    unfold admitted
    rw [hroom]
    rfl
  unfold recordedOutcomes at h
  rw [hadmitted, List.append_nil] at h
  cases List.mem_append.mp h with
  | inl h =>
    obtain ⟨entry, -, hrow⟩ := List.mem_flatMap.mp h
    exact actionType_outcomesOf hrow kind
  | inr h => exact actionType_noticeOf h kind

variable {deferred : DeferredAction F}

/-- What a delivery needs to be handled. -/
theorem handled_iff (hdeferred : deferred ∈ call.deferred) :
    Handled call world deferred ↔
      (world.fails .history).isNone = true ∧
        (world.saturated = true ∨
          (world.fails .historyEvent).isNone = true ∧ latchPassed call world = true) := by
  unfold Handled
  rw [spawned_doneSteps, writtenRows_doneSteps]
  cases hroom : world.saturated with
  | true =>
    -- No room: nothing is spawned, and the history says that each was turned away.
    have hadmitted : admitted world call.deferred = (call.deferred.map saturatedOutcome, []) := by
      unfold admitted
      rw [hroom]
      rfl
    constructor
    · rintro (hspawned | ⟨row, hrow, -⟩)
      · rw [hadmitted] at hspawned
        split at hspawned <;> cases hspawned
      · split at hrow
        · rename_i hhistory
          exact ⟨hhistory, .inl rfl⟩
        · cases hrow
    · rintro ⟨hhistory, -⟩
      refine .inr ⟨saturatedOutcome deferred, ?_, rfl, rfl, rfl⟩
      rw [if_pos hhistory]
      unfold recordedOutcomes
      rw [hadmitted]
      exact List.mem_append_right _ (List.mem_map_of_mem hdeferred)
  | false =>
    -- Room for all: they are spawned after the last of the steps that can fail.
    have hadmitted : (admitted world call.deferred).2 = call.deferred := by
      unfold admitted
      rw [hroom]
      rfl
    rw [hadmitted]
    constructor
    · rintro (hspawned | ⟨row, hrow, htype, -⟩)
      · split at hspawned
        · rename_i hpassed
          simp only [recorded, Bool.and_eq_true] at hpassed
          exact ⟨hpassed.1.1, .inr ⟨hpassed.1.2, hpassed.2⟩⟩
        · cases hspawned
      · split at hrow
        · exact absurd htype (recorded_elsewhere hroom hrow deferred.kind)
        · cases hrow
    · rintro ⟨hhistory, hsaturated | ⟨hevent, hlatch⟩⟩
      · cases hsaturated
      · refine .inl ?_
        rw [if_pos (by simp [recorded, hhistory, hevent, hlatch])]
        exact hdeferred

theorem mem_deferred {index : Nat} {action : StoredAction F}
    (hat : call.actions[index]? = some action) (h : deferred ∈ deferredOf (action, index)) :
    deferred ∈ call.deferred :=
  List.mem_append_left _ (List.mem_flatMap.mpr ⟨_, List.mem_zipIdx_iff_getElem?.mpr hat, h⟩)

/-- Whatever is owed is a webhook of the list, an email of the list, or the alert. -/
theorem Isolated.handled (h : Isolated call world) (hdeferred : deferred ∈ call.deferred) :
    Handled call world deferred := by
  cases List.mem_append.mp hdeferred with
  | inr halert => exact h.alerts deferred halert
  | inl hdeferred =>
    obtain ⟨entry, hentry, hdeferred⟩ := List.mem_flatMap.mp hdeferred
    obtain ⟨action, index⟩ := entry
    have hat := List.mem_zipIdx_iff_getElem?.mp hentry
    cases action with
    | unknown type => cases hdeferred
    | known action =>
      cases action with
      | webhook config =>
        cases List.mem_singleton.mp hdeferred
        exact h.webhooks index config hat
      | email recipients subject body =>
        cases List.mem_singleton.mp hdeferred
        exact h.emails index recipients subject body hat
      | _ => cases hdeferred

end

/-- **When failures are isolated**: for every list of actions, every edge and every subset of
failing steps, either no delivery is owed, or the history row is written and — unless the executor
is saturated — neither its event nor the latch's raises. -/
theorem isolated_iff (call : Call F) (world : World) :
    Isolated call world ↔
      call.deferred = [] ∨
        (world.fails .history).isNone = true ∧
          (world.saturated = true ∨
            (world.fails .historyEvent).isNone = true ∧ latchPassed call world = true) := by
  constructor
  · intro hisolated
    cases hdeferred : call.deferred with
    | nil => exact .inl rfl
    | cons deferred rest =>
      have hmem : deferred ∈ call.deferred := hdeferred ▸ List.mem_cons_self
      exact .inr ((handled_iff hmem).mp (hisolated.handled hmem))
  · intro hcondition
    have hhandled : ∀ deferred ∈ call.deferred, Handled call world deferred := by
      intro deferred hmem
      cases hcondition with
      | inl hnone => cases hnone ▸ hmem
      | inr hpassed => exact (handled_iff hmem).mpr hpassed
    refine ⟨?_, ?_, ?_, ?_⟩
    · intro index named actuator value hat
      exact commandAttempted index named actuator value hat
    · intro index config hat
      exact hhandled _ (mem_deferred hat List.mem_cons_self)
    · intro index recipients subject body hat
      exact hhandled _ (mem_deferred hat List.mem_cons_self)
    · intro deferred halert
      exact hhandled _ (List.mem_append_right _ halert)

/-- The database is away when the history is written. -/
def historyFails : World :=
  { calmWorld with
    fails := fun site => if site = .history then some "connection was closed" else none }

/-- Redis is away once the history row has committed. -/
def historyEventFails : World :=
  { calmWorld with
    fails := fun site => if site = .historyEvent then some "Connection refused" else none }

/-- **A bookkeeping failure suppresses an alert**: a webhook that is accepted, stored and owed is
neither spawned nor recorded where the history row is not written, nor where the event behind it
raises. -/
theorem webhook_suppressed :
    ∃ rule, StoredFrom (aboveThirty
        [.webhook "https://example.com/alarm" (.obj []) none none]) rule ∧
      ¬ Isolated (firing rule) historyFails ∧ ¬ Isolated (firing rule) historyEventFails := by
  refine ⟨_, ⟨_, _, rfl, rfl⟩, ?_, ?_⟩
  · intro hisolated
    have hhandled := hisolated.webhooks 0 _ rfl
    cases ((handled_iff (by exact List.mem_cons_self)).mp hhandled).1
  · intro hisolated
    have hhandled := hisolated.webhooks 0 _ rfl
    obtain ⟨-, hsaturated | ⟨hevent, -⟩⟩ :=
      (handled_iff (by exact List.mem_cons_self)).mp hhandled
    · cases hsaturated
    · cases hevent

end IotSaas.Worker.Dispatch
