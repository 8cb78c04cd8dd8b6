import IotSaas.Api.Closure
import IotSaas.Worker.Dispatch

/-!
# `Worker/Delivery.lean` — what becomes of every action of an edge

`_run_deferred_action` with the retries of `executors.py`, and with it the whole way of an action:
inline, deferred, or through the notification block. `accounted_iff` is about the way back. Every
index of the list has its row and every delivery its run — unless two of the actions are
notifications, since the block behind the loop looks for the *first* one and the loop passes over
all of them.

The line of detail under a "delivery failed" notification is left out.
-/

set_option autoImplicit false

namespace IotSaas.Worker.Dispatch

open Lib Rules

variable {F : Type}

/-! ## `executors.py` -/

/-- What an executor is handed. -/
inductive DeliveryConfig (F : Type) where
  | webhook (config : WebhookConfig F)
  | email (recipients : List String) (subject body : String)

structure ActionResult (F : Type) where
  status : Status
  detail : List (String × Json F)

inductive DeliveryStep (F : Type) where
  | recipients
  | execute (attempt : Nat) (config : DeliveryConfig F)
  | row (outcome : ActionOutcome F)
  | rowEvent
  | failureNotice (message : String)
  | failureEvent

/-- What a delivery meets outside: the addresses `_resolve_email_recipients` comes back with, and
what an executor returns at an attempt. -/
structure Outside (F : Type) where
  recipients : List String
  execute : DeliveryConfig F → Nat → ActionResult F
  number : Nat → F

abbrev DeliveryProgram (F α : Type) := Attempt (DeliveryStep F) String α

/-- The attempts of `parse_retry`. -/
def maxAttempts (config : DeliveryConfig F) : Nat :=
  match config with
  | .webhook config => max 2 (min 6 ((config.retry.map (·.maxAttempts)).getD 4))
  | .email _ _ _ => 4

/-- The loop of `execute_with_retry`, with what is left of it. -/
def attemptsFrom (outside : Outside F) (config : DeliveryConfig F) :
    Nat → Nat → ActionResult F → DeliveryProgram F (ActionResult F)
  | 0, _, last =>
      pure
        ⟨.failed, last.detail ++ [("attempts", .num (outside.number (maxAttempts config)))]⟩
  | remaining + 1, attempt, _ => do
      let result ← Attempt.caught
        (do
          Attempt.perform (.execute attempt config)
          pure (outside.execute config attempt))
        fun error => ⟨.failed, [("error", .str (truncated error))]⟩
      match result.status with
      | .success =>
          pure ⟨.success, result.detail ++ [("attempts", .num (outside.number attempt))]⟩
      | .failed => attemptsFrom outside config remaining (attempt + 1) result

/-- `execute_with_retry`. -/
def executeWithRetry (outside : Outside F) (config : DeliveryConfig F) :
    DeliveryProgram F (ActionResult F) :=
  attemptsFrom outside config (maxAttempts config) 1 ⟨.failed, [("error", .str "not attempted")]⟩

/-! ## `_run_deferred_action` -/

/-- `_write_deferred_result`. -/
def writeDeferredResult (deferred : DeferredAction F) (result : ActionResult F) :
    DeliveryProgram F Unit := do
  Attempt.perform
    (.row
      { actionType := deferred.kind.text
        actionIndex := some deferred.actionIndex
        status := result.status
        detail := result.detail })
  Attempt.perform .rowEvent

def deliveryLabel (kind : DeliveryKind) : String :=
  match kind with
  | .webhook => "Webhook"
  | .email => "Email"

/-- `_notify_delivery_failed`, in its own `try`. -/
def notifyDeliveryFailed (ruleName : String) (kind : DeliveryKind) : DeliveryProgram F Unit :=
  Attempt.caught
    (do
      Attempt.perform
        (.failureNotice (deliveryLabel kind ++ " delivery failed for \"" ++ ruleName ++ "\""))
      Attempt.perform .failureEvent)
    fun _ => ()

/-- The addresses a delivery goes to: those of the action, or the tenant's alert list. -/
def recipientsOf (outside : Outside F) (explicit : List String) :
    DeliveryProgram F (List String) :=
  match explicit with
  | [] => do
      Attempt.perform .recipients
      pure outside.recipients
  | _ => pure explicit

/-- The delivery itself; a message without anybody to go to is recorded and goes nowhere. -/
def configOf (outside : Outside F) (ruleName : String) (config : DeferredConfig F) :
    DeliveryProgram F (Option (DeliveryConfig F)) :=
  match config with
  | .webhook config => pure (some (.webhook config))
  | .email explicit subject body => do
      match ← recipientsOf outside explicit with
      | [] => pure none
      | recipients => pure (some (.email recipients subject body))
  | .alert message _ edge => do
      match ← recipientsOf outside [] with
      | [] => pure none
      | recipients =>
          let label := match edge with
            | .clear => "cleared"
            | .fire => "alert"
          pure (some (.email recipients ("[" ++ ruleName ++ "] " ++ label) message))

/-- The body of `_run_deferred_action`. -/
def deliver (outside : Outside F) (ruleName : String) (deferred : DeferredAction F) :
    DeliveryProgram F Unit := do
  match ← configOf outside ruleName deferred.config with
  | none => do
      writeDeferredResult deferred ⟨.failed, [("reason", .str "no_recipients")]⟩
      notifyDeliveryFailed ruleName deferred.kind
  | some config => do
      let result ← executeWithRetry outside config
      writeDeferredResult deferred result
      match result.status with
      | .failed => notifyDeliveryFailed ruleName deferred.kind
      | .success => pure ()

/-- `_run_deferred_action`. -/
def runDeferredAction (outside : Outside F) (ruleName : String) (deferred : DeferredAction F) :
    DeliveryProgram F Unit :=
  (deliver outside ruleName deferred).caught fun _ => ()

/-- The rows steps of a delivery have written. -/
def deliveryRows (steps : List (DeliveryStep F)) : List (ActionOutcome F) :=
  steps.filterMap fun step =>
    match step with
    | .row outcome => some outcome
    | _ => none

/-! ## Every action accounted for -/

def StoredAction.isNotification (action : StoredAction F) : Bool :=
  match action with
  | .known (.notification _ _) => true
  | _ => false

/-- What an action leaves to be delivered: a webhook, an email, and the email channel of a
notification. -/
def StoredAction.delivery (call : Call F) (action : StoredAction F) : Option (DeferredConfig F) :=
  match action with
  | .known (.webhook config) => some (.webhook config)
  | .known (.email recipients subject body) => some (.email recipients subject body)
  | .known (.notification message channels) =>
      if .email ∈ channels then some (.alert message call.rule.name call.edge) else none
  | _ => none

section

variable (call : Call F) (world : World) (outside : Outside F)

/-- What the background runs, and the steps of each run that went well: nothing out there raises. -/
def deliveries : List (DeferredAction F × List (DeliveryStep F)) :=
  (spawned (doneSteps call world)).map fun deferred =>
    (deferred, (runDeferredAction outside call.rule.name deferred).done fun _ => none)

/-- The rows of `action_executions` when everything is over. -/
def allRows : List (ActionOutcome F) :=
  writtenRows (doneSteps call world) ++
    (deliveries call world outside).flatMap fun delivery => deliveryRows delivery.2

/-- **Every action is accounted for**: a row under its index, its text written, and one delivery of
what it says, which makes a first attempt unless there is nobody to send it to. -/
structure Accounted : Prop where
  rows : ∀ index < call.actions.length,
    ∃ row ∈ allRows call world outside, row.actionIndex = some index
  notified : ∀ (index : Nat) message channels,
    call.actions[index]? = some (StoredAction.known (.notification message channels)) →
      ∃ severity kind, Step.notification message severity kind ∈ doneSteps call world
  delivered : ∀ (index : Nat) action config, call.actions[index]? = some action →
    action.delivery call = some config → ∃ steps,
      (deliveries call world outside).filter (fun delivery => delivery.1.actionIndex = index) =
        [(⟨index, config⟩, steps)] ∧
      ∀ sent, (configOf outside call.rule.name config).result (fun _ => none) = .ok (some sent) →
        .execute 1 sent ∈ steps

end

/-! ## Indices -/

/-- In a list made from the entries of another, the items of one index are those of its entry. -/
theorem filter_flatMap_zipIdx {α β : Type} (f : α × Nat → List β) (key : β → Nat)
    (hkey : ∀ entry, ∀ b ∈ f entry, key b = entry.2) (l : List α) (start index : Nat) :
    ((l.zipIdx start).flatMap f).filter (fun b => key b = start + index) =
      match l[index]? with
      | none => []
      | some a => f (a, start + index) := by
  induction l generalizing start index with
  | nil => rfl
  | cons a l ih =>
    rw [List.zipIdx_cons, List.flatMap_cons, List.filter_append]
    cases index with
    | zero =>
      have hhead : (f (a, start)).filter (fun b => key b = start + 0) = f (a, start) := by
        apply List.filter_eq_self.mpr
        intro b hb
        simp [hkey _ b hb]
      have htail : ((l.zipIdx (start + 1)).flatMap f).filter (fun b => key b = start + 0) = [] := by
        apply List.filter_eq_nil_iff.mpr
        intro b hb
        obtain ⟨entry, hentry, hb⟩ := List.mem_flatMap.mp hb
        have hlater := List.le_snd_of_mem_zipIdx hentry
        have hindex := hkey entry b hb
        simp only [decide_eq_true_eq]
        omega
      rw [hhead, htail, List.append_nil]
      rfl
    | succ index =>
      have hhead : (f (a, start)).filter (fun b => key b = start + (index + 1)) = [] := by
        apply List.filter_eq_nil_iff.mpr
        intro b hb
        simp [hkey _ b hb]
      have htail := ih (start + 1) index
      rw [show start + 1 + index = start + (index + 1) by omega] at htail
      rw [hhead, htail, List.nil_append]
      rfl

theorem actionIndex_deferredOf (entry : StoredAction F × Nat) :
    ∀ deferred ∈ deferredOf entry, deferred.actionIndex = entry.2 := by
  intro deferred hdeferred
  unfold deferredOf at hdeferred
  split at hdeferred
  · cases List.mem_singleton.mp hdeferred
    rfl
  · cases List.mem_singleton.mp hdeferred
    rfl
  · cases hdeferred

section

variable {call : Call F} {world : World}

theorem returns_actuate (index : Nat) (named : Option Uuid) (actuator : String)
    (value : CommandValue F) :
    Attempt.Returns
      (fun outcome => outcome.actionType = "actuator_command" ∧ outcome.actionIndex = some index)
      (actuate call world index named actuator value) := by
  unfold actuate
  apply Attempt.returns_bind
  intro target
  cases target with
  | none => exact Attempt.returns_pure ⟨rfl, rfl⟩
  | some target => exact Attempt.returns_bind fun _ => Attempt.returns_pure ⟨rfl, rfl⟩

/-- The outcome of an actuator command is that of its index, however it ended. -/
theorem outcomesOf_actuatorCommand (call : Call F) (world : World) (named : Option Uuid)
    (actuator : String) (value : CommandValue F) (index : Nat) :
    ∃ outcome : ActionOutcome F, (outcome.actionType = "actuator_command" ∧
        outcome.actionIndex = some index) ∧
      outcomesOf call world (.known (.actuatorCommand named actuator value), index) =
        [outcome] :=
  ⟨_, Attempt.returns_caught (returns_actuate index named actuator value) (fun _ => ⟨rfl, rfl⟩)
    world.raises, rfl⟩

theorem actionIndex_outcomesOf {entry : StoredAction F × Nat} {row : ActionOutcome F}
    (h : row ∈ outcomesOf call world entry) : row.actionIndex = some entry.2 := by
  obtain ⟨action, index⟩ := entry
  cases action with
  | unknown type =>
    cases List.mem_singleton.mp h
    rfl
  | known action =>
    cases action with
    | actuatorCommand named actuator value =>
      obtain ⟨outcome, hindex, heq⟩ := outcomesOf_actuatorCommand call world
        named actuator value index
      rw [heq] at h
      cases List.mem_singleton.mp h
      exact hindex.2
    | _ => cases h

theorem outcomesOf_notification {action : StoredAction F} {index : Nat}
    (h : action.isNotification = true) : outcomesOf call world (action, index) = [] := by
  cases action with
  | unknown type => cases h
  | known action =>
    cases action with
    | notification message channels => rfl
    | _ => cases h

end

/-! ## The first notification -/

variable {actions : List (StoredAction F)}

theorem firstNotification_eq_some {index : Nat} {message : String}
    {channels : List NotificationChannel}
    (h : firstNotification actions = some (index, message, channels)) :
    actions[index]? = some (.known (.notification message channels)) := by
  obtain ⟨entry, hentry, heq⟩ := List.exists_of_findSome?_eq_some h
  obtain ⟨action, place⟩ := entry
  have hat := List.mem_zipIdx_iff_getElem?.mp hentry
  split at heq
  · rename_i heq'
    cases heq'
    cases heq
    exact hat
  · cases heq

theorem exists_firstNotification {index : Nat} {action : StoredAction F}
    (hat : actions[index]? = some action) (hnotification : action.isNotification = true) :
    ∃ first message channels, firstNotification actions = some (first, message, channels) := by
  cases hfirst : firstNotification actions with
  | some found => exact ⟨_, _, _, rfl⟩
  | none =>
    have hnone := List.findSome?_eq_none_iff.mp hfirst (action, index)
      (List.mem_zipIdx_iff_getElem?.mpr hat)
    cases action with
    | unknown type => cases hnotification
    | known action =>
      cases action with
      | notification message channels => cases hnone
      | _ => cases hnotification

/-- No two of the actions are notifications. -/
def OneNotification (actions : List (StoredAction F)) : Prop :=
  actions.Pairwise fun a b => ¬ (a.isNotification = true ∧ b.isNotification = true)

instance (actions : List (StoredAction F)) : Decidable (OneNotification actions) :=
  inferInstanceAs (Decidable (List.Pairwise _ _))

theorem OneNotification.sole (h : OneNotification actions) {i j : Nat} {a b : StoredAction F}
    (hi : actions[i]? = some a) (hj : actions[j]? = some b) (ha : a.isNotification = true)
    (hb : b.isNotification = true) : i = j := by
  obtain ⟨hilt, rfl⟩ := List.getElem?_eq_some_iff.mp hi
  obtain ⟨hjlt, rfl⟩ := List.getElem?_eq_some_iff.mp hj
  by_contra hne
  cases Nat.lt_or_gt_of_ne hne with
  | inl hlt => exact List.pairwise_iff_getElem.mp h i j hilt hjlt hlt ⟨ha, hb⟩
  | inr hgt => exact List.pairwise_iff_getElem.mp h j i hjlt hilt hgt ⟨hb, ha⟩

/-- Where there is only one, it is the first. -/
theorem OneNotification.first (h : OneNotification actions) {index : Nat} {message : String}
    {channels : List NotificationChannel}
    (hat : actions[index]? = some (.known (.notification message channels))) :
    firstNotification actions = some (index, message, channels) := by
  obtain ⟨first, message', channels', hfirst⟩ := exists_firstNotification hat rfl
  have hfound := firstNotification_eq_some hfirst
  cases h.sole hfound hat rfl rfl
  rw [hat] at hfound
  cases hfound
  exact hfirst

section

variable {call : Call F} {world : World}

theorem returns_createNotification (call : Call F) (world : World) (index : Option Nat)
    (message : String) :
    ∀ outcome, (createNotification call index message).result world.raises = .ok outcome →
      outcome.actionType = "notification" ∧ outcome.actionIndex = index := by
  intro outcome houtcome
  cases houtcome
  refine Attempt.returns_caught
    (Q := fun outcome : ActionOutcome F =>
      outcome.actionType = "notification" ∧ outcome.actionIndex = index)
    ?_ (fun _ => ⟨rfl, rfl⟩) world.raises
  exact Attempt.returns_bind fun _ => Attempt.returns_bind fun _ =>
    Attempt.returns_pure ⟨rfl, rfl⟩

/-- The notification's outcome has the index of the first one, and of no other. -/
theorem noticeOf_eq_singleton (world : World) {index : Nat} {message : String}
    {channels : List NotificationChannel}
    (h : firstNotification call.actions = some (index, message, channels)) :
    ∃ outcome : ActionOutcome F, outcome.actionIndex = some index ∧
      noticeOf call world = [outcome] := by
  unfold noticeOf notify
  rw [h]
  exact ⟨_, (returns_createNotification call world (some index) message _ rfl).2, rfl⟩

theorem mem_noticeOf {row : ActionOutcome F} (hrow : row ∈ noticeOf call world) :
    row.actionType = "notification" ∧
      row.actionIndex = (firstNotification call.actions).map Prod.fst := by
  unfold noticeOf notify at hrow
  cases hfirst : firstNotification call.actions with
  | some found =>
    rw [hfirst] at hrow
    cases List.mem_singleton.mp hrow
    exact returns_createNotification call world (some found.1) found.2.1 _ rfl
  | none =>
    rw [hfirst] at hrow
    cases hedge : call.edge with
    | clear =>
      rw [hedge] at hrow
      cases hrow
    | fire =>
      rw [hedge] at hrow
      cases List.mem_singleton.mp hrow
      exact returns_createNotification call world none call.summary _ rfl

theorem actionIndex_noticeOf {row : ActionOutcome F} (hrow : row ∈ noticeOf call world) {k : Nat}
    (hk : row.actionIndex = some k) :
    ∃ message channels, firstNotification call.actions = some (k, message, channels) := by
  have hindex := (mem_noticeOf hrow).2
  rw [hk] at hindex
  obtain ⟨found, hfirst, rfl⟩ := Option.map_eq_some_iff.mp hindex.symm
  exact ⟨found.2.1, found.2.2, hfirst⟩

theorem actionIndex_alertOf {deferred : DeferredAction F} (h : deferred ∈ alertOf call) :
    ∃ message channels,
      firstNotification call.actions = some (deferred.actionIndex, message, channels) := by
  unfold alertOf at h
  split at h
  · rename_i index message channels hfirst
    split at h
    · cases List.mem_singleton.mp h
      exact ⟨message, channels, hfirst⟩
    · cases h
  · cases h

end

/-! ## The rows of a delivery -/

/-- The retries come to an end, and with a result. -/
theorem attemptsFrom_ok (outside : Outside F) (config : DeliveryConfig F)
    (raises : DeliveryStep F → Option String) (remaining attempt : Nat) (last : ActionResult F) :
    ∃ result, (attemptsFrom outside config remaining attempt last).result raises = .ok result := by
  induction remaining generalizing attempt last with
  | zero => exact ⟨_, rfl⟩
  | succ remaining ih =>
    unfold attemptsFrom
    rw [Attempt.result_bind_ok raises (Attempt.result_caught raises _ _)]
    split
    · exact ⟨_, rfl⟩
    · exact ih _ _

theorem recipientsOf_ok (outside : Outside F) (explicit : List String) :
    ∃ recipients, (recipientsOf outside explicit).result (fun _ => none) = .ok recipients := by
  cases explicit with
  | nil => exact ⟨_, rfl⟩
  | cons => exact ⟨_, rfl⟩

theorem configOf_ok (outside : Outside F) (ruleName : String) (config : DeferredConfig F) :
    ∃ found, (configOf outside ruleName config).result (fun _ => none) = .ok found := by
  cases config with
  | webhook config => exact ⟨_, rfl⟩
  | email explicit subject body =>
    obtain ⟨recipients, hrecipients⟩ := recipientsOf_ok outside explicit
    unfold configOf
    rw [Attempt.result_bind_ok _ hrecipients]
    cases recipients <;> exact ⟨_, rfl⟩
  | alert message ruleName edge =>
    obtain ⟨recipients, hrecipients⟩ := recipientsOf_ok outside []
    unfold configOf
    rw [Attempt.result_bind_ok _ hrecipients]
    cases recipients <;> exact ⟨_, rfl⟩

/-- With nothing raising, a delivery writes a row under its own index. -/
theorem deliver_row (outside : Outside F) (ruleName : String) (deferred : DeferredAction F) :
    ∃ outcome : ActionOutcome F, outcome.actionIndex = some deferred.actionIndex ∧
      .row outcome ∈ (runDeferredAction outside ruleName deferred).trace fun _ => none := by
  obtain ⟨found, hfound⟩ := configOf_ok outside ruleName deferred.config
  unfold runDeferredAction
  rw [Attempt.trace_caught]
  cases found with
  | none =>
    refine ⟨_, ?_, Attempt.mem_trace_bind_right _ hfound (Attempt.mem_trace_bind _
      (Attempt.mem_trace_bind _ (List.mem_singleton.mpr rfl)))⟩
    rfl
  | some config =>
    obtain ⟨result, hresult⟩ := attemptsFrom_ok outside config (fun _ => none)
      (maxAttempts config) 1 ⟨.failed, [("error", .str "not attempted")]⟩
    refine ⟨_, ?_, Attempt.mem_trace_bind_right _ hfound (Attempt.mem_trace_bind_right _ hresult
      (Attempt.mem_trace_bind _ (Attempt.mem_trace_bind _ (List.mem_singleton.mpr rfl))))⟩
    rfl

/-- There is a first attempt: `parse_retry` never makes less than two. -/
theorem deliver_execute {outside : Outside F} {ruleName : String} {deferred : DeferredAction F}
    {sent : DeliveryConfig F}
    (h : (configOf outside ruleName deferred.config).result (fun _ => none) = .ok (some sent)) :
    .execute 1 sent ∈ (runDeferredAction outside ruleName deferred).done fun _ => none := by
  obtain ⟨more, hmore⟩ : ∃ more, maxAttempts sent = more + 1 := by
    refine Nat.exists_eq_succ_of_ne_zero ?_
    cases sent with
    | webhook config =>
      show max 2 _ ≠ 0
      omega
    | email recipients subject body =>
      show 4 ≠ 0
      decide
  refine List.mem_filter.mpr ⟨?_, rfl⟩
  unfold runDeferredAction deliver executeWithRetry
  rw [Attempt.trace_caught]
  refine Attempt.mem_trace_bind_right _ h (Attempt.mem_trace_bind _ ?_)
  rw [hmore, attemptsFrom]
  refine Attempt.mem_trace_bind _ ?_
  rw [Attempt.trace_caught]
  exact Attempt.mem_trace_bind _ (List.mem_singleton.mpr rfl)

theorem deliveryRow_exists (outside : Outside F) (ruleName : String) (deferred : DeferredAction F) :
    ∃ row ∈ deliveryRows ((runDeferredAction outside ruleName deferred).done fun _ => none),
      row.actionIndex = some deferred.actionIndex := by
  obtain ⟨outcome, hindex, hstep⟩ := deliver_row outside ruleName deferred
  refine ⟨outcome, ?_, hindex⟩
  exact List.mem_filterMap.mpr ⟨_, List.mem_filter.mpr ⟨hstep, rfl⟩, rfl⟩

/-- A step of the delivery of an index: a row among them is under that index. -/
def DeliveryStep.Under (index : Nat) (step : DeliveryStep F) : Prop :=
  match step with
  | .row outcome => outcome.actionIndex = some index
  | _ => True

theorem under_recipientsOf (index : Nat) (outside : Outside F) (explicit : List String) :
    Attempt.Only (DeliveryStep.Under index) (recipientsOf outside explicit) := by
  cases explicit with
  | nil => exact Attempt.only_bind (Attempt.only_perform trivial) fun _ => Attempt.only_pure _
  | cons => exact Attempt.only_pure _

theorem under_configOf (index : Nat) (outside : Outside F) (ruleName : String)
    (config : DeferredConfig F) :
    Attempt.Only (DeliveryStep.Under index) (configOf outside ruleName config) := by
  cases config with
  | webhook config => exact Attempt.only_pure _
  | email explicit subject body =>
    apply Attempt.only_bind (under_recipientsOf index outside explicit)
    intro recipients
    cases recipients <;> exact Attempt.only_pure _
  | alert message ruleName edge =>
    apply Attempt.only_bind (under_recipientsOf index outside [])
    intro recipients
    cases recipients <;> exact Attempt.only_pure _

theorem under_attemptsFrom (index : Nat) (outside : Outside F) (config : DeliveryConfig F)
    (remaining attempt : Nat) (last : ActionResult F) :
    Attempt.Only (DeliveryStep.Under index)
      (attemptsFrom outside config remaining attempt last) := by
  induction remaining generalizing attempt last with
  | zero => exact Attempt.only_pure _
  | succ remaining ih =>
    apply Attempt.only_bind
    · apply Attempt.only_caught
      exact Attempt.only_bind (Attempt.only_perform trivial) fun _ => Attempt.only_pure _
    · intro result
      split
      · exact Attempt.only_pure _
      · exact ih _ _

theorem under_writeDeferredResult (deferred : DeferredAction F) (result : ActionResult F) :
    Attempt.Only (DeliveryStep.Under deferred.actionIndex) (writeDeferredResult deferred result) :=
  Attempt.only_bind (Attempt.only_perform rfl) fun _ => Attempt.only_perform trivial

theorem under_notifyDeliveryFailed (index : Nat) (ruleName : String) (kind : DeliveryKind) :
    Attempt.Only (DeliveryStep.Under (F := F) index) (notifyDeliveryFailed ruleName kind) :=
  Attempt.only_caught _
    (Attempt.only_bind (Attempt.only_perform trivial) fun _ => Attempt.only_perform trivial)

theorem under_runDeferredAction (outside : Outside F) (ruleName : String)
    (deferred : DeferredAction F) :
    Attempt.Only (DeliveryStep.Under deferred.actionIndex)
      (runDeferredAction outside ruleName deferred) := by
  apply Attempt.only_caught
  apply Attempt.only_bind (under_configOf _ outside ruleName deferred.config)
  intro found
  cases found with
  | none =>
    apply Attempt.only_bind (under_writeDeferredResult deferred _)
    intro _
    exact under_notifyDeliveryFailed _ _ _
  | some config =>
    apply Attempt.only_bind (under_attemptsFrom _ outside config _ _ _)
    intro result
    apply Attempt.only_bind (under_writeDeferredResult deferred _)
    intro _
    split
    · exact under_notifyDeliveryFailed _ _ _
    · exact Attempt.only_pure _

theorem actionIndex_deliveryRow (outside : Outside F) (ruleName : String)
    (deferred : DeferredAction F) :
    ∀ row ∈ deliveryRows ((runDeferredAction outside ruleName deferred).done fun _ => none),
      row.actionIndex = some deferred.actionIndex := by
  intro row hrow
  obtain ⟨step, hstep, heq⟩ := List.mem_filterMap.mp hrow
  have hunder := under_runDeferredAction outside ruleName deferred _ step
    (List.mem_of_mem_filter hstep)
  cases step with
  | row outcome =>
    cases heq
    exact hunder
  | _ => cases heq

/-! ## The run as a whole -/

section

variable {call : Call F} {world : World} (outside : Outside F)

/-- Nothing raises and there is room for every task. -/
structure World.Calm (world : World) : Prop where
  succeeds : ∀ site, world.fails site = none
  room : world.saturated = false

theorem spawned_calm (h : world.Calm) : spawned (doneSteps call world) = call.deferred := by
  rw [spawned_doneSteps]
  simp [recorded, latchPassed, h.succeeds, admitted, h.room]

theorem writtenRows_calm (h : world.Calm) :
    writtenRows (doneSteps call world) =
      call.actions.zipIdx.flatMap (outcomesOf call world) ++ noticeOf call world := by
  rw [writtenRows_doneSteps]
  simp [h.succeeds, recordedOutcomes, admitted, h.room]

theorem mem_allRows (h : world.Calm) {row : ActionOutcome F} :
    row ∈ allRows call world outside ↔
      row ∈ call.actions.zipIdx.flatMap (outcomesOf call world) ∨ row ∈ noticeOf call world ∨
        ∃ deferred ∈ call.deferred, row ∈ deliveryRows
          ((runDeferredAction outside call.rule.name deferred).done fun _ => none) := by
  unfold allRows deliveries
  rw [writtenRows_calm h, spawned_calm h]
  simp

variable {index : Nat} {action : StoredAction F}

/-- A row under a notification's index is there for the first notification. -/
theorem first_of_row (h : world.Calm) {row : ActionOutcome F}
    (hrow : row ∈ allRows call world outside) (hindex : row.actionIndex = some index)
    (hat : call.actions[index]? = some action) (hnotification : action.isNotification = true) :
    ∃ message channels, firstNotification call.actions = some (index, message, channels) := by
  obtain hrow | hrow | ⟨deferred, hdeferred, hrow⟩ := (mem_allRows outside h).mp hrow
  · obtain ⟨entry, hentry, hrow⟩ := List.mem_flatMap.mp hrow
    obtain ⟨action', place⟩ := entry
    have hplace := actionIndex_outcomesOf hrow
    rw [hindex] at hplace
    cases hplace
    rw [List.mem_zipIdx_iff_getElem?.mp hentry] at hat
    cases hat
    rw [outcomesOf_notification hnotification] at hrow
    cases hrow
  · exact actionIndex_noticeOf hrow hindex
  · have hplace := actionIndex_deliveryRow outside call.rule.name deferred row hrow
    rw [hindex] at hplace
    cases hplace
    cases List.mem_append.mp hdeferred with
    | inr halert => exact actionIndex_alertOf halert
    | inl hdeferred =>
      obtain ⟨entry, hentry, hdeferred⟩ := List.mem_flatMap.mp hdeferred
      obtain ⟨action', place⟩ := entry
      have hplace := actionIndex_deferredOf _ deferred hdeferred
      rw [hplace, List.mem_zipIdx_iff_getElem?.mp hentry] at hat
      cases hat
      cases action' with
      | unknown type => cases hnotification
      | known action =>
        cases action with
        | notification message channels => cases hdeferred
        | _ => cases hnotification

/-- If every action has a row, there is one notification at most. -/
theorem oneNotification_of_rows (h : world.Calm)
    (hrows : ∀ index < call.actions.length,
      ∃ row ∈ allRows call world outside, row.actionIndex = some index) :
    OneNotification call.actions := by
  apply List.pairwise_iff_getElem.mpr
  intro i j hi hj hlt hboth
  obtain ⟨row, hrow, hindex⟩ := hrows i hi
  obtain ⟨row', hrow', hindex'⟩ := hrows j hj
  obtain ⟨message, channels, hfirst⟩ := first_of_row outside h hrow hindex
    (List.getElem?_eq_getElem hi) hboth.1
  obtain ⟨message', channels', hfirst'⟩ := first_of_row outside h hrow' hindex'
    (List.getElem?_eq_getElem hj) hboth.2
  rw [hfirst] at hfirst'
  cases hfirst'
  exact Nat.lt_irrefl _ hlt

/-- The deliveries owed under an index. -/
theorem deferred_at (hat : call.actions[index]? = some action) :
    call.deferred.filter (fun deferred => deferred.actionIndex = index) =
      deferredOf (action, index) ++
        (alertOf call).filter fun deferred => deferred.actionIndex = index := by
  have hactions := filter_flatMap_zipIdx deferredOf DeferredAction.actionIndex
    actionIndex_deferredOf call.actions 0 index
  simp only [Nat.zero_add, hat] at hactions
  unfold Call.deferred
  rw [List.filter_append, hactions]

/-- No alert is owed under the index of another action. -/
theorem alert_elsewhere (hat : call.actions[index]? = some action)
    (hnot : action.isNotification = false) :
    (alertOf call).filter (fun deferred => deferred.actionIndex = index) = [] := by
  apply List.filter_eq_nil_iff.mpr
  intro deferred hdeferred hindex
  obtain ⟨message, channels, hfirst⟩ := actionIndex_alertOf hdeferred
  have hfound := firstNotification_eq_some hfirst
  rw [of_decide_eq_true hindex, hat] at hfound
  cases hfound
  cases hnot

/-- One delivery is owed for an action that is to be delivered, and it is the action's own. -/
theorem one_deferred (hone : OneNotification call.actions) {config : DeferredConfig F}
    (hat : call.actions[index]? = some action) (hdelivery : action.delivery call = some config) :
    (call.deferred.filter fun deferred => deferred.actionIndex = index) = [⟨index, config⟩] := by
  rw [deferred_at hat]
  cases action with
  | unknown type => cases hdelivery
  | known action =>
    cases action with
    | actuatorCommand named actuator value => cases hdelivery
    | webhook config =>
      cases hdelivery
      rw [alert_elsewhere hat rfl]
      rfl
    | email recipients subject body =>
      cases hdelivery
      rw [alert_elsewhere hat rfl]
      rfl
    | notification message channels =>
      obtain ⟨hemail, hdelivery⟩ := Option.ite_none_right_eq_some.mp hdelivery
      cases hdelivery
      unfold alertOf
      rw [hone.first hat]
      simp [deferredOf, hemail]

theorem row_of_deferred (h : world.Calm) {deferred : DeferredAction F}
    (hdeferred : deferred ∈ call.deferred) :
    ∃ row ∈ allRows call world outside, row.actionIndex = some deferred.actionIndex := by
  obtain ⟨row, hrow, hindex⟩ := deliveryRow_exists outside call.rule.name deferred
  exact ⟨row, (mem_allRows outside h).mpr (.inr (.inr ⟨deferred, hdeferred, hrow⟩)), hindex⟩

theorem row_of_outcome (h : world.Calm) (hat : call.actions[index]? = some action)
    {outcome : ActionOutcome F} (houtcome : outcome ∈ outcomesOf call world (action, index)) :
    ∃ row ∈ allRows call world outside, row.actionIndex = some index := by
  refine ⟨outcome, (mem_allRows outside h).mpr (.inl ?_), actionIndex_outcomesOf houtcome⟩
  exact List.mem_flatMap.mpr ⟨_, List.mem_zipIdx_iff_getElem?.mpr hat, houtcome⟩

/-- With one notification at most, every action has its row. -/
theorem rows_of_oneNotification (h : world.Calm) (hone : OneNotification call.actions)
    (hat : call.actions[index]? = some action) :
    ∃ row ∈ allRows call world outside, row.actionIndex = some index := by
  have hdeferred : ∀ deferred ∈ deferredOf (action, index), deferred ∈ call.deferred := by
    intro deferred hdeferred
    exact List.mem_append_left _
      (List.mem_flatMap.mpr ⟨_, List.mem_zipIdx_iff_getElem?.mpr hat, hdeferred⟩)
  cases action with
  | unknown type => exact row_of_outcome outside h hat List.mem_cons_self
  | known action =>
    cases action with
    | actuatorCommand named actuator value =>
      obtain ⟨outcome, -, heq⟩ := outcomesOf_actuatorCommand call world named
        actuator value index
      exact row_of_outcome outside h hat (heq ▸ List.mem_cons_self)
    | webhook config => exact row_of_deferred outside h (hdeferred _ List.mem_cons_self)
    | email recipients subject body =>
      exact row_of_deferred outside h (hdeferred _ List.mem_cons_self)
    | notification message channels =>
      obtain ⟨outcome, hindex, heq⟩ := noticeOf_eq_singleton world (hone.first hat)
      exact ⟨outcome, (mem_allRows outside h).mpr (.inr (.inl (heq ▸ List.mem_cons_self))),
        hindex⟩

theorem notified_of_oneNotification (h : world.Calm) (hone : OneNotification call.actions)
    {message : String} {channels : List NotificationChannel}
    (hat : call.actions[index]? = some (.known (.notification message channels))) :
    ∃ severity kind, Step.notification message severity kind ∈ doneSteps call world := by
  refine ⟨severity call.edge, notificationKind call.edge, ?_⟩
  rw [doneSteps_eq]
  apply List.mem_append_right
  apply List.mem_append_left
  refine List.mem_filter.mpr ⟨?_, by simp [World.raises, Step.site, h.succeeds]⟩
  unfold notify
  rw [hone.first hat]
  exact Attempt.mem_trace_bind _ (Attempt.mem_trace_bind _ List.mem_cons_self)

end

/-- **Every action of an edge is accounted for, if no two of them are notifications.** -/
theorem accounted_iff (call : Call F) (world : World) (outside : Outside F) (h : world.Calm) :
    Accounted call world outside ↔ OneNotification call.actions := by
  constructor
  · intro haccounted
    exact oneNotification_of_rows outside h haccounted.rows
  · intro hone
    refine ⟨?_, ?_, ?_⟩
    · intro index hlt
      exact rows_of_oneNotification outside h hone (List.getElem?_eq_getElem hlt)
    · intro index message channels hat
      exact notified_of_oneNotification h hone hat
    · intro index action config hat hdelivery
      refine ⟨(runDeferredAction outside call.rule.name ⟨index, config⟩).done fun _ => none, ?_,
        fun sent hsent => deliver_execute hsent⟩
      unfold deliveries
      rw [spawned_calm h, List.filter_map]
      have hfilter : call.deferred.filter ((fun delivery => decide (delivery.1.actionIndex = index)) ∘
          fun deferred => (deferred,
            (runDeferredAction outside call.rule.name deferred).done fun _ => none)) =
          [⟨index, config⟩] := one_deferred hone hat hdelivery
      rw [hfilter]
      rfl

/-! ## A rule with two notifications -/

/-- What the worker dispatches by, of a stored rule. -/
def DispatchedRule.ofStored (rule : Api.StoredRule F) : DispatchedRule F :=
  { id := rule.id
    tenantId := rule.tenantId
    name := rule.name
    strategy := rule.executionPolicy.strategy
    actions := rule.actions.map .known
    clearActions := rule.clearActions.map .known }

/-- A firing of a stored rule by a reading of its device. -/
def firing (rule : Api.StoredRule F) : Call F :=
  { rule := .ofStored rule
    device := some ("ours", "tenant", "ours")
    edge := .fire
    source := .metric
    summary := "temperature goes above 30." }

/-- Nothing raises, the queue is empty. -/
def calmWorld : World :=
  { fails := fun _ => none
    lookup := fun _ => none
    saturated := false
    commandId := fun _ => "command" }

/-- One address, and an endpoint that answers. -/
def answering : Outside Int :=
  { recipients := ["owner@example.com"]
    execute := fun _ _ => ⟨.success, []⟩
    number := fun n => n }

/-- Above 30: these actions. -/
def aboveThirty (actions : List (Api.ActionBody Int)) : Api.RuleBody Int :=
  { name := some "Overheating"
    trigger := .metric
    condition := some (.leaf ⟨some "ours", "temperature", .comparison .gt, some (.static 30), 1⟩)
    executionPolicy :=
      { strategy := .edge
        forDuration := 0
        cooldown := 0
        resetCondition := none
        clearForDuration := 0 }
    actions := actions
    clearActions := []
    enabled := true }

/-- A rule the API has accepted and stored from a body. -/
def StoredFrom (body : Api.RuleBody Int) (rule : Api.StoredRule Int) : Prop :=
  ∃ request db', body.toCreate Api.plainPydantic = some request ∧
    Api.write Api.plainLibrary Api.twoTenants "tenant" "rule" (.createCanonical request) =
      .ok (db', rule)

/-- A relay and an email with the notification. -/
theorem accounted_relayAndEmail :
    ∃ rule, StoredFrom (aboveThirty
        [.actuatorCommand none "relay" (.bool true),
          .notification "Too hot" [.platform, .email],
          .email [] "Hot" "Above 30"]) rule ∧
      Accounted (firing rule) calmWorld answering :=
  ⟨_, ⟨_, _, rfl, rfl⟩, (accounted_iff _ calmWorld answering ⟨fun _ => rfl, rfl⟩).mpr
    (by decide)⟩

/-- **The second notification of a rule is lost**, its email with it. -/
theorem second_notification_lost :
    ∃ rule, StoredFrom (aboveThirty
        [.notification "Too hot" [.platform],
          .notification "Call the fire brigade" [.platform, .email]]) rule ∧
      calmWorld.Calm ∧ ¬ Accounted (firing rule) calmWorld answering := by
  refine ⟨_, ⟨_, _, rfl, rfl⟩, ⟨fun _ => rfl, rfl⟩, ?_⟩
  intro haccounted
  have hone := oneNotification_of_rows answering ⟨fun _ => rfl, rfl⟩ haccounted.rows
  revert hone
  decide

end IotSaas.Worker.Dispatch
