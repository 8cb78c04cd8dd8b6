import IotSaas.Worker.Delivery

/-!
# `Worker/Channels.lean` — what an edge sends when nothing goes wrong

With every step going well a dispatch is no longer a program but a function of the lists it is given:
which commands it publishes, which notification it writes, and what is handed to the executors.
-/

set_option autoImplicit false

namespace IotSaas.Worker.Dispatch

open Lib Rules OutOfBand

variable {F : Type}

/-- There is somebody to write to, and every executor succeeds at once. -/
structure Outside.Succeeds (outside : Outside F) : Prop where
  recipients : outside.recipients ≠ []
  execute : ∀ config attempt, (outside.execute config attempt).status = .success

/-! ## What steps have sent -/

/-- The commands that steps have published. -/
def published (steps : List (Step F)) : List (String × CommandValue F) :=
  steps.filterMap fun step =>
    match step with
    | .command _ topic value _ => some (topic, value)
    | _ => none

/-- The messages of the notifications that steps have written. -/
def noticed (steps : List (Step F)) : List String :=
  steps.filterMap fun step =>
    match step with
    | .notification message _ _ => some message
    | _ => none

/-- What the steps of a delivery have handed to an executor. -/
def handedOver (steps : List (DeliveryStep F)) : List (DeliveryConfig F) :=
  steps.filterMap fun step =>
    match step with
    | .execute _ config => some config
    | _ => none

/-- The target of a command, once the look-up has answered. -/
def resolved (call : Call F) (world : World) (named : Option Uuid) : Option Target :=
  match lookedUp call named with
  | none => call.device
  | some deviceId => usableTarget call.rule.tenantId (world.lookup deviceId)

/-- What an action publishes. -/
def publishedBy (call : Call F) (world : World) (action : StoredAction F) :
    Option (String × CommandValue F) :=
  match action with
  | .known (.actuatorCommand named actuator value) =>
      (resolved call world named).map fun target =>
        (target.2.1 ++ "/" ++ target.2.2 ++ "/cmd/" ++ actuator, value)
  | _ => none

/-- The message of a notification, and whether it is mailed too. -/
def noticeIn (action : StoredAction F) : Option (String × List NotificationChannel) :=
  match action with
  | .known (.notification message channels) => some (message, channels)
  | _ => none

/-- What an action leaves to the executors. -/
def deferredIn (action : StoredAction F) : Option (DeferredConfig F) :=
  match action with
  | .known (.webhook config) => some (.webhook config)
  | .known (.email recipients subject body) => some (.email recipients subject body)
  | _ => none

/-- What an executor is handed for it. -/
def handed (outside : Outside F) (ruleName : String) (config : DeferredConfig F) :
    DeliveryConfig F :=
  match config with
  | .webhook config => .webhook config
  | .email explicit subject body =>
      .email (if explicit = [] then outside.recipients else explicit) subject body
  | .alert message _ edge =>
      .email outside.recipients
        ("[" ++ ruleName ++ "] " ++ match edge with
          | .clear => "cleared"
          | .fire => "alert") message

/-! ## Without failures -/

section

variable {call : Call F} {world : World}

theorem raises_calm (hcalm : world.Calm) : world.raises (F := F) = fun _ => none := by
  funext step
  unfold World.raises
  cases step.site with
  | none => rfl
  | some site => exact hcalm.succeeds site

theorem doneSteps_calm (hcalm : world.Calm) :
    doneSteps call world = (dispatchActions call world).trace world.raises := by
  unfold doneSteps Attempt.done
  rw [raises_calm hcalm]
  exact List.filter_eq_self.mpr fun _ _ => rfl

/-- A list made from the entries of another, where no entry looks at its index. -/
theorem flatMap_zipIdx {A B : Type} {f : A × Nat → List B} {g : A → List B}
    (h : ∀ a i, f (a, i) = g a) (l : List A) (start : Nat) :
    (l.zipIdx start).flatMap f = l.flatMap g := by
  induction l generalizing start with
  | nil => rfl
  | cons a rest ih => rw [List.zipIdx_cons, List.flatMap_cons, List.flatMap_cons, h, ih]

@[simp] theorem published_append (steps steps' : List (Step F)) :
    published (steps ++ steps') = published steps ++ published steps' := List.filterMap_append

@[simp] theorem noticed_append (steps steps' : List (Step F)) :
    noticed (steps ++ steps') = noticed steps ++ noticed steps' := List.filterMap_append

theorem published_flatMap {A : Type} (f : A → List (Step F)) (l : List A) :
    published (l.flatMap f) = l.flatMap fun a => published (f a) := List.filterMap_flatMap

theorem noticed_flatMap {A : Type} (f : A → List (Step F)) (l : List A) :
    noticed (l.flatMap f) = l.flatMap fun a => noticed (f a) := List.filterMap_flatMap

/-- A look-up that does not raise answers with the target. -/
theorem result_resolveTarget (call : Call F) (hcalm : world.Calm) (index : Nat) (named : Option Uuid) :
    (resolveTarget call world index named).result (world.raises (F := F)) =
      .ok (resolved call world named) := by
  unfold resolveTarget resolved
  cases lookedUp call named with
  | none => rfl
  | some deviceId =>
    dsimp only
    rw [Attempt.result_perform_bind, raises_calm hcalm]
    rfl

/-- The steps of a command: the look-up, and with a target what goes out to it. -/
theorem trace_actuatorCommand (call : Call F) (hcalm : world.Calm) (index : Nat)
    (named : Option Uuid) (actuator : String) (value : CommandValue F) :
    ∃ lookups : List (Step F), published lookups = [] ∧ noticed lookups = [] ∧
      (runAction call world (.known (.actuatorCommand named actuator value), index)).trace
        world.raises = lookups ++ (resolved call world named).toList.flatMap fun target =>
          [.command index (target.2.1 ++ "/" ++ target.2.2 ++ "/cmd/" ++ actuator) value
              (world.commandId index),
            .desired index (target.2.1 ++ "/" ++ target.2.2 ++ "/state/" ++ actuator) value,
            .commandRow index (world.commandId index) target.1 actuator value] := by
  have hresult := result_resolveTarget call hcalm index named
  have htrace : (runAction call world
      (.known (.actuatorCommand named actuator value), index)).trace world.raises =
      (actuate call world index named actuator value).trace world.raises ++ [] :=
    Attempt.trace_bind_ok _ (Attempt.result_caught _ _ _)
  rw [htrace, List.append_nil, actuate, Attempt.trace_bind_ok _ hresult]
  refine ⟨(resolveTarget call world index named).trace world.raises, ?_, ?_, ?_⟩
  · rw [raises_calm hcalm]
    unfold resolveTarget
    cases lookedUp call named <;> rfl
  · rw [raises_calm hcalm]
    unfold resolveTarget
    cases lookedUp call named <;> rfl
  · rw [raises_calm hcalm]
    cases resolved call world named <;> rfl

/-- **What an action publishes when nothing raises.** -/
theorem published_runAction (hcalm : world.Calm) (entry : StoredAction F × Nat) :
    published ((runAction call world entry).trace world.raises) =
      (publishedBy call world entry.1).toList := by
  obtain ⟨action, index⟩ := entry
  cases action with
  | unknown type => rfl
  | known action =>
    cases action with
    | actuatorCommand named actuator value =>
      obtain ⟨lookups, hlookups, -, htrace⟩ :=
        trace_actuatorCommand call hcalm index named actuator value
      rw [htrace, published_append, hlookups, List.nil_append]
      cases htarget : resolved call world named <;> simp [publishedBy, htarget, published]
    | _ => rfl

/-- An action writes no notification by itself. -/
theorem noticed_runAction (hcalm : world.Calm) (entry : StoredAction F × Nat) :
    noticed ((runAction call world entry).trace (world.raises (F := F))) = [] := by
  obtain ⟨action, index⟩ := entry
  cases action with
  | unknown type => rfl
  | known action =>
    cases action with
    | actuatorCommand named actuator value =>
      obtain ⟨lookups, -, hlookups, htrace⟩ :=
        trace_actuatorCommand call hcalm index named actuator value
      rw [htrace, noticed_append, hlookups, List.nil_append]
      cases resolved call world named <;> rfl
    | _ => rfl

/-- The notification that is written: the first one of the list, or at a firing one of its own. -/
def noticeOfCall (call : Call F) : List String :=
  match firstNotification call.actions with
  | some (_, message, _) => [message]
  | none =>
      match call.edge with
      | .clear => []
      | .fire => [call.summary]

theorem trace_notify (hcalm : world.Calm) :
    (notify call).trace (world.raises (F := F)) = (noticeOfCall call).flatMap fun message =>
      [.notification message (severity call.edge) (notificationKind call.edge),
        .notificationEvent] := by
  rw [raises_calm hcalm]
  obtain ⟨rule, device, edge, source, summary⟩ := call
  unfold notify noticeOfCall
  cases firstNotification (Call.actions ⟨rule, device, edge, source, summary⟩) with
  | some found => rfl
  | none => cases edge <;> rfl

theorem trace_latchIfLatching (hcalm : world.Calm) :
    (latchIfLatching call).trace (world.raises (F := F)) =
      if call.latches then [.latched, .latchedEvent] else [] := by
  rw [raises_calm hcalm]
  unfold latchIfLatching
  cases call.latches <;> rfl

/-- **The steps of a calm run**: those of the actions, the notification, the history, the latch, and
the deliveries. -/
theorem doneSteps_eq_of_calm (hcalm : world.Calm) :
    doneSteps call world =
      call.actions.zipIdx.flatMap (fun entry => (runAction call world entry).trace world.raises) ++
        ((noticeOfCall call).flatMap (fun message =>
          [.notification message (severity call.edge) (notificationKind call.edge),
            .notificationEvent]) ++
        (.history call.summary (recordedOutcomes call world) :: .historyEvent ::
        ((if call.latches then [.latched, .latchedEvent] else []) ++
        call.deferred.map .spawn))) := by
  have hrecorded : recorded world = true := by
    simp [recorded, hcalm.succeeds]
  have hpassed : latchPassed call world = true := by
    simp [latchPassed, hcalm.succeeds]
  rw [doneSteps_calm hcalm, trace_dispatchActions, trace_notify hcalm, trace_latchIfLatching hcalm,
    trace_recordRuleExecution, hrecorded, hpassed]
  simp [hcalm.succeeds, admitted, hcalm.room]

/-- What is behind the notification publishes nothing and notifies nobody. -/
theorem rest_silent (call : Call F) (world : World) :
    published (.history call.summary (recordedOutcomes call world) :: .historyEvent ::
        ((if call.latches then [.latched, .latchedEvent] else []) ++ call.deferred.map .spawn)) =
      [] ∧
    noticed (.history call.summary (recordedOutcomes call world) :: .historyEvent ::
        ((if call.latches then [.latched, .latchedEvent] else []) ++ call.deferred.map .spawn)) =
      [] := by
  have hpublished : published (call.deferred.map Step.spawn) = [] := by
    unfold published
    rw [List.filterMap_map]
    exact List.filterMap_eq_nil_iff.mpr fun _ _ => rfl
  have hnoticed : noticed (call.deferred.map Step.spawn) = [] := by
    unfold noticed
    rw [List.filterMap_map]
    exact List.filterMap_eq_nil_iff.mpr fun _ _ => rfl
  cases call.latches with
  | false => exact ⟨hpublished, hnoticed⟩
  | true => exact ⟨hpublished, hnoticed⟩

/-- **The commands of a calm run** are those of its actions, in their order. -/
theorem published_doneSteps (hcalm : world.Calm) :
    published (doneSteps call world) = call.actions.filterMap (publishedBy call world) := by
  have hnotice : published ((noticeOfCall call).flatMap fun message =>
      [Step.notification (F := F) message (severity call.edge) (notificationKind call.edge),
        .notificationEvent]) = [] := by
    rw [published_flatMap]
    exact List.flatMap_eq_nil_iff.mpr fun _ _ => rfl
  rw [doneSteps_eq_of_calm hcalm, published_append, published_append, hnotice,
    (rest_silent call world).1, published_flatMap, List.append_nil, List.append_nil,
    List.filterMap_eq_flatMap_toList]
  exact flatMap_zipIdx (fun action index => published_runAction hcalm (action, index)) _ _

/-- **The notification of a calm run.** -/
theorem noticed_doneSteps (hcalm : world.Calm) :
    noticed (doneSteps call world) = noticeOfCall call := by
  have hactions : noticed (call.actions.zipIdx.flatMap
      fun entry => (runAction call world entry).trace world.raises) = [] := by
    rw [noticed_flatMap]
    exact List.flatMap_eq_nil_iff.mpr fun entry _ => noticed_runAction hcalm entry
  have hnotice : noticed ((noticeOfCall call).flatMap fun message =>
      [Step.notification (F := F) message (severity call.edge) (notificationKind call.edge),
        .notificationEvent]) = noticeOfCall call := by
    rw [noticed_flatMap]
    exact List.flatMap_singleton' _
  rw [doneSteps_eq_of_calm hcalm, noticed_append, noticed_append, hactions, hnotice,
    (rest_silent call world).2, List.append_nil, List.nil_append]

/-! ## The lists of a call -/

/-- The notification that counts is the first. -/
theorem firstNotification_eq (actions : List (StoredAction F)) :
    (firstNotification actions).map Prod.snd = (actions.filterMap noticeIn).head? := by
  unfold firstNotification
  generalize 0 = start
  induction actions generalizing start with
  | nil => rfl
  | cons action rest ih =>
    rw [List.zipIdx_cons, List.findSome?_cons]
    cases action with
    | unknown type => exact ih (start + 1)
    | known action =>
      cases action with
      | notification message channels => rfl
      | _ => exact ih (start + 1)

theorem noticeOfCall_eq (call : Call F) :
    noticeOfCall call =
      match (call.actions.filterMap noticeIn).head? with
      | some (message, _) => [message]
      | none =>
          match call.edge with
          | .clear => []
          | .fire => [call.summary] := by
  rw [← firstNotification_eq]
  unfold noticeOfCall
  cases firstNotification call.actions <;> rfl

/-- What a call leaves to the executors: its webhooks and emails, and the mailed notification. -/
theorem deferred_configs (call : Call F) :
    call.deferred.map DeferredAction.config = call.actions.filterMap deferredIn ++
      match (call.actions.filterMap noticeIn).head? with
      | some (message, channels) =>
          if .email ∈ channels then [.alert message call.rule.name call.edge] else []
      | none => [] := by
  have hloop : (call.actions.zipIdx.flatMap deferredOf).map DeferredAction.config =
      call.actions.filterMap deferredIn := by
    rw [List.map_flatMap, List.filterMap_eq_flatMap_toList]
    refine flatMap_zipIdx (fun action index => ?_) _ _
    cases action with
    | unknown type => rfl
    | known action => cases action <;> rfl
  unfold Call.deferred alertOf
  rw [List.map_append, hloop, ← firstNotification_eq]
  cases firstNotification call.actions with
  | none => rfl
  | some found =>
    obtain ⟨index, message, channels⟩ := found
    congr 1
    dsimp only [Option.map_some]
    split <;> rfl

/-! ## Deliveries -/

section

variable {outside : Outside F}

theorem exists_attempt (config : DeliveryConfig F) : ∃ n, maxAttempts config = n + 1 := by
  cases config with
  | email recipients subject body => exact ⟨3, rfl⟩
  | webhook config =>
    refine Nat.exists_eq_succ_of_ne_zero ?_
    simp [maxAttempts]

/-- The first attempt succeeds, and there is no second. -/
theorem executeWithRetry_succeeds (hsucceeds : outside.Succeeds) (config : DeliveryConfig F) :
    (executeWithRetry outside config).trace (fun _ => none) = [.execute 1 config] ∧
      ∃ result, (executeWithRetry outside config).result (fun _ => none) = .ok result ∧
        result.status = .success := by
  obtain ⟨n, hn⟩ := exists_attempt config
  have hfirst := hsucceeds.execute config 1
  have hattempt : (Attempt.caught
      (do
        Attempt.perform (DeliveryStep.execute 1 config)
        pure (outside.execute config 1))
      fun error => ⟨.failed, [("error", .str (truncated error))]⟩ :
      DeliveryProgram F (ActionResult F)).result (fun _ => none) =
        .ok (outside.execute config 1) := rfl
  unfold executeWithRetry
  rw [hn, attemptsFrom]
  refine ⟨?_, ?_⟩
  · rw [Attempt.trace_bind_ok _ hattempt, hfirst]
    rfl
  · rw [Attempt.result_bind_ok _ hattempt, hfirst]
    exact ⟨_, rfl, rfl⟩

/-- Somebody is found to write to. -/
theorem configOf_succeeds (hsucceeds : outside.Succeeds) (ruleName : String)
    (config : DeferredConfig F) :
    handedOver ((configOf outside ruleName config).trace fun _ => none) = [] ∧
      (configOf outside ruleName config).result (fun _ => none) =
        .ok (some (handed outside ruleName config)) := by
  obtain ⟨first, others, hsome⟩ := List.exists_cons_of_ne_nil hsucceeds.recipients
  cases config with
  | webhook config => exact ⟨rfl, rfl⟩
  | email explicit subject body =>
    cases explicit with
    | cons recipient rest => exact ⟨rfl, rfl⟩
    | nil =>
      have hfound : (recipientsOf outside []).result (fun _ => none) = .ok (first :: others) :=
        congrArg Except.ok hsome
      unfold configOf
      rw [Attempt.trace_bind_ok _ hfound, Attempt.result_bind_ok _ hfound]
      unfold handed
      rw [hsome]
      exact ⟨rfl, rfl⟩
  | alert message _ edge =>
    have hfound : (recipientsOf outside []).result (fun _ => none) = .ok (first :: others) :=
      congrArg Except.ok hsome
    unfold configOf
    rw [Attempt.trace_bind_ok _ hfound, Attempt.result_bind_ok _ hfound]
    unfold handed
    rw [hsome]
    exact ⟨rfl, rfl⟩

/-- **A delivery that succeeds is handed over once.** -/
theorem handedOver_run (hsucceeds : outside.Succeeds) (ruleName : String)
    (deferred : DeferredAction F) :
    handedOver ((runDeferredAction outside ruleName deferred).done fun _ => none) =
      [handed outside ruleName deferred.config] := by
  obtain ⟨hnone, hconfig⟩ := configOf_succeeds hsucceeds ruleName deferred.config
  obtain ⟨htrace, result, hresult, hstatus⟩ :=
    executeWithRetry_succeeds hsucceeds (handed outside ruleName deferred.config)
  have hdone : (runDeferredAction outside ruleName deferred).done (fun _ => none) =
      (deliver outside ruleName deferred).trace fun _ => none :=
    List.filter_eq_self.mpr fun _ _ => rfl
  rw [hdone, deliver, Attempt.trace_bind_ok _ hconfig, Attempt.trace_bind_ok _ hresult, htrace,
    hstatus]
  unfold handedOver at hnone ⊢
  rw [List.filterMap_append, hnone]
  rfl

end

end

end IotSaas.Worker.Dispatch
