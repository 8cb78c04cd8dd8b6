import IotSaas.Worker.Latched

/-!
# `Worker/LatchedRun.lean` — the set and the evaluator agree at rest

What every flag settles at, once everything owed is written, is kept equal to the evaluator's word
by every step that `InStep` admits (`settles_step`); at rest nothing is owed, so the set itself is
right (`latched_mirrors`). The two runs at the end show what goes wrong otherwise.
-/

set_option autoImplicit false

namespace IotSaas.Worker

open Lib Rules Ingestion

variable {F : Type} [PyFloat F]

namespace Latched

open Tasks OutOfBand

section

variable {digest : Option (Node F) → Option (Node F) → String}
  {directory : Uuid → Option DeviceDirectoryRecord} {rows : List (Rule F)} {s s' : State F}

/-! ## The flags settle where the evaluator is -/

/-- Once everything owed is written, a latch rule is in the set exactly when it is disarmed. -/
def Settles (rows : List (Rule F)) (s : State F) : Prop :=
  ∀ rule ∈ rows, rule.executionPolicy.strategy = .latch →
    Outstanding.settled s.owed rule.id (decide (rule.id ∈ s.latched)) =
      !(s.tasks.worker.ruleStates.getD rule.id {}).armed

variable {evaluation : Tasks.Evaluation F}

/-- **What an evaluation does to the flag of the rule it is about**: a fire from a metric disarms
it, and nothing else moves it. -/
theorem armed_evaluation
    (hs : evaluation.rule.executionPolicy.strategy = .latch)
    (hok : evaluation.entry = .evaluate → ¬ ReopensOnly evaluation.rule
      (snapshotForSignals s.tasks.worker.signalValueCache
        (referencedSignals evaluation.rule.condition))
      evaluation.now (stateFor digest evaluation.rule s.tasks.worker).1) :
    ((runCached digest evaluation.entry evaluation.rule evaluation.now
        s.tasks.worker).2.ruleStates.getD evaluation.rule.id {}).armed =
      if evaluation.entry = .evaluate ∧ latches digest s evaluation = true then false
      else (s.tasks.worker.ruleStates.getD evaluation.rule.id {}).armed := by
  obtain ⟨harmed, -, -⟩ := stateFor_episode digest evaluation.rule s.tasks.worker
  rw [runCached_getD, if_pos rfl]
  cases hentry : evaluation.entry with
  | evaluate =>
    have hcall := evaluate_armed_latch hs (hok hentry)
    rw [harmed] at hcall
    unfold latches
    simp only [hentry, hs, decide_true, Bool.and_true, true_and]
    exact hcall
  | evaluateEvent =>
    obtain ⟨lastFiredAt, heq, -⟩ := evaluateEvent_frame evaluation.rule
      (snapshotForSignals s.tasks.worker.signalValueCache
        (referencedSignals evaluation.rule.condition))
      evaluation.now (stateFor digest evaluation.rule s.tasks.worker).1
    rw [if_neg (by simp)]
    show (evaluateEvent _ _ _ _).2.armed = _
    rw [heq]
    exact harmed

theorem wouldFire_of_latches (hentry : evaluation.entry = .evaluate)
    (h : latches digest s evaluation = true) :
    WouldFire evaluation.rule
      (snapshotForSignals s.tasks.worker.signalValueCache
        (referencedSignals evaluation.rule.condition))
      evaluation.now (stateFor digest evaluation.rule s.tasks.worker).1 := by
  unfold latches at h
  rw [hentry] at h
  exact evaluate_fires_iff.mp (Bool.and_eq_true_iff.mp h).1

/-- An evaluation settles as it decides: the write it issues is the fire it made, and the other
rules' flags and states are as they were. -/
theorem settles_evaluation (hids : (rows.map (·.id)).Nodup) (h : Placed digest rows s)
    (hsettles : Settles rows s) {event : Tasks.Event F}
    (ok : InStep digest directory s (.task event))
    (he : s.tasks.evaluation? event = some evaluation)
    (hstep : step digest directory s (.task event) = some s')
    (hworker : s'.tasks.worker =
      (runCached digest evaluation.entry evaluation.rule evaluation.now s.tasks.worker).2)
    (writer : Writer)
    (hissued : issued digest directory s event =
      if latches digest s evaluation = true ∧ evaluation.entry = .evaluate ∧
          (isTrigger event = true →
            hasContext directory evaluation.tenantId evaluation.trigger = true) then
        [⟨writer, evaluation.rule.id, true⟩]
      else []) : Settles rows s' := by
  obtain ⟨-, hmirrored, horder⟩ := ok
  intro rule hrule hs
  rw [settled_step_task hstep horder, hworker, hsettles rule hrule hs]
  by_cases hid : evaluation.rule.id = rule.id
  · have heq := evaluation_rule hids h he hrule hid
    subst heq
    have hm := fun hentry => hmirrored evaluation he hentry hs
    rw [armed_evaluation hs fun hentry => (hm hentry).reopens, hissued]
    by_cases hfire : evaluation.entry = .evaluate ∧ latches digest s evaluation = true
    · have hcontext : isTrigger event = true →
          hasContext directory evaluation.tenantId evaluation.trigger = true := by
        intro ht
        exact (hm hfire.1).context ht (wouldFire_of_latches hfire.1 hfire.2)
      rw [if_pos ⟨hfire.2, hfire.1, hcontext⟩, if_pos hfire]
      simp [Outstanding.settled]
    · rw [if_neg fun hall => hfire ⟨hall.2.1, hall.1⟩, if_neg hfire]
      rfl
  · -- another rule's evaluation
    rw [runCached_getD, if_neg (Ne.symm hid), hissued]
    split
    · simp [Outstanding.settled, hid]
    · rfl

omit [PyFloat F] in
/-- What `ruleOf` finds is under its own id. -/
theorem ruleOf_id (h : Placed digest rows s) {tenantId ruleId : Uuid} {rule : Rule F}
    (hrule : s.tasks.ruleOf tenantId ruleId = some rule) : rule.id = ruleId := by
  unfold Tasks.State.ruleOf at hrule
  split at hrule
  · cases hrule
  · rename_i cached hget
    split at hrule
    · cases hrule
      rw [h.rulesById] at hget
      exact id_of_rulesById hget
    · cases hrule

/-- A step that neither evaluates nor resets leaves flags and states alone. -/
theorem settles_kept (hsettles : Settles rows s) {event : Tasks.Event F}
    (ok : InStep digest directory s (.task event))
    (hstep : step digest directory s (.task event) = some s')
    (hissued : issued digest directory s event = [])
    (hstates : s'.tasks.worker.ruleStates = s.tasks.worker.ruleStates) : Settles rows s' := by
  intro rule hrule hs
  rw [settled_step_task hstep ok.2.2, hissued, hstates]
  exact hsettles rule hrule hs

/-- **Every step keeps the flags settling.** -/
theorem settles_step (hids : (rows.map (·.id)).Nodup) (h : Placed digest rows s)
    (hsettles : Settles rows s) {e : Event F} (ok : InStep digest directory s e)
    (hstep : step digest directory s e = some s') : Settles rows s' := by
  cases e with
  | resetWritten =>
    unfold step at hstep
    dsimp only at hstep
    split at hstep
    · cases hstep
    · rw [← Option.some.inj hstep]
      intro rule hrule hs
      -- The write that was owed is made, and what is settled stays so.
      rw [carryOut_settled ok, carryOut_tasks]
      exact hsettles rule hrule hs
  | task event =>
    obtain ⟨tasks, htasks, heq⟩ := step_task hstep
    have htasks' : s'.tasks = tasks := by rw [heq]
    cases event with
    | reading tenantId signal value timestamp =>
      obtain ⟨-, rfl⟩ := step_reading htasks
      refine settles_kept hsettles ok hstep rfl ?_
      rw [htasks']
      rfl
    | evaluate =>
      obtain ⟨rule, rest, tenantId, deviceId, now, hhot, rfl⟩ := step_evaluate htasks
      have he : s.tasks.evaluation? .evaluate =
          some ⟨rule, .evaluate, now, tenantId, some deviceId⟩ := by
        simp [Tasks.State.evaluation?, hhot]
      refine settles_evaluation hids h hsettles ok he hstep ?_ .ingest ?_
      · rw [htasks']
      · rw [issued_evaluate hhot]
        simp [isTrigger]
    | hotAwait =>
      obtain ⟨ruleId, awaits, rest, tenantId, deviceId, now, -, hs'⟩ := step_hotAwait htasks
      refine settles_kept hsettles ok hstep rfl ?_
      rw [htasks']
      cases awaits with
      | nil =>
        rw [hs']
      | cons await awaits =>
        rw [hs']
        simp
    | trigger tenantId ruleId source deviceId now =>
      obtain ⟨evaluation, he, rfl⟩ := step_trigger htasks
      refine settles_evaluation hids h hsettles ok he hstep ?_ .outOfBand ?_
      · rw [htasks']
      · rw [issued_trigger he, (outOfBand_of_evaluation he).2]
        cases source <;> simp [isTrigger, Source.entry]
    | outOfBandAwait =>
      obtain ⟨ruleId, awaits, -, hs'⟩ := step_outOfBandAwait htasks
      refine settles_kept hsettles ok hstep rfl ?_
      rw [htasks']
      cases awaits with
      | nil =>
        rw [hs']
      | cons await awaits =>
        rw [hs']
        simp
    | reset tenantId ruleId =>
      obtain ⟨reset, hreset, rfl⟩ := step_reset htasks
      have hid := ruleOf_id h hreset
      intro rule hrule hs
      rw [settled_step_task hstep ok.2.2, htasks', hsettles rule hrule hs]
      show Outstanding.settled [⟨.reset, ruleId, false⟩] rule.id _ =
        !((resetCached digest reset s.tasks.worker).ruleStates.getD rule.id {}).armed
      -- The reset arms its own rule and owes the write that says so.
      by_cases hq : ruleId = rule.id
      · subst hq
        rw [← hid]
        simp [Outstanding.settled, resetCached, resetLatch]
      · have hne : rule.id ≠ reset.id := fun heq => hq (hid.symm.trans heq.symm)
        simp [Outstanding.settled, hq, resetCached, stateFor, Dict.getD, Dict.get_set, hne]
    | reload rows' => exact absurd rfl (ok.1 rows')

end

/-! ## The set mirrors the evaluator -/

/-- A worker that has loaded `rows`, nothing in flight, and the set right. -/
structure Start (digest : Option (Node F) → Option (Node F) → String) (rows : List (Rule F))
    (s : State F) : Prop where
  caches : s.tasks.worker.caches = loadRuleCache digest rows
  hot : s.tasks.hot = .idle
  outOfBand : s.tasks.outOfBand = none
  owed : s.owed = []
  mirrors : Mirrors rows s

omit [PyFloat F] in
/-- With nothing owed, to settle is to be right. -/
theorem mirrors_iff_settles {rows : List (Rule F)} {s : State F} (h : s.owed = []) :
    Mirrors rows s ↔ Settles rows s := by
  unfold Mirrors Settles
  rw [h]
  have hflag : ∀ (p : Prop) [Decidable p] (b : Bool), (p ↔ b = false) ↔ decide p = !b := by
    intro p _ b
    cases b <;> simp
  simp only [Outstanding.settled_nil, hflag]

omit [PyFloat F] in
theorem Start.placed {digest : Option (Node F) → Option (Node F) → String} {rows : List (Rule F)}
    {s : State F} (h : Start digest rows s) : Placed digest rows s := by
  have hnone : ∀ w : Write Writer Uuid Bool, w ∉ s.owed := by
    intro w
    rw [h.owed]
    exact List.not_mem_nil
  refine ⟨?_, ?_, ?_, ?_, ?_, ?_, ?_⟩
  · rw [h.caches]
  · rw [h.caches]
  · rw [h.hot]
    intro rule hrule
    cases hrule
  · rintro ⟨w, hw, -⟩
    exact absurd hw (hnone w)
  · rintro ⟨w, hw, -⟩
    exact absurd hw (hnone w)
  · rw [h.owed]
    exact Nat.zero_le _
  · rw [h.owed]
    exact Nat.zero_le _

/-- **The set mirrors the evaluator.** In every run of readings, out-of-band runs and resets,
interleaved at the awaits, in which no reset tree arms a latch rule without firing it, no fire
lacks its device and no write overtakes an older one of the other kind: whenever no dispatch and no
reset is in flight, the latch rules in the set are the disarmed ones. -/
theorem latched_mirrors (digest : Option (Node F) → Option (Node F) → String)
    (directory : Uuid → Option DeviceDirectoryRecord) {rows : List (Rule F)}
    (hids : (rows.map (·.id)).Nodup) {s₀ s : State F} (hstart : Start digest rows s₀)
    (h : Reaches (step digest directory) (InStep digest directory) s₀ s) (hrest : AtRest s) :
    Mirrors rows s := by
  have hinv : Placed digest rows s ∧ Settles rows s := by
    refine h.invariant (I := fun s => Placed digest rows s ∧ Settles rows s)
      ⟨hstart.placed, (mirrors_iff_settles hstart.owed).mp hstart.mirrors⟩ ?_
    intro s e s' ih ok hs
    exact ⟨placed_step ih.1 ok hs, settles_step hids ih.1 ih.2 ok hs⟩
  exact (mirrors_iff_settles (hinv.1.owed_nil hrest)).mpr hinv.2

/-! ## A siren -/

/-- Sounds once and waits to be reset. -/
def siren : Rule Int := { thermostat with executionPolicy := { strategy := .latch } }

/-- The same, but arms itself again once the room is below 25. -/
def calmSiren : Rule Int :=
  { thermostat with
    executionPolicy :=
      { strategy := .latch
        resetCondition := some (.leaf ⟨"device", "temperature", .compare .lt (.static 25) 0⟩) } }

def loaded (rule : Rule Int) : State Int :=
  { tasks := { worker := { caches := loadRuleCache (fun _ _ => "digest") [rule] } } }

theorem start_loaded (rule : Rule Int) : Start (fun _ _ => "digest") [rule] (loaded rule) := by
  refine ⟨rfl, rfl, rfl, rfl, ?_⟩
  intro other _ _
  simp [loaded]

theorem inStep_of_no_evaluation {digest : Option (Node F) → Option (Node F) → String}
    {directory : Uuid → Option DeviceDirectoryRecord} {s : State F} {event : Tasks.Event F}
    (he : s.tasks.evaluation? event = none) (hreload : ∀ rows, event ≠ .reload rows)
    (howed : s.owed.length ≤ 1) : InStep digest directory s (.task event) := by
  refine ⟨hreload, ?_, fun _ _ => Outstanding.inOrder_of_length_le_one howed⟩
  intro evaluation hev
  rw [he] at hev
  cases hev

/-- It sounds. -/
def sounding : List (Event Int) :=
  [.task (.reading "tenant" ⟨"device", "temperature"⟩ 35 0), .task .evaluate, .task .hotAwait,
    .task .hotAwait, .task .hotAwait, .task .hotAwait]

def soundingState : State Int :=
  (run (step (fun _ _ => "digest") oneDevice) (loaded siren) sounding).getD {}

theorem latched_mirrors_siren : Mirrors [siren] soundingState := by
  refine latched_mirrors (fun _ _ => "digest") oneDevice (by decide) (start_loaded siren)
    (.next (.next (.next (.next (.next (.next .start
      (e := .task (.reading "tenant" ⟨"device", "temperature"⟩ 35 0))
        (inStep_of_no_evaluation rfl (by simp) (by decide)) rfl)
      (e := .task .evaluate) ?_ rfl)
      (e := .task .hotAwait) (inStep_of_no_evaluation rfl (by simp) (by decide)) rfl)
      (e := .task .hotAwait) (inStep_of_no_evaluation rfl (by simp) (by decide)) rfl)
      (e := .task .hotAwait) (inStep_of_no_evaluation rfl (by simp) (by decide)) rfl)
      (e := .task .hotAwait) (inStep_of_no_evaluation rfl (by simp) (by decide)) rfl) ?_
  · refine ⟨by simp, ?_, fun _ _ => Outstanding.inOrder_of_length_le_one (by decide)⟩
    intro evaluation he _ _
    cases he
    constructor
    · rintro ⟨harmed, -⟩
      cases harmed
    · intro ht
      cases ht
  · refine ⟨?_, rfl, ?_⟩
    · intro dispatch rest tenantId deviceId now hhot
      cases hhot
    · intro w hw
      cases hw

/-- It sounds, and a cooler reading arms it again. -/
def calmed : List (Event Int) :=
  sounding ++ [.task (.reading "tenant" ⟨"device", "temperature"⟩ 20 1000000), .task .evaluate]

/-- A reset comes between the fire and its `SADD`. -/
def resetInTheMiddle : List (Event Int) :=
  [.task (.reading "tenant" ⟨"device", "temperature"⟩ 35 0), .task .evaluate, .task .hotAwait,
    .task (.reset "tenant" "thermostat"), .resetWritten,
    .task .hotAwait, .task .hotAwait, .task .hotAwait]

omit [PyFloat F] in
/-- What a state at rest is asked for. -/
def idle (s : State F) : Bool :=
  (match s.tasks.hot with
    | .dispatching _ _ _ _ _ => false
    | _ => true) &&
  s.tasks.outOfBand.isNone && s.owed.isEmpty

omit [PyFloat F] in
theorem atRest_of_idle {s : State F} (h : idle s = true) : AtRest s := by
  unfold idle at h
  rw [Bool.and_eq_true, Bool.and_eq_true] at h
  obtain ⟨⟨hhot, hout⟩, howed⟩ := h
  refine ⟨?_, Option.isNone_iff_eq_none.mp hout, ?_⟩
  · intro dispatch rest tenantId deviceId now hd
    rw [hd] at hhot
    cases hhot
  · intro w hw
    rw [List.isEmpty_iff.mp howed] at hw
    cases hw

/-- A run that ends at rest with the rule armed and still in the set. -/
theorem not_mirrors_of_run {rule : Rule Int} (hs : rule.executionPolicy.strategy = .latch)
    (events : List (Event Int))
    (hrun : (run (step (fun _ _ => "digest") oneDevice) (loaded rule) events).map
        (fun s => (idle s, decide (rule.id ∈ s.latched),
          (s.tasks.worker.ruleStates.getD rule.id {}).armed)) = some (true, true, true)) :
    ¬ ∀ s, Reaches (step (fun _ _ => "digest") oneDevice) Always (loaded rule) s → AtRest s →
      Mirrors [rule] s := by
  intro h
  obtain ⟨s, hs', hvals⟩ := Option.map_eq_some_iff.mp hrun
  obtain ⟨hidle, hmem, harmed⟩ : _ ∧ _ ∧ _ := by simpa only [Prod.mk.injEq] using hvals
  have hmirrors := h s (.of_run hs') (atRest_of_idle hidle) rule List.mem_cons_self hs
  have hdisarmed := hmirrors.mp (of_decide_eq_true hmem)
  rw [harmed] at hdisarmed
  cases hdisarmed

/-- **Armed, and shown as latched:** after a reset tree has armed the rule again, and after a reset
whose `SREM` was ahead of the `SADD` of the fire before it. -/
theorem latched_set_strays :
    (¬ ∀ s, Reaches (step (fun _ _ => "digest") oneDevice) Always (loaded calmSiren) s →
      AtRest s → Mirrors [calmSiren] s) ∧
    ¬ ∀ s, Reaches (step (fun _ _ => "digest") oneDevice) Always (loaded siren) s →
      AtRest s → Mirrors [siren] s :=
  ⟨not_mirrors_of_run rfl calmed (by decide +kernel),
    not_mirrors_of_run rfl resetInTheMiddle (by decide +kernel)⟩

end Latched

end IotSaas.Worker
