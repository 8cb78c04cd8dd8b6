import IotSaas.Lib.Outstanding
import IotSaas.Lib.Reach
import IotSaas.Rules.Calls
import IotSaas.Worker.OutOfBand
import Mathlib.Data.Finset.Basic

/-!
# `Worker/Latched.lean` — the set of latched rules

`rules:latched` in Redis is what the interface reads: a rule in it is shown as latched and offered
the reset. The evaluator's own word on the matter is `armed`. The set is written at two places,
`_dispatch_actions` after a fire and `reset_rule_latch` after a reset, each time some awaits after
`armed` moved. A write is therefore *owed* from the decision on (`Lib/Outstanding.lean`), and the
two agree at rest as long as three things are kept out: a reset tree that arms the rule again,
which writes nothing; a fire of the pending-timer loop that finds no device to dispatch for; and a
write that overtakes an older one of the other kind.
-/

set_option autoImplicit false

namespace IotSaas.Worker

open Lib Rules Ingestion

variable {F : Type}

namespace Latched

open Tasks OutOfBand

/-- Who writes to the set: the ingest loop's dispatch, an out-of-band dispatch, a reset. -/
inductive Writer where
  | ingest | outOfBand | reset
  deriving DecidableEq

/-- The tasks, the members of `rules:latched`, and the `SADD`s (`true`) and `SREM`s (`false`) that
are owed, in the order of the decisions. -/
structure State (F : Type) where
  tasks : Tasks.State F := {}
  latched : Finset Uuid := ∅
  owed : List (Write Writer Uuid Bool) := []

inductive Event (F : Type) where
  | task (event : Tasks.Event F)
  /-- The `SREM` of a reset. -/
  | resetWritten

/-- `_set_latched`: the owed write reaches Redis. -/
def State.carryOut (s : State F) (writer : Writer) : State F :=
  match Outstanding.next writer s.owed with
  | none => s
  | some w =>
      { s with
        latched := if w.value then insert w.key s.latched else s.latched.erase w.key
        owed := Outstanding.rest writer s.owed }

/-- Whose write an await is. `_dispatch_actions` sets the flag in its last one. -/
def State.writes? (s : State F) (event : Tasks.Event F) : Option Writer :=
  match event with
  | .hotAwait =>
      match s.tasks.hot with
      | .dispatching ⟨_, [_]⟩ _ _ _ _ => some .ingest
      | _ => none
  | .outOfBandAwait =>
      match s.tasks.outOfBand with
      | some ⟨_, [_]⟩ => some .outOfBand
      | _ => none
  | _ => none

/-- The state once the await of `event` has written what it has to. -/
def State.written (s : State F) (event : Tasks.Event F) : State F :=
  match s.writes? event with
  | none => s
  | some writer => s.carryOut writer

/-- `_resolve_rule_context` has a device to go by, or needs none. -/
def hasContext (directory : Uuid → Option DeviceDirectoryRecord) (tenantId : Uuid)
    (context : Option Uuid) : Bool :=
  context.all fun deviceId => (usable directory tenantId deviceId).isSome

variable [PyFloat F]

/-- Whether an evaluation fires a rule whose strategy is latch. -/
def latches (digest : Option (Node F) → Option (Node F) → String) (s : State F)
    (evaluation : Tasks.Evaluation F) : Bool :=
  ((runCached digest evaluation.entry evaluation.rule evaluation.now s.tasks.worker).1.any
    fun firing => firing.edge = .fire) &&
  decide (evaluation.rule.executionPolicy.strategy = .latch)

/-- The write an event decides on: a latch rule fired from a metric and dispatched, or reset. -/
def issued (digest : Option (Node F) → Option (Node F) → String)
    (directory : Uuid → Option DeviceDirectoryRecord) (s : State F) (event : Tasks.Event F) :
    List (Write Writer Uuid Bool) :=
  match event with
  | .evaluate =>
      match s.tasks.evaluation? event with
      | none => []
      | some evaluation =>
          if latches digest s evaluation then [⟨.ingest, evaluation.rule.id, true⟩] else []
  | .trigger _ _ source _ _ =>
      match s.tasks.evaluation? event with
      | none => []
      | some evaluation =>
          if latches digest s evaluation = true ∧ source = .metric ∧
              hasContext directory evaluation.tenantId evaluation.trigger = true then
            [⟨.outOfBand, evaluation.rule.id, true⟩]
          else []
  | .reset _ ruleId => [⟨.reset, ruleId, false⟩]
  | _ => []

def step (digest : Option (Node F) → Option (Node F) → String)
    (directory : Uuid → Option DeviceDirectoryRecord) (s : State F) (e : Event F) :
    Option (State F) :=
  match e with
  | .task event =>
      match Tasks.step digest directory s.tasks event with
      | none => none
      | some tasks =>
          some { s.written event with
            tasks := tasks
            owed := (s.written event).owed ++ issued digest directory s event }
  | .resetWritten =>
      match Outstanding.next .reset s.owed with
      | none => none
      | some _ => some (s.carryOut .reset)

/-! ## What keeps the set in step -/

/-- Every gate in front of a fire is open. -/
def WouldFire (rule : Rule F) (snapshot : MetricSnapshot F) (now : Datetime) (state : RuleState) :
    Prop :=
  treeResult rule snapshot now state = some true ∧ HoldComplete rule now state ∧
    (rearmed rule snapshot now state).armed = true ∧ coolingDown rule now state = false

/-- The call arms a disarmed rule by its reset tree, and does not fire it. -/
def ReopensOnly (rule : Rule F) (snapshot : MetricSnapshot F) (now : Datetime)
    (state : RuleState) : Prop :=
  state.armed = false ∧ resetResult rule snapshot now state = some (some true) ∧
    ¬ WouldFire rule snapshot now state

/-- What an evaluation of a latch rule must not run into, the snapshot and the state being those
the call will see. -/
structure Mirrored (directory : Uuid → Option DeviceDirectoryRecord) (outOfBand : Bool)
    (evaluation : Tasks.Evaluation F) (snapshot : MetricSnapshot F) (state : RuleState) : Prop where
  /-- No reset tree arms the rule behind the set's back. -/
  reopens : ¬ ReopensOnly evaluation.rule snapshot evaluation.now state
  /-- What fires out of band has a device to go by. -/
  context : outOfBand = true → WouldFire evaluation.rule snapshot evaluation.now state →
    hasContext directory evaluation.tenantId evaluation.trigger = true

def isTrigger (event : Tasks.Event F) : Bool :=
  match event with
  | .trigger _ _ _ _ _ => true
  | _ => false

/-- The condition on a step: no reload, the evaluations of latch rules `Mirrored`, and no write
ahead of an older one of the other kind. -/
def InStep (digest : Option (Node F) → Option (Node F) → String)
    (directory : Uuid → Option DeviceDirectoryRecord) (s : State F) (e : Event F) : Prop :=
  match e with
  | .resetWritten => Outstanding.InOrder .reset s.owed
  | .task event =>
      (∀ rows, event ≠ .reload rows) ∧
      (∀ evaluation, s.tasks.evaluation? event = some evaluation →
        evaluation.entry = .evaluate → evaluation.rule.executionPolicy.strategy = .latch →
        Mirrored directory (isTrigger event) evaluation
          (snapshotForSignals s.tasks.worker.signalValueCache
            (referencedSignals evaluation.rule.condition))
          (stateFor digest evaluation.rule s.tasks.worker).1) ∧
      ∀ writer, s.writes? event = some writer → Outstanding.InOrder writer s.owed

/-- Neither a dispatch nor a reset is in flight. -/
def AtRest (s : State F) : Prop :=
  (∀ dispatch rest tenantId deviceId now,
    s.tasks.hot ≠ .dispatching dispatch rest tenantId deviceId now) ∧
  s.tasks.outOfBand = none ∧ ∀ w ∈ s.owed, w.agent ≠ .reset

omit [PyFloat F] in
/-- The set says of the latch rules among `rows` what the evaluator says. -/
def Mirrors (rows : List (Rule F)) (s : State F) : Prop :=
  ∀ rule ∈ rows, rule.executionPolicy.strategy = .latch →
    (rule.id ∈ s.latched ↔ (s.tasks.worker.ruleStates.getD rule.id {}).armed = false)

/-! ## What a call of a latch rule does to `armed` -/

section

variable {rule : Rule F} {snapshot : MetricSnapshot F} {now : Datetime} {state : RuleState}

theorem evaluate_fires_iff :
    ((evaluate rule snapshot now state).1.any fun firing => firing.edge = .fire) = true ↔
      WouldFire rule snapshot now state := by
  unfold WouldFire
  cases evaluate_exit rule snapshot now state with
  | gated tree gate eq =>
    rw [eq]
    constructor
    · intro h
      cases h
    · rintro ⟨_, held, armed, cool⟩
      rcases gate with gate | gate | gate
      · exact absurd held gate
      · rw [armed] at gate
        cases gate
      · rw [cool] at gate
        cases gate
  | fired tree held armed cool eq =>
    rw [eq]
    exact ⟨fun _ => ⟨tree, held, armed, cool⟩, fun _ => rfl⟩
  | idle tree shut eq => simp [eq, tree]
  | dropped tree isOpen gone eq => simp [eq, tree]
  | holding tree isOpen has short eq => simp [eq, tree]
  | cleared tree isOpen has done eq => simp [eq, tree]

/-- The re-arm block leaves a latch rule as it was, but for the reset tree. -/
theorem rearmed_armed_latch (hs : rule.executionPolicy.strategy = .latch)
    (hreset : state.armed = false → resetResult rule snapshot now state ≠ some (some true)) :
    (rearmed rule snapshot now state).armed = state.armed := by
  cases ha : state.armed with
  | true =>
    unfold rearmed rearm
    simp [ha]
  | false =>
    cases hr : (rearmed rule snapshot now state).armed with
    | false => rfl
    | true =>
      have hreason := rearmed_reason ha hr
      unfold RearmReason at hreason
      rw [hs] at hreason
      cases hc : rule.executionPolicy.resetCondition with
      | none =>
        rw [hc] at hreason
        exact hreason.elim
      | some reset =>
        rw [hc] at hreason
        exact absurd hreason (hreset ha)

/-- **A fire disarms a latch rule, and nothing else about a call moves `armed`**, as long as no
reset tree arms it. -/
theorem evaluate_armed_latch (hs : rule.executionPolicy.strategy = .latch)
    (hok : ¬ ReopensOnly rule snapshot now state) :
    (evaluate rule snapshot now state).2.armed =
      if (evaluate rule snapshot now state).1.any (fun firing => firing.edge = .fire) then false
      else state.armed := by
  by_cases hfire : WouldFire rule snapshot now state
  · rw [if_pos (evaluate_fires_iff.mpr hfire)]
    obtain ⟨firing, hf, he⟩ := (Option.any_eq_true _ _).mp (evaluate_fires_iff.mpr hfire)
    rw [(evaluate_fires hf (by simpa using he)).2.2.2.2]
  · rw [if_neg fun h => hfire (evaluate_fires_iff.mp h)]
    have harmed : (rearmed rule snapshot now state).armed = state.armed :=
      rearmed_armed_latch hs fun ha hr => hok ⟨ha, hr, hfire⟩
    rw [← harmed]
    cases evaluate_exit rule snapshot now state with
    | gated tree gate eq => rw [eq]; rfl
    | fired tree held armed cool eq => exact absurd ⟨tree, held, armed, cool⟩ hfire
    | idle tree shut eq => rw [eq]; rfl
    | dropped tree isOpen gone eq => rw [eq]; rfl
    | holding tree isOpen has short eq => rw [eq]; rfl
    | cleared tree isOpen has done eq => rw [eq]; rfl

end

/-! ## The tasks stay in their places -/

omit [PyFloat F] in
/-- The rules the hot loop has still to evaluate. -/
def coming (hot : Hot F) : List (Rule F) :=
  match hot with
  | .idle => []
  | .evaluating rest _ _ _ | .dispatching _ rest _ _ _ => rest

omit [PyFloat F] in
@[simp] theorem coming_resume (rest : List (Rule F)) (tenantId deviceId : Uuid) (now : Datetime) :
    coming (Hot.resume rest tenantId deviceId now) = rest := by
  cases rest <;> rfl

/-- The caches are those of `rows`, and whoever owes a write has an await before it. -/
structure Placed (digest : Option (Node F) → Option (Node F) → String) (rows : List (Rule F))
    (s : State F) : Prop where
  ruleCache : s.tasks.worker.caches.ruleCache = (loadRuleCache digest rows).ruleCache
  rulesById : s.tasks.worker.caches.rulesById = (loadRuleCache digest rows).rulesById
  coming : ∀ rule ∈ coming s.tasks.hot, rule ∈ rows
  ingest : (∃ w ∈ s.owed, w.agent = .ingest) → ∃ ruleId await awaits rest tenantId deviceId now,
    s.tasks.hot = .dispatching ⟨ruleId, await :: awaits⟩ rest tenantId deviceId now
  outOfBand : (∃ w ∈ s.owed, w.agent = .outOfBand) → ∃ ruleId await awaits,
    s.tasks.outOfBand = some ⟨ruleId, await :: awaits⟩
  ingestOnce : Outstanding.AtMostOne Writer.ingest s.owed
  outOfBandOnce : Outstanding.AtMostOne Writer.outOfBand s.owed

omit [PyFloat F] in
/-- At rest nothing is owed. -/
theorem Placed.owed_nil {digest : Option (Node F) → Option (Node F) → String}
    {rows : List (Rule F)} {s : State F} (h : Placed digest rows s) (hrest : AtRest s) :
    s.owed = [] := by
  obtain ⟨hhot, hout, hreset⟩ := hrest
  apply List.eq_nil_iff_forall_not_mem.mpr
  intro w hw
  cases hagent : w.agent with
  | ingest =>
    obtain ⟨ruleId, await, awaits, rest, tenantId, deviceId, now, hd⟩ := h.ingest ⟨w, hw, hagent⟩
    exact hhot _ _ _ _ _ hd
  | outOfBand =>
    obtain ⟨ruleId, await, awaits, hd⟩ := h.outOfBand ⟨w, hw, hagent⟩
    rw [hout] at hd
    cases hd
  | reset => exact hreset w hw hagent

omit [PyFloat F] in
theorem carryOut_tasks (s : State F) (writer : Writer) : (s.carryOut writer).tasks = s.tasks := by
  unfold State.carryOut
  split <;> rfl

omit [PyFloat F] in
theorem carryOut_owed (s : State F) (writer : Writer) :
    (s.carryOut writer).owed = Outstanding.rest writer s.owed := by
  unfold State.carryOut
  split
  · rename_i hnone
    show s.owed = Outstanding.rest writer s.owed
    exact (List.eraseP_of_forall_not (List.find?_eq_none.mp hnone)).symm
  · rfl

omit [PyFloat F] in
/-- **A write in order** leaves what every rule's flag settles at. -/
theorem carryOut_settled {s : State F} {writer : Writer}
    (horder : Outstanding.InOrder writer s.owed) (id : Uuid) :
    Outstanding.settled (s.carryOut writer).owed id (decide (id ∈ (s.carryOut writer).latched)) =
      Outstanding.settled s.owed id (decide (id ∈ s.latched)) := by
  cases hnext : Outstanding.next writer s.owed with
  | none =>
    have hsame : s.carryOut writer = s := by
      unfold State.carryOut
      rw [hnext]
    rw [hsame]
  | some w =>
    have hmember : decide (id ∈ (s.carryOut writer).latched) =
        if w.key = id then w.value else decide (id ∈ s.latched) := by
      unfold State.carryOut
      rw [hnext]
      dsimp only
      by_cases hv : w.value = true
      · by_cases hk : w.key = id
        · simp [hv, hk]
        · simp [hv, hk, Ne.symm hk]
      · by_cases hk : w.key = id
        · simp [hv, hk]
        · simp [hv, hk, Ne.symm hk]
    rw [carryOut_owed, hmember]
    exact Outstanding.settled_carriedOut hnext horder id _

/-! ## One step -/

section

variable {digest : Option (Node F) → Option (Node F) → String}
  {directory : Uuid → Option DeviceDirectoryRecord} {rows : List (Rule F)} {s s' : State F}

variable {event : Tasks.Event F}

/-- What a step of a task leaves. -/
theorem step_task (h : step digest directory s (.task event) = some s') :
    ∃ tasks, Tasks.step digest directory s.tasks event = some tasks ∧
      s' = { s.written event with
        tasks := tasks
        owed := (s.written event).owed ++ issued digest directory s event } := by
  unfold step at h
  dsimp only at h
  split at h
  · cases h
  · rename_i tasks htasks
    exact ⟨tasks, htasks, (Option.some.inj h).symm⟩

/-- A step of a task settles every flag as before, but for the write it decides on. -/
theorem settled_step_task (h : step digest directory s (.task event) = some s')
    (horder : ∀ writer, s.writes? event = some writer → Outstanding.InOrder writer s.owed)
    (id : Uuid) :
    Outstanding.settled s'.owed id (decide (id ∈ s'.latched)) =
      Outstanding.settled (issued digest directory s event) id
        (Outstanding.settled s.owed id (decide (id ∈ s.latched))) := by
  obtain ⟨tasks, -, rfl⟩ := step_task h
  dsimp only
  rw [Outstanding.settled_append]
  unfold State.written
  cases hwrites : s.writes? event with
  | none => rfl
  | some writer =>
    dsimp only
    rw [carryOut_settled (horder writer hwrites)]

variable {evaluation : Tasks.Evaluation F}

omit [PyFloat F] in
/-- The rule object an evaluation works on is the one `rows` has under its id. -/
theorem evaluation_rule (hids : (rows.map (·.id)).Nodup) (h : Placed digest rows s)
    (he : s.tasks.evaluation? event = some evaluation) {rule : Rule F} (hrule : rule ∈ rows)
    (hid : evaluation.rule.id = rule.id) : evaluation.rule = rule := by
  have hsame : ∀ row ∈ rows, row.id = rule.id → row = rule := fun row hrow heq =>
    List.inj_on_of_nodup_map hids hrow hrule heq
  unfold Tasks.State.evaluation? at he
  split at he
  · split at he
    · rename_i rule' rest tenantId deviceId now hhot
      cases he
      have hmem := h.coming rule'
      rw [hhot] at hmem
      exact hsame rule' (hmem List.mem_cons_self) hid
    · cases he
  · split at he
    · obtain ⟨found, hfound, rfl⟩ := Option.map_eq_some_iff.mp he
      unfold Tasks.State.ruleOf at hfound
      split at hfound
      · cases hfound
      · rename_i ruleId _ _ _ cached hget
        split at hfound
        · cases hfound
          rw [h.rulesById] at hget
          have hid' := id_of_rulesById hget
          have hself : (loadRuleCache digest _).rulesById.get _ = _ := rulesById_of_mem hsame hrule
          dsimp only at hid
          rw [← hid, hid', hget] at hself
          exact Option.some.inj hself
        · cases hfound
    · cases he
  · cases he

omit [PyFloat F] in
theorem Placed.carryOut (h : Placed digest rows s) (writer : Writer) :
    Placed digest rows (s.carryOut writer) := by
  have hsub : ∀ w ∈ (s.carryOut writer).owed, w ∈ s.owed := by
    intro w hw
    rw [carryOut_owed] at hw
    exact Outstanding.mem_of_mem_rest hw
  constructor
  · rw [carryOut_tasks]
    exact h.ruleCache
  · rw [carryOut_tasks]
    exact h.rulesById
  · rw [carryOut_tasks]
    exact h.coming
  · rintro ⟨w, hw, hagent⟩
    rw [carryOut_tasks]
    exact h.ingest ⟨w, hsub w hw, hagent⟩
  · rintro ⟨w, hw, hagent⟩
    rw [carryOut_tasks]
    exact h.outOfBand ⟨w, hsub w hw, hagent⟩
  · rw [carryOut_owed]
    exact h.ingestOnce.rest writer
  · rw [carryOut_owed]
    exact h.outOfBandOnce.rest writer

omit [PyFloat F] in
theorem written_tasks (s : State F) (event : Tasks.Event F) :
    (s.written event).tasks = s.tasks := by
  unfold State.written
  split
  · rfl
  · exact carryOut_tasks _ _

omit [PyFloat F] in
theorem mem_of_mem_written {w : Write Writer Uuid Bool} (h : w ∈ (s.written event).owed) :
    w ∈ s.owed := by
  unfold State.written at h
  split at h
  · exact h
  · rw [carryOut_owed] at h
    exact Outstanding.mem_of_mem_rest h

omit [PyFloat F] in
theorem Placed.written (h : Placed digest rows s) (event : Tasks.Event F) :
    Placed digest rows (s.written event) := by
  unfold State.written
  split
  · exact h
  · exact h.carryOut _

omit [PyFloat F] in
/-- The tasks move on and at most one write is decided on, by a writer that owes none. -/
theorem Placed.advance (h : Placed digest rows s) {tasks : Tasks.State F}
    {new : List (Write Writer Uuid Bool)}
    (hrules : tasks.worker.caches.ruleCache = s.tasks.worker.caches.ruleCache ∧
      tasks.worker.caches.rulesById = s.tasks.worker.caches.rulesById)
    (hcoming : ∀ rule ∈ Latched.coming tasks.hot, rule ∈ rows)
    (hingest : (∃ w ∈ s.owed ++ new, w.agent = .ingest) →
      ∃ ruleId await awaits rest tenantId deviceId now,
        tasks.hot = .dispatching ⟨ruleId, await :: awaits⟩ rest tenantId deviceId now)
    (hout : (∃ w ∈ s.owed ++ new, w.agent = .outOfBand) →
      ∃ ruleId await awaits, tasks.outOfBand = some ⟨ruleId, await :: awaits⟩)
    (hnew : new = [] ∨ ∃ w, new = [w] ∧
      (w.agent = .reset ∨ ∀ o ∈ s.owed, o.agent ≠ w.agent)) :
    Placed digest rows { s with tasks := tasks, owed := s.owed ++ new } := by
  refine ⟨hrules.1.trans h.ruleCache, hrules.2.trans h.rulesById, hcoming, hingest, hout, ?_, ?_⟩
  · rcases hnew with rfl | ⟨w, rfl, hw⟩
    · rw [List.append_nil]
      exact h.ingestOnce
    · refine Outstanding.atMostOne_issue w h.ingestOnce ?_
      intro hagent o ho
      rcases hw with hw | hw
      · rw [hw] at hagent
        cases hagent
      · rw [← hagent]
        exact hw o ho
  · rcases hnew with rfl | ⟨w, rfl, hw⟩
    · rw [List.append_nil]
      exact h.outOfBandOnce
    · refine Outstanding.atMostOne_issue w h.outOfBandOnce ?_
      intro hagent o ho
      rcases hw with hw | hw
      · rw [hw] at hagent
        cases hagent
      · rw [← hagent]
        exact hw o ho

omit [PyFloat F] in
theorem dispatchActions_cons (directory : Uuid → Option DeviceDirectoryRecord) (tenantId : Uuid)
    (rule : Rule F) (trigger : Option Uuid) (metricSource : Bool) (edge : Edge) :
    ∃ await awaits, dispatchActions directory tenantId rule trigger metricSource edge =
      await :: awaits := by
  apply List.exists_cons_of_ne_nil
  unfold dispatchActions
  simp

omit [PyFloat F] in
theorem outOfBandAwaits_cons (directory : Uuid → Option DeviceDirectoryRecord) (tenantId : Uuid)
    (rule : Rule F) (context : Option Uuid) (metricSource : Bool) (edge : Edge) :
    ∃ await awaits, outOfBandAwaits directory tenantId rule context metricSource edge =
      await :: awaits := by
  unfold outOfBandAwaits
  split
  · exact dispatchActions_cons _ _ _ _ _ _
  · split
    · exact ⟨_, _, rfl⟩
    · exact ⟨_, _, rfl⟩

/-- The write a metric fire decides on is the ingest task's. -/
theorem issued_evaluate {rule : Rule F} {rest : List (Rule F)} {tenantId deviceId : Uuid}
    {now : Datetime} (hhot : s.tasks.hot = .evaluating (rule :: rest) tenantId deviceId now) :
    issued digest directory s .evaluate =
      if latches digest s ⟨rule, .evaluate, now, tenantId, some deviceId⟩ then
        [⟨.ingest, rule.id, true⟩]
      else [] := by
  unfold issued Tasks.State.evaluation?
  rw [hhot]

/-- The write an out-of-band run decides on. -/
theorem issued_trigger {tenantId ruleId : Uuid} {source : Source} {deviceId : Option Uuid}
    {now : Datetime}
    (he : s.tasks.evaluation? (.trigger tenantId ruleId source deviceId now) = some evaluation) :
    issued digest directory s (.trigger tenantId ruleId source deviceId now) =
      if latches digest s evaluation = true ∧ source = .metric ∧
          hasContext directory evaluation.tenantId evaluation.trigger = true then
        [⟨.outOfBand, evaluation.rule.id, true⟩]
      else [] := by
  unfold issued
  dsimp only
  rw [he]

theorem latches_firing (h : latches digest s evaluation = true) :
    ∃ firing, (runCached digest evaluation.entry evaluation.rule evaluation.now
      s.tasks.worker).1 = some firing := by
  unfold latches at h
  obtain ⟨firing, hf, -⟩ := (Option.any_eq_true _ _).mp (Bool.and_eq_true_iff.mp h).1
  exact ⟨firing, hf⟩

omit [PyFloat F] in
/-- The await that writes leaves its writer without a debt. -/
theorem Placed.written_none (h : Placed digest rows s) {writer : Writer}
    (hwrites : s.writes? event = some writer) (hwriter : writer ≠ .reset) :
    ∀ w ∈ (s.written event).owed, w.agent ≠ writer := by
  intro w hw
  unfold State.written at hw
  rw [hwrites] at hw
  dsimp only at hw
  rw [carryOut_owed] at hw
  cases writer with
  | ingest => exact h.ingestOnce.rest_none hw
  | outOfBand => exact h.outOfBandOnce.rest_none hw
  | reset => exact absurd rfl hwriter

theorem placed_evaluate (h : Placed digest rows s)
    (hstep : step digest directory s (.task .evaluate) = some s') : Placed digest rows s' := by
  obtain ⟨tasks, htasks, rfl⟩ := step_task hstep
  obtain ⟨rule, rest, tenantId, deviceId, now, hhot, rfl⟩ := step_evaluate htasks
  have hnone : ∀ w ∈ s.owed, w.agent ≠ .ingest := by
    intro w hw hagent
    obtain ⟨_, _, _, _, _, _, _, hd⟩ := h.ingest ⟨w, hw, hagent⟩
    rw [hhot] at hd
    cases hd
  have hissued : issued digest directory s .evaluate = _ := issued_evaluate hhot
  have hcoming := h.coming
  rw [hhot] at hcoming
  refine h.advance ⟨rfl, rfl⟩ ?_ ?_ ?_ ?_
  · intro r hr
    apply hcoming r
    apply List.mem_cons_of_mem
    dsimp only at hr
    split at hr
    · simpa using hr
    · exact hr
  · rintro ⟨w, hw, hagent⟩
    rcases List.mem_append.mp hw with hw | hw
    · exact absurd hagent (hnone w hw)
    · -- the fire's own dispatch
      rw [hissued] at hw
      split at hw
      · rename_i hlatches
        obtain ⟨firing, hf⟩ := latches_firing hlatches
        obtain ⟨await, awaits, hd⟩ :=
          dispatchActions_cons directory tenantId rule (some deviceId) true firing.edge
        refine ⟨rule.id, await, awaits, rest, tenantId, deviceId, now, ?_⟩
        dsimp only at hf ⊢
        rw [hf]
        dsimp only
        rw [hd]
      · cases hw
  · rintro ⟨w, hw, hagent⟩
    rcases List.mem_append.mp hw with hw | hw
    · exact h.outOfBand ⟨w, hw, hagent⟩
    · rw [hissued] at hw
      split at hw
      · rw [List.mem_singleton.mp hw] at hagent
        cases hagent
      · cases hw
  · rw [hissued]
    split
    · exact .inr ⟨_, rfl, .inr hnone⟩
    · exact .inl rfl

theorem placed_hotAwait (h : Placed digest rows s)
    (hstep : step digest directory s (.task .hotAwait) = some s') : Placed digest rows s' := by
  obtain ⟨tasks, htasks, rfl⟩ := step_task hstep
  obtain ⟨ruleId, awaits, rest, tenantId, deviceId, now, hhot, hs'⟩ := step_hotAwait htasks
  have hcoming := h.coming
  rw [hhot] at hcoming
  have hrules : tasks.worker = s.tasks.worker ∧ tasks.outOfBand = s.tasks.outOfBand := by
    cases awaits with
    | nil =>
      subst hs'
      exact ⟨rfl, rfl⟩
    | cons await awaits =>
      subst hs'
      refine ⟨by simp, ?_⟩
      cases await <;> rfl
  have hrest : coming tasks.hot = rest := by
    cases awaits with
    | nil =>
      subst hs'
      simp
    | cons await awaits =>
      subst hs'
      rfl
  refine (h.written .hotAwait).advance ?_ ?_ ?_ ?_ (.inl rfl)
  · rw [written_tasks, hrules.1]
    exact ⟨rfl, rfl⟩
  · rw [hrest]
    exact hcoming
  · rintro ⟨w, hw, hagent⟩
    have hw : w ∈ (s.written .hotAwait).owed := by
      rcases List.mem_append.mp hw with hw | hw
      · exact hw
      · cases hw
    match awaits with
    | [] =>
      obtain ⟨_, _, _, _, _, _, _, hd⟩ := h.ingest ⟨w, mem_of_mem_written hw, hagent⟩
      rw [hhot] at hd
      cases hd
    | [await] =>
      -- the last await is the one that writes
      have hwrites : s.writes? (.hotAwait : Tasks.Event F) = some .ingest := by
        unfold State.writes?
        rw [hhot]
      exact absurd hagent (h.written_none hwrites (by simp) w hw)
    | await :: next :: later =>
      subst hs'
      exact ⟨ruleId, next, later, rest, tenantId, deviceId, now, rfl⟩
  · rintro ⟨w, hw, hagent⟩
    rcases List.mem_append.mp hw with hw | hw
    · rw [hrules.2]
      exact h.outOfBand ⟨w, mem_of_mem_written hw, hagent⟩
    · cases hw

theorem placed_outOfBandAwait (h : Placed digest rows s)
    (hstep : step digest directory s (.task .outOfBandAwait) = some s') :
    Placed digest rows s' := by
  obtain ⟨tasks, htasks, rfl⟩ := step_task hstep
  obtain ⟨ruleId, awaits, hout, hs'⟩ := step_outOfBandAwait htasks
  have hsame : tasks.worker = s.tasks.worker ∧ tasks.hot = s.tasks.hot := by
    cases awaits with
    | nil =>
      subst hs'
      exact ⟨rfl, rfl⟩
    | cons await awaits =>
      subst hs'
      refine ⟨by simp, ?_⟩
      cases await <;> rfl
  refine (h.written .outOfBandAwait).advance ?_ ?_ ?_ ?_ (.inl rfl)
  · rw [written_tasks, hsame.1]
    exact ⟨rfl, rfl⟩
  · rw [hsame.2]
    exact h.coming
  · rintro ⟨w, hw, hagent⟩
    rcases List.mem_append.mp hw with hw | hw
    · rw [hsame.2]
      exact h.ingest ⟨w, mem_of_mem_written hw, hagent⟩
    · cases hw
  · rintro ⟨w, hw, hagent⟩
    have hw : w ∈ (s.written .outOfBandAwait).owed := by
      rcases List.mem_append.mp hw with hw | hw
      · exact hw
      · cases hw
    match awaits with
    | [] =>
      obtain ⟨_, _, _, hd⟩ := h.outOfBand ⟨w, mem_of_mem_written hw, hagent⟩
      rw [hout] at hd
      cases hd
    | [await] =>
      have hwrites : s.writes? (.outOfBandAwait : Tasks.Event F) = some .outOfBand := by
        unfold State.writes?
        rw [hout]
      exact absurd hagent (h.written_none hwrites (by simp) w hw)
    | await :: next :: later =>
      subst hs'
      exact ⟨ruleId, next, later, rfl⟩

omit [PyFloat F] in
/-- An out-of-band run starts when none is under way. -/
theorem outOfBand_of_evaluation {tenantId ruleId : Uuid} {source : Source} {deviceId : Option Uuid}
    {now : Datetime}
    (he : s.tasks.evaluation? (.trigger tenantId ruleId source deviceId now) = some evaluation) :
    s.tasks.outOfBand = none ∧ evaluation.entry = source.entry := by
  unfold Tasks.State.evaluation? at he
  dsimp only at he
  split at he
  · rename_i hguard
    obtain ⟨rule, -, rfl⟩ := Option.map_eq_some_iff.mp he
    exact ⟨Option.isNone_iff_eq_none.mp hguard.2, rfl⟩
  · cases he

theorem placed_trigger (h : Placed digest rows s) {tenantId ruleId : Uuid} {source : Source}
    {deviceId : Option Uuid} {now : Datetime}
    (hstep : step digest directory s (.task (.trigger tenantId ruleId source deviceId now)) =
      some s') : Placed digest rows s' := by
  obtain ⟨tasks, htasks, rfl⟩ := step_task hstep
  obtain ⟨evaluation, he, rfl⟩ := step_trigger htasks
  have hnone : ∀ w ∈ s.owed, w.agent ≠ .outOfBand := by
    intro w hw hagent
    obtain ⟨_, _, _, hd⟩ := h.outOfBand ⟨w, hw, hagent⟩
    rw [(outOfBand_of_evaluation he).1] at hd
    cases hd
  have hissued : issued digest directory s (.trigger _ _ _ _ _) = _ := issued_trigger he
  refine h.advance ⟨rfl, rfl⟩ h.coming ?_ ?_ ?_
  · rintro ⟨w, hw, hagent⟩
    rcases List.mem_append.mp hw with hw | hw
    · exact h.ingest ⟨w, hw, hagent⟩
    · rw [hissued] at hw
      split at hw
      · rw [List.mem_singleton.mp hw] at hagent
        cases hagent
      · cases hw
  · rintro ⟨w, hw, hagent⟩
    rcases List.mem_append.mp hw with hw | hw
    · exact absurd hagent (hnone w hw)
    · rw [hissued] at hw
      split at hw
      · rename_i hlatches
        obtain ⟨firing, hf⟩ := latches_firing hlatches.1
        obtain ⟨await, awaits, hd⟩ := outOfBandAwaits_cons directory tenantId evaluation.rule
          evaluation.trigger (source = .metric) firing.edge
        refine ⟨evaluation.rule.id, await, awaits, ?_⟩
        dsimp only
        rw [hf, Option.map_some, hd]
      · cases hw
  · rw [hissued]
    split
    · exact .inr ⟨_, rfl, .inr hnone⟩
    · exact .inl rfl

/-- **Every step but a reload keeps the tasks in their places.** -/
theorem placed_step (h : Placed digest rows s) {e : Event F} (ok : InStep digest directory s e)
    (hstep : step digest directory s e = some s') : Placed digest rows s' := by
  cases e with
  | resetWritten =>
    unfold step at hstep
    dsimp only at hstep
    split at hstep
    · cases hstep
    · rw [← Option.some.inj hstep]
      exact h.carryOut .reset
  | task event =>
    cases event with
    | reading tenantId signal value timestamp =>
      obtain ⟨tasks, htasks, rfl⟩ := step_task hstep
      obtain ⟨hhot, rfl⟩ := step_reading htasks
      refine h.advance ⟨rfl, rfl⟩ ?_ ?_ ?_ (.inl rfl)
      · intro rule hrule
        -- The hot loop takes its rules from the cache, which holds the registered ones.
        rw [coming_resume, h.ruleCache] at hrule
        exact (registered_iff.mp hrule).1
      · rintro ⟨w, hw, hagent⟩
        rcases List.mem_append.mp hw with hw | hw
        · obtain ⟨_, _, _, _, _, _, _, hd⟩ := h.ingest ⟨w, hw, hagent⟩
          rw [hhot] at hd
          cases hd
        · cases hw
      · rintro ⟨w, hw, hagent⟩
        rcases List.mem_append.mp hw with hw | hw
        · exact h.outOfBand ⟨w, hw, hagent⟩
        · cases hw
    | evaluate => exact placed_evaluate h hstep
    | hotAwait => exact placed_hotAwait h hstep
    | trigger tenantId ruleId source deviceId now => exact placed_trigger h hstep
    | outOfBandAwait => exact placed_outOfBandAwait h hstep
    | reset tenantId ruleId =>
      obtain ⟨tasks, htasks, rfl⟩ := step_task hstep
      obtain ⟨rule, hrule, rfl⟩ := step_reset htasks
      refine h.advance ⟨rfl, rfl⟩ h.coming ?_ ?_ (.inr ⟨_, rfl, .inl rfl⟩)
      · rintro ⟨w, hw, hagent⟩
        rcases List.mem_append.mp hw with hw | hw
        · exact h.ingest ⟨w, hw, hagent⟩
        · rw [List.mem_singleton.mp hw] at hagent
          cases hagent
      · rintro ⟨w, hw, hagent⟩
        rcases List.mem_append.mp hw with hw | hw
        · exact h.outOfBand ⟨w, hw, hagent⟩
        · rw [List.mem_singleton.mp hw] at hagent
          cases hagent
    | reload rows => exact absurd rfl (ok.1 rows)

end

end Latched

end IotSaas.Worker
