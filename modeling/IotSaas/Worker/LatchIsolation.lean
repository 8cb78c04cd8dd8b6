import IotSaas.Lib.Reach
import IotSaas.Rules.Calls
import IotSaas.Rules.HotPath
import IotSaas.Rules.Signals
import IotSaas.Worker.Tasks

/-!
# `Worker/LatchIsolation.lean` — no latch outlives its tree

Leaf latches and hold timers are keyed by position in a tree, so an edited tree must not find those
of the old one. `_state_for` sees to it by aligning the state to the fingerprint the table has for
the rule's id. Beside the machine of `Tasks.lean` this file keeps, for every latch and timer, the
fingerprint of the rule object whose evaluation produced it (`Origins`); isolation says that it is
always the fingerprint the state carries.

The table and `_rules_by_id` are swapped together, so an out-of-band run evaluates the object the
table speaks of. The hot loop evaluates the objects of a list it looked up before its last await. If
a reload changed one of them in the meantime, the old object writes its latches into a state aligned
to the new one, and nothing ever drops them (`parked_loop_mixes`).
-/

set_option autoImplicit false

namespace IotSaas.Worker

open Lib Rules Ingestion

variable {F : Type}

namespace LatchIsolation

/-! ## Origins -/

/-- The fingerprints of the rule objects that produced what a state holds. -/
structure Origins where
  leaf : Dict Path String := .empty
  reset : Dict Path String := .empty
  since : Option String := none
  clear : Option String := none

/-- The latches at `paths` were written by `origin`. -/
def mark (paths : List Path) (origin : String) (d : Dict Path String) : Dict Path String :=
  ⟨fun p => if p ∈ paths then some origin else d.get p⟩

def treePaths (tree : Option (Node F)) : List Path :=
  match tree with
  | none => []
  | some node => leafPaths node []

/-- A timer keeps its origin while it runs. -/
def timerOrigin (before after : Option Datetime) (own : String) (origin : Option String) :
    Option String :=
  match after with
  | none => none
  | some _ => if before.isSome then origin else some own

/-- Alignment drops what it drops from the state. -/
def alignOrigins (state : RuleState) (fingerprint : String) (o : Origins) : Origins :=
  match state.conditionFingerprint with
  | none => o
  | some fp => if fp = fingerprint then o else {}

variable [PyFloat F]

/-- Whether a call evaluates its reset tree. -/
def looksAtReset (evaluation : Tasks.Evaluation F) (snapshot : MetricSnapshot F)
    (state : RuleState) : Bool :=
  match evaluation.entry with
  | .evaluate => (resetResult evaluation.rule snapshot evaluation.now state).isSome
  | .evaluateEvent => false

/-- The origins after an evaluation of an object with fingerprint `own`, in a state `state`. -/
def evaluationOrigins (own : String) (evaluation : Tasks.Evaluation F)
    (snapshot : MetricSnapshot F) (state : RuleState) (o : Origins) : Origins :=
  let after := (evaluation.entry.apply evaluation.rule snapshot evaluation.now state).2
  { leaf := mark (treePaths evaluation.rule.condition) own o.leaf
    reset :=
      if looksAtReset evaluation snapshot state then
        mark (treePaths evaluation.rule.executionPolicy.resetCondition) own o.reset
      else o.reset
    since := timerOrigin state.conditionSince after.conditionSince own o.since
    clear := timerOrigin state.clearSince after.clearSince own o.clear }

omit [PyFloat F] in
/-- A stored latch at one of `paths` has another origin than `own`. -/
def anyForeign (own : String) (paths : List Path) (latches : LeafStates)
    (origins : Dict Path String) : Bool :=
  paths.any fun p => (latches.get p).isSome && decide (origins.get p ≠ some own)

/-- The evaluation reads a latch another tree produced. -/
def readsForeign (own : String) (evaluation : Tasks.Evaluation F) (snapshot : MetricSnapshot F)
    (state : RuleState) (o : Origins) : Bool :=
  anyForeign own (treePaths evaluation.rule.condition) state.leafStates o.leaf ||
    (looksAtReset evaluation snapshot state &&
      anyForeign own (treePaths evaluation.rule.executionPolicy.resetCondition)
        state.resetLeafStates o.reset)

omit [PyFloat F] in
/-- A thing of this origin belongs in a state with this fingerprint. -/
def Owned (fingerprint origin : Option String) : Prop :=
  ∃ fp, fingerprint = some fp ∧ origin = some fp

/-- **Isolation.** Every latch and timer in the state was produced by an object with the
state's fingerprint. -/
structure Isolated (state : RuleState) (o : Origins) : Prop where
  leaf : ∀ p, (state.leafStates.get p).isSome → Owned state.conditionFingerprint (o.leaf.get p)
  reset : ∀ p, (state.resetLeafStates.get p).isSome →
    Owned state.conditionFingerprint (o.reset.get p)
  since : state.conditionSince.isSome → Owned state.conditionFingerprint o.since
  clear : state.clearSince.isSome → Owned state.conditionFingerprint o.clear

/-! ## Isolation of one state -/

section

omit [PyFloat F]

theorem isolated_fresh (o : Origins) : Isolated {} o := by
  constructor <;> simp

theorem Isolated.align {state : RuleState} {o : Origins} (h : Isolated state o)
    (fingerprint : String) :
    Isolated (alignStateToCondition state fingerprint) (alignOrigins state fingerprint o) := by
  unfold alignStateToCondition alignOrigins
  cases hfp : state.conditionFingerprint with
  | none =>
    -- a state without a fingerprint holds nothing
    have hnone : ∀ origin, ¬ Owned state.conditionFingerprint origin := by
      rintro origin ⟨fp, hq, -⟩
      rw [hfp] at hq
      cases hq
    exact ⟨fun p hp => absurd (h.leaf p hp) (hnone _), fun p hp => absurd (h.reset p hp) (hnone _),
      fun hs => absurd (h.since hs) (hnone _), fun hs => absurd (h.clear hs) (hnone _)⟩
  | some fp =>
    dsimp only
    by_cases hq : fp = fingerprint
    · rw [if_pos hq, if_pos hq]
      rw [hq] at hfp
      exact ⟨fun p hp => hfp ▸ h.leaf p hp, fun p hp => hfp ▸ h.reset p hp,
        fun hs => hfp ▸ h.since hs, fun hs => hfp ▸ h.clear hs⟩
    · rw [if_neg hq, if_neg hq]
      constructor <;> simp

theorem Isolated.resetLatch {state : RuleState} {o : Origins} (h : Isolated state o) :
    Isolated (Rules.resetLatch state).2 { o with since := none } :=
  ⟨h.leaf, h.reset, fun hs => (nomatch hs), h.clear⟩

/-- Latches after marking: those at `paths` are the marker's, the others were there before. -/
theorem owned_mark {fingerprint : Option String} {own : String} {paths : List Path}
    {origins : Dict Path String} {p : Path} (hown : fingerprint = some own)
    (h : p ∉ paths → Owned fingerprint (origins.get p)) :
    Owned fingerprint ((mark paths own origins).get p) := by
  unfold mark
  by_cases hp : p ∈ paths
  · exact ⟨own, hown, if_pos hp⟩
  · dsimp only
    rw [if_neg hp]
    exact h hp

theorem owned_timer {fingerprint : Option String} {own : String} {before after : Option Datetime}
    {origin : Option String} (hown : fingerprint = some own)
    (h : before.isSome → Owned fingerprint origin) (ha : after.isSome) :
    Owned fingerprint (timerOrigin before after own origin) := by
  cases after with
  | none => cases ha
  | some t =>
    unfold timerOrigin
    by_cases hb : before.isSome
    · rw [if_pos hb]
      exact h hb
    · rw [if_neg hb]
      exact ⟨own, hown, rfl⟩

end

/-- What the tree evaluation leaves elsewhere it found. -/
theorem evaluateTree_untouched {rule : Rule F} {snapshot : MetricSnapshot F} {now : Datetime}
    {leafStates : LeafStates} {p : Path} (h : p ∉ treePaths rule.condition) :
    (evaluateTree rule snapshot now leafStates).2.get p = leafStates.get p := by
  unfold evaluateTree
  cases hc : rule.condition with
  | none => rfl
  | some node =>
    rw [hc, treePaths] at h
    exact evaluateNode_untouched node leafStates [] p h

/-- What an evaluation leaves of latches and fingerprint, through either entry point. -/
theorem apply_frame (evaluation : Tasks.Evaluation F) (snapshot : MetricSnapshot F)
    (state : RuleState) :
    let after := (evaluation.entry.apply evaluation.rule snapshot evaluation.now state).2
    after.leafStates =
        (evaluateTree evaluation.rule snapshot evaluation.now state.leafStates).2 ∧
      (looksAtReset evaluation snapshot state = false →
        after.resetLeafStates = state.resetLeafStates) ∧
      (∀ p, p ∉ treePaths evaluation.rule.executionPolicy.resetCondition →
        after.resetLeafStates.get p = state.resetLeafStates.get p) ∧
      after.conditionFingerprint = state.conditionFingerprint := by
  obtain ⟨rule, entry, now, tenantId, trigger⟩ := evaluation
  cases entry with
  | evaluate =>
    obtain ⟨hleaf, hreset, hfp⟩ := evaluate_frame rule snapshot now state
    refine ⟨hleaf, fun hno => ?_, fun p hp => ?_, hfp⟩
    · refine hreset.trans (rearmed_resetLeafStates_of_none ?_)
      simpa [looksAtReset] using hno
    · dsimp only [EntryPoint.apply]
      rw [hreset]
      cases hr : resetResult rule snapshot now state with
      | none => rw [rearmed_resetLeafStates_of_none hr]
      | some r =>
        obtain ⟨reset, hsome, hq⟩ := rearmed_resetLeafStates_of_some (by rw [hr]; rfl)
        dsimp only at hp
        rw [hsome, treePaths] at hp
        rw [hq]
        exact evaluateNode_untouched reset _ [] p hp
  | evaluateEvent =>
    obtain ⟨fired, hframe, -⟩ := evaluateEvent_frame rule snapshot now state
    simp only [EntryPoint.apply]
    rw [hframe]
    exact ⟨rfl, fun _ => rfl, fun _ _ => rfl, rfl⟩

/-- **An evaluation by an object with the state's fingerprint keeps isolation.** -/
theorem Isolated.evaluation {state : RuleState} {o : Origins} (h : Isolated state o)
    {own : String} (hown : state.conditionFingerprint = some own)
    (evaluation : Tasks.Evaluation F) (snapshot : MetricSnapshot F) :
    Isolated (evaluation.entry.apply evaluation.rule snapshot evaluation.now state).2
      (evaluationOrigins own evaluation snapshot state o) := by
  obtain ⟨hleaf, hkept, hreset, hfp⟩ := apply_frame evaluation snapshot state
  refine ⟨fun p hp => ?_, fun p hp => ?_, fun hs => ?_, fun hs => ?_⟩
  · rw [hfp]
    refine owned_mark hown fun hout => h.leaf p ?_
    rwa [hleaf, evaluateTree_untouched hout] at hp
  · rw [hfp]
    unfold evaluationOrigins
    dsimp only
    cases hlook : looksAtReset evaluation snapshot state with
    | false =>
      rw [hkept hlook] at hp
      exact h.reset p hp
    | true =>
      refine owned_mark hown fun hout => h.reset p ?_
      rwa [hreset p hout] at hp
  · rw [hfp]
    exact owned_timer hown h.since hs
  · rw [hfp]
    exact owned_timer hown h.clear hs

omit [PyFloat F] in
theorem anyForeign_of_owned {own : String} {paths : List Path} {latches : LeafStates}
    {origins : Dict Path String} {fingerprint : Option String} (hown : fingerprint = some own)
    (h : ∀ p, (latches.get p).isSome → Owned fingerprint (origins.get p)) :
    anyForeign own paths latches origins = false := by
  unfold anyForeign
  rw [List.any_eq_false]
  intro p _ hforeign
  rw [Bool.and_eq_true, decide_eq_true_eq] at hforeign
  obtain ⟨fp, hq, ho⟩ := h p hforeign.1
  rw [hown] at hq
  cases hq
  exact hforeign.2 ho

/-- Such an evaluation reads no foreign latch. -/
theorem Isolated.readsForeign {state : RuleState} {o : Origins} (h : Isolated state o)
    {own : String} (hown : state.conditionFingerprint = some own)
    (evaluation : Tasks.Evaluation F) (snapshot : MetricSnapshot F) :
    LatchIsolation.readsForeign own evaluation snapshot state o = false := by
  unfold LatchIsolation.readsForeign
  rw [anyForeign_of_owned hown h.leaf, anyForeign_of_owned hown h.reset, Bool.and_false]
  rfl

/-! ## The machine with origins -/

structure State (F : Type) where
  tasks : Tasks.State F := {}
  origins : Dict Uuid Origins := .empty
  /-- Some evaluation has read a latch that another tree produced. -/
  foreignRead : Bool := false

omit [PyFloat F] in
/-- The origins of a rule's state once `_state_for` has aligned it. -/
def State.aligned (digest : Option (Node F) → Option (Node F) → String) (s : State F)
    (rule : Rule F) : Origins :=
  alignOrigins (s.tasks.worker.ruleStates.getD rule.id {})
    (fingerprintFor digest rule s.tasks.worker.caches) (s.origins.getD rule.id {})

omit [PyFloat F] in
/-- The snapshot an evaluation is shown. -/
def snapshotOf (worker : Rules.Worker F) (rule : Rule F) : MetricSnapshot F :=
  snapshotForSignals worker.signalValueCache (referencedSignals rule.condition)

/-- The step of `Tasks.lean`, with the origins kept. -/
def step (digest : Option (Node F) → Option (Node F) → String)
    (directory : Uuid → Option DeviceDirectoryRecord) (s : State F) (e : Tasks.Event F) :
    Option (State F) :=
  match Tasks.step digest directory s.tasks e with
  | none => none
  | some tasks =>
      match s.tasks.evaluation? e with
      | some evaluation =>
          let rule := evaluation.rule
          -- the object's own fingerprint; the state is aligned to the table's
          let own := conditionFingerprint digest rule
          let snapshot := snapshotOf s.tasks.worker rule
          let state := (stateFor digest rule s.tasks.worker).1
          let o := s.aligned digest rule
          some
            { tasks := tasks
              origins := s.origins.set rule.id
                (evaluationOrigins own evaluation snapshot state o)
              foreignRead := s.foreignRead || readsForeign own evaluation snapshot state o }
      | none =>
          match e with
          | .reset tenantId ruleId =>
              match s.tasks.ruleOf tenantId ruleId with
              | none => some { s with tasks := tasks }
              | some rule =>
                  some { s with
                    tasks := tasks
                    origins := s.origins.set rule.id
                      { s.aligned digest rule with since := none } }
          | _ => some { s with tasks := tasks }

omit [PyFloat F] in
/-- Every rule's state is isolated, and no evaluation ever read another tree's latch. -/
def Isolation (s : State F) : Prop :=
  (∀ id, Isolated (s.tasks.worker.ruleStates.getD id {}) (s.origins.getD id {})) ∧
    s.foreignRead = false

omit [PyFloat F] in
/-- The hot loop evaluates no object that a reload has replaced by one with another condition or
reset tree: the table has its own fingerprint, or none, for its id. -/
def NotReplaced (digest : Option (Node F) → Option (Node F) → String) (s : State F)
    (e : Tasks.Event F) : Prop :=
  e = .evaluate → ∀ evaluation, s.tasks.evaluation? e = some evaluation →
    fingerprintFor digest evaluation.rule s.tasks.worker.caches =
      conditionFingerprint digest evaluation.rule

omit [PyFloat F] in
/-- The table speaks of the objects found by id. -/
def Coherent (digest : Option (Node F) → Option (Node F) → String) (caches : RuleCaches F) : Prop :=
  ∀ id rule, caches.rulesById.get id = some rule →
    rule.id = id ∧ caches.ruleFingerprints.get id = some (conditionFingerprint digest rule)

variable {digest : Option (Node F) → Option (Node F) → String}

omit [PyFloat F] in
theorem fingerprintFor_of_coherent {caches : RuleCaches F} (h : Coherent digest caches) {id : Uuid}
    {rule : Rule F} (hget : caches.rulesById.get id = some rule) :
    fingerprintFor digest rule caches = conditionFingerprint digest rule := by
  obtain ⟨rfl, hfp⟩ := h id rule hget
  rw [fingerprintFor, hfp, Option.getD_some]

omit [PyFloat F] in
theorem coherent_loadRuleCache (digest : Option (Node F) → Option (Node F) → String)
    (rows : List (Rule F)) : Coherent digest (loadRuleCache digest rows) := by
  intro id rule hget
  exact ⟨id_of_rulesById hget, congrArg (Option.map (conditionFingerprint digest)) hget⟩

omit [PyFloat F] in
/-- `_state_for` fills in a missing fingerprint and changes none. -/
theorem coherent_stateFor {worker : Rules.Worker F} (h : Coherent digest worker.caches)
    (rule : Rule F) :
    Coherent digest (stateFor digest rule worker).2.caches := by
  intro id found hget
  obtain ⟨hid, hfp⟩ := h id found hget
  refine ⟨hid, ?_⟩
  simp only [stateFor, Dict.get_set]
  by_cases hq : id = rule.id
  · subst hq
    rw [if_pos rfl, fingerprintFor, hfp, Option.getD_some]
  · rw [if_neg hq]
    exact hfp

omit [PyFloat F] in
/-- The object of an evaluation has the fingerprint its state is aligned to: out of band by
coherence, in the hot loop because no reload has replaced it. -/
theorem fingerprintFor_of_evaluation {s : State F} {e : Tasks.Event F}
    (h : Coherent digest s.tasks.worker.caches) (ok : NotReplaced digest s e)
    {evaluation : Tasks.Evaluation F} (he : s.tasks.evaluation? e = some evaluation) :
    fingerprintFor digest evaluation.rule s.tasks.worker.caches =
      conditionFingerprint digest evaluation.rule := by
  cases e with
  | evaluate => exact ok rfl evaluation he
  | trigger tenantId ruleId source deviceId now =>
    unfold Tasks.State.evaluation? at he
    dsimp only at he
    split at he
    · obtain ⟨rule, hrule, rfl⟩ := Option.map_eq_some_iff.mp he
      unfold Tasks.State.ruleOf at hrule
      split at hrule
      · cases hrule
      · rename_i found hfound
        split at hrule
        · cases hrule
          exact fingerprintFor_of_coherent h hfound
        · cases hrule
    · cases he
  | reading tenantId signal value timestamp => cases he
  | hotAwait => cases he
  | outOfBandAwait => cases he
  | reset tenantId ruleId => cases he
  | reload rows => cases he

omit [PyFloat F] in
/-- A change of one rule's state and origins, every other rule's as it was. -/
theorem isolation_of_set {s : State F} {tasks : Tasks.State F} {id : Uuid} {state : RuleState}
    {o : Origins} {foreignRead : Bool} (h : Isolation s)
    (hother : ∀ other, other ≠ id →
      tasks.worker.ruleStates.getD other {} = s.tasks.worker.ruleStates.getD other {})
    (hself : tasks.worker.ruleStates.getD id {} = state) (hiso : Isolated state o)
    (hforeign : foreignRead = false) :
    Isolation
      { tasks := tasks, origins := s.origins.set id o, foreignRead := foreignRead : State F } := by
  refine ⟨fun other => ?_, hforeign⟩
  by_cases hid : other = id
  · subst hid
    rw [hself, Dict.getD_set_self]
    exact hiso
  · rw [hother other hid, Dict.getD_set_ne _ _ _ hid]
    exact h.1 other

/-- **An evaluation keeps isolation,** its object being the one the table speaks of. -/
theorem isolation_evaluated {s : State F}
    {tasks : Tasks.State F} (h : Isolation s) {evaluation : Tasks.Evaluation F}
    (hown : fingerprintFor digest evaluation.rule s.tasks.worker.caches =
      conditionFingerprint digest evaluation.rule)
    (eq : tasks.worker =
      (runCached digest evaluation.entry evaluation.rule evaluation.now s.tasks.worker).2) :
    Isolation
      { tasks := tasks
        origins := s.origins.set evaluation.rule.id
          (evaluationOrigins (conditionFingerprint digest evaluation.rule) evaluation
            (snapshotOf s.tasks.worker evaluation.rule)
            (stateFor digest evaluation.rule s.tasks.worker).1
            (s.aligned digest evaluation.rule))
        foreignRead := s.foreignRead ||
          readsForeign (conditionFingerprint digest evaluation.rule) evaluation
            (snapshotOf s.tasks.worker evaluation.rule)
            (stateFor digest evaluation.rule s.tasks.worker).1
            (s.aligned digest evaluation.rule) } := by
  have haligned : Isolated (stateFor digest evaluation.rule s.tasks.worker).1
      (s.aligned digest evaluation.rule) := (h.1 evaluation.rule.id).align _
  -- the table agrees with the object, so the aligned state has the object's fingerprint
  have hfp : (stateFor digest evaluation.rule s.tasks.worker).1.conditionFingerprint =
      some (conditionFingerprint digest evaluation.rule) := by
    rw [← hown]
    exact align_conditionFingerprint _ _
  refine isolation_of_set h (fun other hother => ?_) ?_
    (haligned.evaluation hfp evaluation (snapshotOf s.tasks.worker evaluation.rule)) ?_
  · rw [eq, runCached_getD, if_neg hother]
  · rw [eq, runCached_getD, if_pos rfl]
    rfl
  · rw [h.2, haligned.readsForeign hfp evaluation _]
    rfl

omit [PyFloat F] in
/-- **A latch reset keeps isolation:** it aligns the state and drops the hold. -/
theorem isolation_reset {s : State F} {tasks : Tasks.State F} (h : Isolation s) (rule : Rule F)
    (eq : tasks.worker = Tasks.resetCached digest rule s.tasks.worker) :
    Isolation
      { s with
        tasks := tasks
        origins := s.origins.set rule.id { s.aligned digest rule with since := none } } := by
  refine isolation_of_set h (fun other hother => ?_) ?_ ((h.1 rule.id).align _).resetLatch h.2
  · rw [eq]
    simp only [Tasks.resetCached, stateFor, Dict.getD_set_ne _ _ _ hother]
  · rw [eq]
    simp only [Tasks.resetCached, Dict.getD_set_self]
    rfl

theorem isolation_step {directory : Uuid → Option DeviceDirectoryRecord} {s s' : State F}
    {e : Tasks.Event F} (h : Isolation s ∧ Coherent digest s.tasks.worker.caches)
    (ok : NotReplaced digest s e) (hs : step digest directory s e = some s') :
    Isolation s' ∧ Coherent digest s'.tasks.worker.caches := by
  obtain ⟨hiso, hcoh⟩ := h
  unfold step at hs
  cases hstep : Tasks.step digest directory s.tasks e with
  | none => rw [hstep] at hs; cases hs
  | some tasks =>
    rw [hstep] at hs
    dsimp only at hs
    cases Tasks.workerStep hstep with
    | evaluated evaluation he eq =>
      rw [he] at hs
      cases hs
      -- The rule object is the cached one, so its fingerprint is the one the latch is held to.
      refine ⟨isolation_evaluated hiso (fingerprintFor_of_evaluation hcoh ok he) eq, ?_⟩
      rw [eq]
      exact coherent_stateFor hcoh evaluation.rule
    | reset tenantId ruleId he rule known eq =>
      subst he
      dsimp only [Tasks.State.evaluation?] at hs
      rw [known] at hs
      cases hs
      refine ⟨isolation_reset hiso rule eq, ?_⟩
      rw [eq]
      exact coherent_stateFor hcoh rule
    | reloaded rows he ids eq =>
      subst he
      cases hs
      refine ⟨⟨fun id => ?_, hiso.2⟩, ?_⟩
      · rw [eq]
        exact hiso.1 id
      · rw [eq]
        exact coherent_loadRuleCache digest rows
    | kept he hr states caches =>
      rw [he] at hs
      have hs' : s' = { s with tasks := tasks } := by
        cases e with
        | reset tenantId ruleId => exact absurd rfl (hr tenantId ruleId)
        | reading tenantId signal value timestamp => cases hs; rfl
        | evaluate => cases hs; rfl
        | hotAwait => cases hs; rfl
        | trigger tenantId ruleId source deviceId now => cases hs; rfl
        | outOfBandAwait => cases hs; rfl
        | reload rows => cases hs; rfl
      subst hs'
      refine ⟨⟨fun id => ?_, hiso.2⟩, ?_⟩
      · dsimp only
        rw [states]
        exact hiso.1 id
      · dsimp only
        rw [caches]
        exact hcoh

/-- **No latch outlives its tree** in a run whose hot loop never goes on over a replaced object:
any readings, out-of-band runs, latch resets and reloads, interleaved at the awaits. -/
theorem latch_isolation (digest : Option (Node F) → Option (Node F) → String)
    (directory : Uuid → Option DeviceDirectoryRecord) {s : State F}
    (h : Reaches (step digest directory) (NotReplaced digest) {} s) : Isolation s := by
  have hinit : Isolation ({} : State F) ∧
      Coherent digest ({} : State F).tasks.worker.caches :=
    ⟨⟨fun _ => isolated_fresh _, rfl⟩, fun _ _ hget => by cases hget⟩
  exact (h.invariant hinit fun _ _ _ ih ok hs => isolation_step ih ok hs).1

/-! ## A reload in the middle of the list -/

/-- The alarm that fires first. -/
def alarm : Rule Int := { thermostat with id := "alarm" }

/-- The fan behind it in the list, with its threshold. -/
def fan (threshold : Int) : Rule Int :=
  { thermostat with
    id := "fan"
    condition := some (.leaf ⟨"device", "temperature", .compare .gt (.static threshold) 5⟩) }

/-- A digest that tells the fan's two thresholds apart. -/
def thresholdDigest (condition _reset : Option (Node Int)) : String :=
  match condition with
  | some (.leaf ⟨_, _, .compare _ (.static t) _⟩) => if t = 30 then "thirty" else "forty"
  | _ => ""

/-- The fan loaded, and one reading evaluated. -/
def fanState : State Int :=
  (run (step thresholdDigest Tasks.oneDevice) {}
    [.reload [fan 30], .reading "tenant" ⟨"device", "temperature"⟩ 35 0, .evaluate]).getD {}

theorem latch_isolation_fan : Isolation fanState := by
  refine latch_isolation thresholdDigest Tasks.oneDevice
    (.next (.next (.next .start (e := .reload [fan 30]) ?_ rfl)
      (e := .reading "tenant" ⟨"device", "temperature"⟩ 35 0) ?_ rfl) (e := .evaluate) ?_ rfl)
  · intro he; cases he
  · intro he; cases he
  · intro _ evaluation he
    cases he
    decide +kernel

/-- The alarm fires; while its dispatch is awaited the fan is edited and reloaded; the loop goes
on with the fan it had. -/
def editDuringDispatch : List (Tasks.Event Int) :=
  [.reload [alarm, fan 30], .reading "tenant" ⟨"device", "temperature"⟩ 35 0, .evaluate,
    .reload [alarm, fan 40], .hotAwait, .hotAwait, .hotAwait, .evaluate]

/-- **The old fan's latch ends up in the new fan's state.** -/
theorem parked_loop_mixes :
    ¬ ∀ s : State Int,
      Reaches (step thresholdDigest Tasks.oneDevice) Always {} s → Isolation s := by
  intro h
  have hrun : (run (step thresholdDigest Tasks.oneDevice) {} editDuringDispatch).map
      (fun s => (((s.tasks.worker.ruleStates.getD "fan" {}).leafStates.get []).isSome,
        (s.tasks.worker.ruleStates.getD "fan" {}).conditionFingerprint,
        (s.origins.getD "fan" {}).leaf.get [])) =
      some (true, some "forty", some "thirty") := by decide +kernel
  obtain ⟨s, hs, hvals⟩ := Option.map_eq_some_iff.mp hrun
  obtain ⟨hlatch, hfp, horigin⟩ : _ ∧ _ ∧ _ := by simpa only [Prod.mk.injEq] using hvals
  obtain ⟨fp, hq, ho⟩ := ((h s (.of_run hs)).1 "fan").leaf [] hlatch
  rw [hfp] at hq
  rw [horigin] at ho
  obtain rfl := Option.some.inj hq
  revert ho
  decide

end LatchIsolation

end IotSaas.Worker
