import IotSaas.Lib.Reach
import IotSaas.Rules.Calls
import IotSaas.Worker.Tasks

/-!
# `Worker/EdgeOrder.lean` — the last edge has the last word

The evaluator alternates fires and clears; what reaches the actuators are the publishes of their
dispatches. The hot loop finishes one dispatch before it goes on, and so does the manual command
loop, but neither waits for the other. A rule's commands therefore come out in the order of its
edges exactly as long as the rule is not evaluated while a dispatch of its own is in flight in
the other task (`Alone`). The pending-timer loop makes the other order reachable: it has a
clear delay completed out of band, and a reading that fires the rule again overtakes the clear
(`fire_overtakes_clear`).
-/

set_option autoImplicit false

namespace IotSaas.Worker

open Lib Rules Ingestion

variable {F : Type}

namespace EdgeOrder

open Tasks

/-! ## The last word -/

section

variable {K V : Type} [DecidableEq K]

/-- The value last written to `k`. -/
def lastValue : List (K × V) → K → Option V
  | [], _ => none
  | (k', v) :: rest, k => (lastValue rest k).or (if k' = k then some v else none)

theorem lastValue_append (l l' : List (K × V)) (k : K) :
    lastValue (l ++ l') k = (lastValue l' k).or (lastValue l k) := by
  induction l with
  | nil => simp [lastValue]
  | cons head rest ih => rw [List.cons_append, lastValue, lastValue, ih, Option.or_assoc]

theorem lastValue_append_of_some {l l' : List (K × V)} {k : K} {v : V}
    (h : lastValue l' k = some v) : lastValue (l ++ l') k = some v := by
  rw [lastValue_append, h, Option.some_or]

end

/-! ## What belongs to an edge -/

/-- The commands of an action, the run being triggered by `trigger`. -/
def actionCommands (trigger : Option Uuid) (action : Action F) :
    List (Topic × CommandValue F) :=
  match action with
  | .actuatorCommand deviceId actuator value =>
      match deviceId.or trigger with
      | none => []
      | some target => [(⟨.cmd, target, actuator⟩, value), (⟨.state, target, actuator⟩, value)]
  | .notification _ _ | .webhook _ | .email _ _ _ => []

/-- The commands that belong to an edge of a rule. -/
def edgeCommands (rule : Rule F) (edge : Edge) (trigger : Option Uuid) :
    List (Topic × CommandValue F) :=
  (edgeActions rule edge).flatMap (actionCommands trigger)

/-- What an await publishes. -/
def Await.published? (await : Await F) : Option (Topic × CommandValue F) :=
  match await with
  | .publish topic value => some (topic, value)
  | .lookup | .write => none

/-- The publishes still to come. -/
def publishes (awaits : List (Await F)) : List (Topic × CommandValue F) :=
  awaits.filterMap Await.published?

/-- Every device the rule's commands name is an active device of the run's tenant, and so is the
device the run goes by. -/
structure Usable (directory : Uuid → Option DeviceDirectoryRecord) (tenantId : Uuid)
    (rule : Rule F) (trigger : Option Uuid) : Prop where
  targets : ∀ action ∈ rule.actions ++ rule.clearActions, ∀ deviceId actuator value,
    action = .actuatorCommand (some deviceId) actuator value →
    usable directory tenantId deviceId = some deviceId
  context : ∀ deviceId, trigger = some deviceId →
    usable directory tenantId deviceId = some deviceId

variable {directory : Uuid → Option DeviceDirectoryRecord}

theorem publishes_actionAwaits {tenantId : Uuid}
    {trigger : Option Uuid} {action : Action F}
    (h : ∀ deviceId actuator value, action = .actuatorCommand (some deviceId) actuator value →
      usable directory tenantId deviceId = some deviceId) :
    publishes (actionAwaits directory tenantId trigger action) =
      actionCommands trigger action := by
  cases action with
  | actuatorCommand deviceId actuator value =>
    cases deviceId with
    | none => cases trigger <;> rfl
    | some deviceId =>
      unfold actionAwaits
      dsimp only
      by_cases ht : some deviceId = trigger
      · rw [if_pos ht]
        rfl
      · rw [if_neg ht, h deviceId actuator value rfl]
        rfl
  | notification message channels => rfl
  | webhook config => rfl
  | email recipients subject body => rfl

/-- **A dispatch publishes the commands of its edge.** -/
theorem publishes_dispatchActions {tenantId : Uuid} {rule : Rule F} {trigger : Option Uuid}
    (h : Usable directory tenantId rule trigger) (metricSource : Bool) (edge : Edge) :
    publishes (dispatchActions directory tenantId rule trigger metricSource edge) =
      edgeCommands rule edge trigger := by
  have hactions : publishes ((edgeActions rule edge).flatMap
      (actionAwaits directory tenantId trigger)) = edgeCommands rule edge trigger := by
    unfold publishes edgeCommands
    rw [List.filterMap_flatMap]
    refine List.flatMap_congr fun action hmem =>
      publishes_actionAwaits fun deviceId actuator value hq => ?_
    refine h.targets action ?_ deviceId actuator value hq
    cases edge with
    | fire => exact List.mem_append_left _ hmem
    | clear => exact List.mem_append_right _ hmem
  unfold dispatchActions
  rw [publishes, List.filterMap_append, List.filterMap_append, List.filterMap_append,
    ← publishes, hactions]
  have hwrites : ∀ (p : Prop) [Decidable p],
      List.filterMap Await.published? (if p then [(.write : Await F)] else []) = [] := by
    intro p _
    split <;> rfl
  rw [hwrites, hwrites]
  simp [Await.published?]

theorem publishes_outOfBandAwaits {tenantId : Uuid} {rule : Rule F} {trigger : Option Uuid}
    (h : Usable directory tenantId rule trigger) (metricSource : Bool) (edge : Edge) :
    publishes (outOfBandAwaits directory tenantId rule trigger metricSource edge) =
      edgeCommands rule edge trigger := by
  unfold outOfBandAwaits
  cases trigger with
  | none => exact publishes_dispatchActions h metricSource edge
  | some deviceId =>
    dsimp only
    rw [h.context deviceId rfl]
    exact publishes_dispatchActions h metricSource edge

/-! ## The machine with its last edges -/

structure State (F : Type) where
  tasks : Tasks.State F := {}
  /-- The commands that belong to the last edge returned for a rule. -/
  lastEdge : Dict Uuid (List (Topic × CommandValue F)) := .empty

/-- The dispatch the hot loop awaits. -/
def hotDispatch (s : Tasks.State F) : Option (Dispatch F) :=
  match s.hot with
  | .dispatching dispatch _ _ _ _ => some dispatch
  | .idle | .evaluating _ _ _ _ => none

/-- A dispatch of rule `id`. -/
def IsOf (id : Uuid) (dispatch : Option (Dispatch F)) : Prop :=
  ∃ d, dispatch = some d ∧ d.ruleId = id

def InFlight (id : Uuid) (s : Tasks.State F) : Prop :=
  IsOf id (hotDispatch s) ∨ IsOf id s.outOfBand

/-- What rule `id` has published so far. -/
def publishedOf (id : Uuid) (s : Tasks.State F) : List (Topic × CommandValue F) :=
  (s.published.filter fun p => p.ruleId = id).map fun p => (p.topic, p.value)

/-- **Edge order.** Once no dispatch of the rule is in flight, the last value published on each
topic its last edge commands is the one that edge commands. -/
def LastEdgeStands (id : Uuid) (s : State F) : Prop :=
  ¬ InFlight id s.tasks → ∀ commands, s.lastEdge.get id = some commands →
    ∀ topic value, lastValue commands topic = some value →
      lastValue (publishedOf id s.tasks) topic = some value

variable [PyFloat F]

/-- The edge a step's evaluation returns. -/
def edge? (digest : Option (Node F) → Option (Node F) → String) (s : Tasks.State F)
    (e : Event F) : Option (Tasks.Evaluation F × Edge) :=
  match s.evaluation? e with
  | none => none
  | some evaluation =>
      (runCached digest evaluation.entry evaluation.rule evaluation.now s.worker).1.map
        fun firing => (evaluation, firing.edge)

/-- The step of `Tasks.lean`, with the last edges kept. -/
def step (digest : Option (Node F) → Option (Node F) → String)
    (directory : Uuid → Option DeviceDirectoryRecord) (s : State F) (e : Event F) :
    Option (State F) :=
  match Tasks.step digest directory s.tasks e with
  | none => none
  | some tasks =>
      some
        { tasks := tasks
          lastEdge :=
            match edge? digest s.tasks e with
            | none => s.lastEdge
            | some (⟨rule, _, _, _, trigger⟩, edge) =>
                s.lastEdge.set rule.id (edgeCommands rule edge trigger) }

omit [PyFloat F] in
/-- Rule `id` is evaluated only while no dispatch of it is in flight, and with its devices
usable. -/
def Alone (directory : Uuid → Option DeviceDirectoryRecord) (id : Uuid) (s : State F)
    (e : Event F) : Prop :=
  ∀ evaluation, s.tasks.evaluation? e = some evaluation → evaluation.rule.id = id →
    ¬ InFlight id s.tasks ∧
      Usable directory evaluation.tenantId evaluation.rule evaluation.trigger

/-! ## The order is kept -/

section

omit [PyFloat F]

/-- What rule `id` has still to publish by a dispatch. -/
def remaining (id : Uuid) (dispatch : Option (Dispatch F)) : List (Topic × CommandValue F) :=
  match dispatch with
  | none => []
  | some d => if d.ruleId = id then publishes d.awaits else []

theorem remaining_of_not {id : Uuid} {dispatch : Option (Dispatch F)} (h : ¬ IsOf id dispatch) :
    remaining id dispatch = [] := by
  cases dispatch with
  | none => rfl
  | some d => exact if_neg fun hq => h ⟨d, rfl, hq⟩

@[simp] theorem hotDispatch_resume (worker : Rules.Worker F) (rest : List (Rule F))
    (tenantId deviceId : Uuid) (now : Datetime) (outOfBand : Option (Dispatch F))
    (published : List (Published F)) :
    hotDispatch ⟨worker, .resume rest tenantId deviceId now, outOfBand, published⟩ = none := by
  cases rest <;> rfl

/-- At most one dispatch of the rule is in flight, and what was published together with what is
still to be published ends with the last edge's commands. -/
structure Ordered (id : Uuid) (s : State F) : Prop where
  single : ¬ (IsOf id (hotDispatch s.tasks) ∧ IsOf id s.tasks.outOfBand)
  order : ∀ commands, s.lastEdge.get id = some commands →
    ∀ topic value, lastValue commands topic = some value →
      lastValue (publishedOf id s.tasks ++ remaining id (hotDispatch s.tasks) ++
        remaining id s.tasks.outOfBand) topic = some value

/-- A step that returns no edge, and moves publishes from ahead to behind, keeps the order. -/
theorem Ordered.moved {id : Uuid} {s s' : State F} (h : Ordered id s)
    (hedge : s'.lastEdge = s.lastEdge)
    (hsingle : ¬ (IsOf id (hotDispatch s'.tasks) ∧ IsOf id s'.tasks.outOfBand))
    (hall : publishedOf id s'.tasks ++ remaining id (hotDispatch s'.tasks) ++
        remaining id s'.tasks.outOfBand =
      publishedOf id s.tasks ++ remaining id (hotDispatch s.tasks) ++
        remaining id s.tasks.outOfBand) : Ordered id s' :=
  ⟨hsingle, fun commands hc topic value hv => by
    rw [hall]
    exact h.order commands (hedge ▸ hc) topic value hv⟩

/-- An await done by rule `ruleId`, as rule `id` sees it. -/
theorem publishedOf_perform (id ruleId : Uuid) (s : Tasks.State F) (await : Await F) :
    publishedOf id (s.perform ruleId await) =
      publishedOf id s ++ (if ruleId = id then publishes [await] else []) := by
  cases await with
  | publish topic value =>
    unfold publishedOf Tasks.State.perform
    dsimp only
    rw [List.filter_append, List.map_append]
    by_cases h : ruleId = id
    · simp [h, publishes, Await.published?]
    · simp [h]
  | lookup => simp [publishedOf, Tasks.State.perform, publishes, Await.published?]
  | write => simp [publishedOf, Tasks.State.perform, publishes, Await.published?]

theorem remaining_cons (id ruleId : Uuid) (await : Await F) (awaits : List (Await F)) :
    remaining id (some ⟨ruleId, await :: awaits⟩) =
      (if ruleId = id then publishes [await] else []) ++
        remaining id (some ⟨ruleId, awaits⟩) := by
  unfold remaining
  dsimp only
  by_cases h : ruleId = id
  · simp only [if_pos h]
    unfold publishes
    rw [← List.filterMap_append]
    rfl
  · simp only [if_neg h]
    rfl

/-- A new edge of another rule leaves this one's order. -/
theorem Ordered.other {id : Uuid} {s s' : State F} (h : Ordered id s) {ruleId : Uuid}
    (hne : ruleId ≠ id) (commands : List (Topic × CommandValue F))
    (hedge : s'.lastEdge = s.lastEdge.set ruleId commands)
    (hsingle : ¬ (IsOf id (hotDispatch s'.tasks) ∧ IsOf id s'.tasks.outOfBand))
    (hall : publishedOf id s'.tasks ++ remaining id (hotDispatch s'.tasks) ++
        remaining id s'.tasks.outOfBand =
      publishedOf id s.tasks ++ remaining id (hotDispatch s.tasks) ++
        remaining id s.tasks.outOfBand) : Ordered id s' :=
  ⟨hsingle, fun commands' hc topic value hv => by
    rw [hall]
    rw [hedge, Dict.get_set_ne _ _ (Ne.symm hne)] at hc
    exact h.order commands' hc topic value hv⟩

/-- A new edge whose dispatch is the only one of its rule has everything still to publish. -/
theorem ordered_of_edge {id : Uuid} {s' : State F} (lastEdge : Dict Uuid _)
    (commands before : List (Topic × CommandValue F))
    (hedge : s'.lastEdge = lastEdge.set id commands)
    (hsingle : ¬ (IsOf id (hotDispatch s'.tasks) ∧ IsOf id s'.tasks.outOfBand))
    (hall : publishedOf id s'.tasks ++ remaining id (hotDispatch s'.tasks) ++
        remaining id s'.tasks.outOfBand = before ++ commands) : Ordered id s' :=
  ⟨hsingle, fun commands' hc topic value hv => by
    rw [hedge, Dict.get_set_self] at hc
    obtain rfl := Option.some.inj hc
    rw [hall]
    exact lastValue_append_of_some hv⟩

end

variable {digest : Option (Node F) → Option (Node F) → String} {s s' : State F}

/-- A step is one of `Tasks.lean`, with the last edge it returned. -/
theorem step_tasks {e : Event F} (hs : step digest directory s e = some s') :
    ∃ tasks, Tasks.step digest directory s.tasks e = some tasks ∧
      s' =
        { tasks := tasks
          lastEdge :=
            match edge? digest s.tasks e with
            | none => s.lastEdge
            | some (⟨rule, _, _, _, trigger⟩, edge) =>
                s.lastEdge.set rule.id (edgeCommands rule edge trigger) } := by
  unfold step at hs
  split at hs
  · cases hs
  · rename_i tasks htasks
    exact ⟨tasks, htasks, (Option.some.inj hs).symm⟩

variable {id : Uuid}

/-- Evaluations of the hot loop keep the order. -/
theorem ordered_evaluate (h : Ordered id s) (ok : Alone directory id s .evaluate)
    (hs : step digest directory s .evaluate = some s') : Ordered id s' := by
  obtain ⟨tasks, htasks, rfl⟩ := step_tasks hs
  obtain ⟨rule, rest, tenantId, deviceId, now, hhot, rfl⟩ := step_evaluate htasks
  have he : s.tasks.evaluation? .evaluate =
      some ⟨rule, .evaluate, now, tenantId, some deviceId⟩ := by
    simp [State.evaluation?, hhot]
  have hnone : hotDispatch s.tasks = none := by simp [hotDispatch, hhot]
  cases hr : (runCached digest .evaluate rule now s.tasks.worker).1 with
  | none =>
    refine h.moved (by simp [edge?, he, hr]) ?_ ?_
    · rintro ⟨⟨d, hd, -⟩, -⟩
      rw [hotDispatch_resume] at hd
      cases hd
    · rw [hotDispatch_resume, hnone]
      rfl
  | some firing =>
    have hedge : edge? digest s.tasks .evaluate =
        some (⟨rule, .evaluate, now, tenantId, some deviceId⟩, firing.edge) := by
      simp [edge?, he, hr]
    by_cases hid : rule.id = id
    · -- nothing else of the rule is in flight
      obtain ⟨hfree, husable⟩ := ok _ he hid
      have hout : ¬ IsOf id s.tasks.outOfBand := fun ho => hfree (.inr ho)
      subst hid
      refine ordered_of_edge s.lastEdge (edgeCommands rule firing.edge (some deviceId))
        (publishedOf rule.id s.tasks) ?_ (fun hb => hout hb.2) ?_
      · dsimp only
        rw [hedge]
      · dsimp only
        rw [remaining_of_not hout, List.append_nil]
        simp only [hotDispatch, remaining, if_true]
        rw [publishes_dispatchActions husable]
        rfl
    · refine h.other hid (edgeCommands rule firing.edge (some deviceId)) ?_ ?_ ?_
      · dsimp only
        rw [hedge]
      · rintro ⟨⟨d, hd, hq⟩, -⟩
        cases hd
        exact hid hq
      · dsimp only
        rw [hnone]
        simp only [hotDispatch, remaining, if_neg hid]
        rfl

/-- Out-of-band runs keep the order. -/
theorem ordered_trigger {tenantId ruleId : Uuid} {source : Source} {deviceId : Option Uuid}
    {now : Datetime} (h : Ordered id s)
    (ok : Alone directory id s (.trigger tenantId ruleId source deviceId now))
    (hs : step digest directory s (.trigger tenantId ruleId source deviceId now) = some s') :
    Ordered id s' := by
  obtain ⟨tasks, htasks, rfl⟩ := step_tasks hs
  obtain ⟨evaluation, he, rfl⟩ := step_trigger htasks
  obtain ⟨hnone, htenant⟩ : s.tasks.outOfBand = none ∧ evaluation.tenantId = tenantId := by
    unfold State.evaluation? at he
    dsimp only at he
    split at he
    · rename_i hguard
      obtain ⟨rule, -, rfl⟩ := Option.map_eq_some_iff.mp he
      exact ⟨Option.isNone_iff_eq_none.mp hguard.2, rfl⟩
    · cases he
  cases hr : (runCached digest evaluation.entry evaluation.rule evaluation.now
      s.tasks.worker).1 with
  | none =>
    refine h.moved (by simp [edge?, he, hr]) ?_ ?_
    · rintro ⟨-, d, hd, -⟩
      cases hd
    · rw [hnone]
      rfl
  | some firing =>
    have hedge : edge? digest s.tasks (.trigger tenantId ruleId source deviceId now) =
        some (evaluation, firing.edge) := by
      simp [edge?, he, hr]
    by_cases hid : evaluation.rule.id = id
    · -- the hot loop is not in a dispatch of the rule, so the new one is the only one
      obtain ⟨hfree, husable⟩ := ok _ he hid
      have hhot : ¬ IsOf id (hotDispatch s.tasks) := fun ho => hfree (.inl ho)
      subst hid
      rw [htenant] at husable
      refine ordered_of_edge s.lastEdge
        (edgeCommands evaluation.rule firing.edge evaluation.trigger)
        (publishedOf evaluation.rule.id s.tasks) ?_ (fun hb => hhot hb.1) ?_
      · dsimp only
        rw [hedge]
      · have hrem : remaining evaluation.rule.id (hotDispatch s.tasks) = [] :=
          remaining_of_not hhot
        simp only [hotDispatch, remaining, Option.map_some, if_true] at hrem ⊢
        rw [hrem, publishes_outOfBandAwaits husable, List.append_nil]
        rfl
    · refine h.other hid (edgeCommands evaluation.rule firing.edge evaluation.trigger) ?_ ?_ ?_
      · dsimp only
        rw [hedge]
      · rintro ⟨-, d, hd, hq⟩
        cases hd
        exact hid hq
      · rw [hnone]
        simp only [Option.map_some, remaining, if_neg hid]
        rfl

/-- Awaits of the hot dispatch keep the order: each moves a publish from ahead to behind. -/
theorem ordered_hotAwait (h : Ordered id s) (hs : step digest directory s .hotAwait = some s') :
    Ordered id s' := by
  obtain ⟨tasks, htasks, rfl⟩ := step_tasks hs
  obtain ⟨ruleId, awaits, rest, tenantId, deviceId, now, hhot, htasks⟩ := step_hotAwait htasks
  have hnow : hotDispatch s.tasks = some ⟨ruleId, awaits⟩ := by simp [hotDispatch, hhot]
  cases awaits with
  | nil =>
    subst htasks
    refine h.moved rfl ?_ ?_
    · rintro ⟨⟨d, hd, -⟩, -⟩
      rw [hotDispatch_resume] at hd
      cases hd
    · rw [hotDispatch_resume, hnow]
      unfold remaining publishes
      simp only [List.filterMap_nil, ite_self]
      rfl
  | cons await awaits =>
    subst htasks
    have hout : (s.tasks.perform ruleId await).outOfBand = s.tasks.outOfBand := by
      cases await <;> rfl
    refine h.moved rfl ?_ ?_
    · rintro ⟨⟨d, hd, hq⟩, ho⟩
      cases hd
      exact h.single ⟨⟨_, hnow, hq⟩, hout ▸ ho⟩
    · have hpub : publishedOf id { s.tasks.perform ruleId await with
            hot := .dispatching ⟨ruleId, awaits⟩ rest tenantId deviceId now } =
          publishedOf id s.tasks ++ (if ruleId = id then publishes [await] else []) :=
        publishedOf_perform id ruleId s.tasks await
      dsimp only at hpub ⊢
      -- the publish leaves the front of what remains and joins the end of what is published
      rw [hpub, hnow, remaining_cons, hout]
      simp only [hotDispatch, List.append_assoc]

/-- So do those of the out-of-band dispatch, no hot one of the rule being in between. -/
theorem ordered_outOfBandAwait (h : Ordered id s)
    (hs : step digest directory s .outOfBandAwait = some s') :
    Ordered id s' := by
  obtain ⟨tasks, htasks, rfl⟩ := step_tasks hs
  obtain ⟨ruleId, awaits, hout, htasks⟩ := step_outOfBandAwait htasks
  cases awaits with
  | nil =>
    subst htasks
    refine h.moved rfl ?_ ?_
    · rintro ⟨-, d, hd, -⟩
      cases hd
    · rw [hout]
      unfold remaining publishes
      simp only [List.filterMap_nil, ite_self]
      rfl
  | cons await awaits =>
    subst htasks
    have hhot : hotDispatch { s.tasks.perform ruleId await with
        outOfBand := some ⟨ruleId, awaits⟩ } = hotDispatch s.tasks := by
      cases await <;> rfl
    refine h.moved rfl ?_ ?_
    · rintro ⟨hd, d, hq, hid⟩
      cases hq
      exact h.single ⟨hhot ▸ hd, _, hout, hid⟩
    · have hpub : publishedOf id { s.tasks.perform ruleId await with
            outOfBand := some ⟨ruleId, awaits⟩ } =
          publishedOf id s.tasks ++ (if ruleId = id then publishes [await] else []) :=
        publishedOf_perform id ruleId s.tasks await
      dsimp only at hpub hhot ⊢
      rw [hpub, hhot, hout, remaining_cons]
      by_cases hid : ruleId = id
      · -- what the hot dispatch has still to publish stands between; it is of another rule
        have hnot : ¬ IsOf id (hotDispatch s.tasks) := fun hd =>
          h.single ⟨hd, _, hout, hid⟩
        simp only [remaining_of_not hnot, List.append_nil, List.append_assoc]
      · simp only [if_neg hid, List.append_nil, List.nil_append]

/-- A step that returns no edge and leaves both dispatches and the publishes keeps the order. -/
theorem ordered_quiet {e : Event F}
    (h : Ordered id s) (he : s.tasks.evaluation? e = none)
    (hs : step digest directory s e = some s')
    (hquiet : ∀ tasks, Tasks.step digest directory s.tasks e = some tasks →
      hotDispatch tasks = hotDispatch s.tasks ∧ tasks.outOfBand = s.tasks.outOfBand ∧
        tasks.published = s.tasks.published) : Ordered id s' := by
  obtain ⟨tasks, htasks, rfl⟩ := step_tasks hs
  obtain ⟨hhot, hout, hpub⟩ := hquiet tasks htasks
  refine h.moved (by simp [edge?, he]) ?_ ?_
  · dsimp only
    rw [hhot, hout]
    exact h.single
  · dsimp only
    rw [hhot, hout]
    unfold publishedOf
    rw [hpub]

theorem ordered_step {e : Event F} (h : Ordered id s) (ok : Alone directory id s e)
    (hs : step digest directory s e = some s') : Ordered id s' := by
  cases e with
  | evaluate => exact ordered_evaluate h ok hs
  | trigger tenantId ruleId source deviceId now => exact ordered_trigger h ok hs
  | hotAwait => exact ordered_hotAwait h hs
  | outOfBandAwait => exact ordered_outOfBandAwait h hs
  | reading tenantId signal value timestamp =>
    refine ordered_quiet h rfl hs fun tasks htasks => ?_
    obtain ⟨hhot, rfl⟩ := step_reading htasks
    refine ⟨?_, rfl, rfl⟩
    rw [hotDispatch_resume]
    simp [hotDispatch, hhot]
  | reset tenantId ruleId =>
    refine ordered_quiet h rfl hs fun tasks htasks => ?_
    obtain ⟨rule, -, rfl⟩ := step_reset htasks
    exact ⟨rfl, rfl, rfl⟩
  | reload rows =>
    refine ordered_quiet h rfl hs fun tasks htasks => ?_
    obtain ⟨-, rfl⟩ := step_reload htasks
    exact ⟨rfl, rfl, rfl⟩

/-- **The last edge has the last word** for a rule that is never evaluated while a dispatch of it is
in flight: over any readings, out-of-band runs, resets and reloads, interleaved at the awaits. -/
theorem last_edge_stands (digest : Option (Node F) → Option (Node F) → String)
    (directory : Uuid → Option DeviceDirectoryRecord) (id : Uuid) {s : State F}
    (h : Reaches (step digest directory) (Alone directory id) {} s) : LastEdgeStands id s := by
  have hinit : Ordered id ({} : State F) := by
    constructor
    · rintro ⟨⟨d, hd, -⟩, -⟩
      cases hd
    · intro commands hc
      cases hc
  have hord := h.invariant hinit fun _ _ _ ih ok hs => ordered_step ih ok hs
  intro hfree commands hc topic value hv
  have hlast := hord.order commands hc topic value hv
  rw [remaining_of_not fun hd => hfree (.inl hd), remaining_of_not fun hd => hfree (.inr hd),
    List.append_nil, List.append_nil] at hlast
  exact hlast

/-! ## A clear overtaken -/

/-- A fan that is switched off five seconds after it got cooler. -/
def coolingFan : Rule Int :=
  { thermostat with
    actions := [.actuatorCommand (some "device") "fan" (.bool true)]
    clearActions := [.actuatorCommand (some "device") "fan" (.bool false)]
    executionPolicy := { clearForDuration := 5 } }

/-- It fires, and its dispatch runs to the end. -/
def firstFire : List (Event Int) :=
  [.reload [coolingFan], .reading "tenant" ⟨"device", "temperature"⟩ 35 0, .evaluate,
    .hotAwait, .hotAwait, .hotAwait, .hotAwait, .hotAwait, .hotAwait]

def firstFireState : State Int := (run (step (fun _ _ => "digest") oneDevice) {} firstFire).getD {}

omit [PyFloat F] in
theorem alone_of_no_evaluation {s : State F} {e : Event F} (h : s.tasks.evaluation? e = none) :
    Alone directory id s e := by
  intro evaluation he
  rw [h] at he
  cases he

theorem usable_coolingFan : Usable oneDevice "tenant" coolingFan (some "device") := by
  constructor
  · intro action hmem deviceId actuator value hq
    simp only [coolingFan, List.cons_append, List.nil_append, List.mem_cons, List.not_mem_nil,
      or_false] at hmem
    rcases hmem with rfl | rfl <;> cases hq <;> rfl
  · intro deviceId hc
    cases hc
    rfl

/-- After the first fire the fan is on. -/
theorem last_edge_stands_firstFire : LastEdgeStands "thermostat" firstFireState := by
  refine last_edge_stands (fun _ _ => "digest") oneDevice "thermostat"
    (.next (.next (.next (.next (.next (.next (.next (.next (.next .start
      (e := .reload [coolingFan]) (alone_of_no_evaluation rfl) rfl)
      (e := .reading "tenant" ⟨"device", "temperature"⟩ 35 0) (alone_of_no_evaluation rfl) rfl)
      (e := .evaluate) ?_ rfl)
      (e := .hotAwait) (alone_of_no_evaluation rfl) rfl)
      (e := .hotAwait) (alone_of_no_evaluation rfl) rfl)
      (e := .hotAwait) (alone_of_no_evaluation rfl) rfl)
      (e := .hotAwait) (alone_of_no_evaluation rfl) rfl)
      (e := .hotAwait) (alone_of_no_evaluation rfl) rfl)
      (e := .hotAwait) (alone_of_no_evaluation rfl) rfl)
  intro evaluation he _
  cases he
  refine ⟨?_, usable_coolingFan⟩
  rintro (⟨d, hd, -⟩ | ⟨d, hd, -⟩) <;> cases hd

/-- Cooler at one second; at seven the clear delay is completed out of band, and while its context
is looked up a warmer reading fires the rule again and has its commands published first. -/
def overtaken : List (Event Int) :=
  firstFire ++
    [.reading "tenant" ⟨"device", "temperature"⟩ 25 1000000, .evaluate,
      .trigger "tenant" "thermostat" .metric none 7000000,
      .reading "tenant" ⟨"device", "temperature"⟩ 35 8000000, .evaluate,
      .hotAwait, .hotAwait, .hotAwait, .hotAwait, .hotAwait, .hotAwait,
      .outOfBandAwait, .outOfBandAwait, .outOfBandAwait, .outOfBandAwait, .outOfBandAwait,
      .outOfBandAwait]

/-- **The clear is published after the fire that followed it:** nothing is in flight, the last edge
is a fire, and the fan is off. -/
theorem fire_overtakes_clear :
    ¬ ∀ s : State Int, Reaches (step (fun _ _ => "digest") oneDevice) Always {} s →
      LastEdgeStands "thermostat" s := by
  intro h
  have hrun : (run (step (fun _ _ => "digest") oneDevice) {} overtaken).map
      (fun s => ((hotDispatch s.tasks).isNone && s.tasks.outOfBand.isNone,
        (s.lastEdge.get "thermostat").bind fun commands =>
          lastValue commands ⟨.cmd, "device", "fan"⟩,
        lastValue (publishedOf "thermostat" s.tasks) ⟨.cmd, "device", "fan"⟩)) =
      some (true, some (.bool true), some (.bool false)) := by decide +kernel
  obtain ⟨s, hs, hvals⟩ := Option.map_eq_some_iff.mp hrun
  obtain ⟨hnone, hedge, hlast⟩ : _ ∧ _ ∧ _ := by simpa only [Prod.mk.injEq] using hvals
  obtain ⟨commands, hc, hv⟩ := Option.bind_eq_some_iff.mp hedge
  rw [Bool.and_eq_true, Option.isNone_iff_eq_none, Option.isNone_iff_eq_none] at hnone
  have hfree : ¬ InFlight "thermostat" s.tasks := by
    rintro (⟨d, hd, -⟩ | ⟨d, hd, -⟩)
    · rw [hnone.1] at hd
      cases hd
    · rw [hnone.2] at hd
      cases hd
  have hstands := h s (.of_run hs) hfree commands hc ⟨.cmd, "device", "fan"⟩ (.bool true) hv
  rw [hlast] at hstands
  cases hstands

end EdgeOrder

end IotSaas.Worker
