import IotSaas.Rules.Calls
import IotSaas.Worker.Tasks

/-!
# `Worker/OutOfBand.lean` — `run_rule_out_of_band`, one call

A rule evaluated outside the metric path: by hand, on a schedule tick, on a connectivity flip, or
to complete a pending timer. The evaluator mutates the rule's state first; only then is the device
looked up that the dispatch goes by, and a device that is gone, disabled, or that the database
cannot be asked about ends the call. What the evaluator decided is in the state by then.

`edge_kept_iff` says when a call gets away with it: when the look-up succeeds, when there is no edge
to dispatch, or when the state already was what the edge would have made it.
-/

set_option autoImplicit false

namespace IotSaas.Worker

open Lib Rules Ingestion

variable {F : Type}

namespace OutOfBand

/-- `trigger_source`. -/
inductive TriggerSource where
  | manual | schedule | deviceStatus | metric
  deriving DecidableEq

/-- A row of `lookup_rule_dispatch_targets`. -/
structure DispatchTarget where
  deviceId : Uuid
  tenantId : Uuid
  tenantSlug : String
  deviceSlug : String
  status : DeviceStatus
  deriving DecidableEq

/-- What the database says to the look-up of one device. -/
inductive Lookup where
  | row (target : Option DispatchTarget)
  /-- The query raises. -/
  | failed
  deriving DecidableEq

/-- What `_resolve_rule_context` comes back with. -/
inductive Resolution where
  /-- A device and its slugs, or `_NO_TRIGGER_DEVICE`. -/
  | context (device : Option (Uuid × String × String))
  /-- `None`: the device is gone, disabled, or another tenant's. -/
  | unusable
  | raised
  deriving DecidableEq

/-- `_resolve_rule_context`. -/
def resolveRuleContext (lookup : Uuid → Lookup) (rule : Rule F) (deviceId : Option Uuid) :
    Resolution :=
  match deviceId.or (Tasks.contextDevice rule) with
  | none => .context none
  | some device =>
      match lookup device with
      | .failed => .raised
      | .row none => .unusable
      | .row (some row) =>
          if row.tenantId = rule.tenantId ∧ row.status = .active then
            .context (some (row.deviceId, row.tenantSlug, row.deviceSlug))
          else .unusable

/-- What a call leaves: the edge decided on, what `_dispatch_actions` was called with, and the
worker's memory. -/
structure Outcome (F : Type) where
  edge : Option Edge
  dispatched : Option (Edge × Option (Uuid × String × String))
  worker : Rules.Worker F

/-- `_rules_by_id.get(rule_id)` and the tenant check. -/
def knownRule (tenantId ruleId : Uuid) (worker : Rules.Worker F) : Option (Rule F) :=
  match worker.caches.rulesById.get ruleId with
  | none => none
  | some rule => if rule.tenantId = tenantId then some rule else none

variable [PyFloat F]

/-- `evaluate_condition`: the tree on throwaway latches. -/
def evaluateCondition (condition : Option (Node F)) (snapshot : MetricSnapshot F) (now : Datetime) :
    Bool :=
  match condition with
  | none => true
  | some node => decide ((evaluateNode snapshot now node .empty []).1 = some true)

/-- What the trigger source evaluates, and the edge it comes to. -/
def decideEdge (digest : Option (Node F) → Option (Node F) → String) (source : TriggerSource)
    (rule : Rule F) (now : Datetime) (worker : Rules.Worker F) : Option Edge × Rules.Worker F :=
  match source with
  -- a test by hand passes every gate and keeps no state
  | .manual =>
      let snapshot := snapshotForSignals worker.signalValueCache (referencedSignals rule.condition)
      (if evaluateCondition rule.condition snapshot now then some .fire else none, worker)
  | .schedule | .deviceStatus =>
      let r := runCached digest .evaluateEvent rule now worker
      (r.1.map (·.edge), r.2)
  | .metric =>
      let r := runCached digest .evaluate rule now worker
      (r.1.map (·.edge), r.2)

/-- `run_rule_out_of_band`. -/
def runRuleOutOfBand (digest : Option (Node F) → Option (Node F) → String)
    (lookup : Uuid → Lookup) (tenantId ruleId : Uuid) (source : TriggerSource)
    (deviceId : Option Uuid) (now : Datetime) (worker : Rules.Worker F) : Outcome F :=
  match knownRule tenantId ruleId worker with
  | none => ⟨none, none, worker⟩
  | some rule =>
      let decided := decideEdge digest source rule now worker
      match decided.1 with
      | none => ⟨none, none, decided.2⟩
      | some edge =>
          match resolveRuleContext lookup rule deviceId with
          | .context device => ⟨some edge, some (edge, device), decided.2⟩
          | .unusable | .raised => ⟨some edge, none, decided.2⟩

/-! ## What an edge is in the state -/

/-- The fields of a rule's state that say where in an episode it is. -/
structure Episode where
  armed : Bool
  lastFiredAt : Option Datetime
  active : Bool
  clearSince : Option Datetime
  deriving DecidableEq

def episode (state : RuleState) : Episode :=
  ⟨state.armed, state.lastFiredAt, state.active, state.clearSince⟩

/-- The edge is handed to `_dispatch_actions`, or no rule's episode has moved. -/
def EdgeKept (worker : Rules.Worker F) (out : Outcome F) : Prop :=
  (∀ edge, out.edge = some edge → ∃ device, out.dispatched = some (edge, device)) ∨
  ∀ id, episode (out.worker.ruleStates.getD id {}) = episode (worker.ruleStates.getD id {})

/-- The state a fire at `now` would leave is the one that is there: the rule has fired at this very
instant before. -/
def FiredAlready (digest : Option (Node F) → Option (Node F) → String) (source : TriggerSource)
    (rule : Rule F) (now : Datetime) (worker : Rules.Worker F) : Prop :=
  let state := worker.ruleStates.getD rule.id {}
  state.lastFiredAt = some now ∧
    match source with
    | .metric =>
        state.armed = false ∧ state.active = !rule.clearActions.isEmpty ∧ state.clearSince = none
    | .manual | .schedule | .deviceStatus =>
        (stateFor digest rule worker).1.clearSince = state.clearSince

omit [PyFloat F] in
/-- Aligning a state to its condition keeps the episode but for the clear delay. -/
theorem align_episode (state : RuleState) (fingerprint : String) :
    (alignStateToCondition state fingerprint).armed = state.armed ∧
    (alignStateToCondition state fingerprint).lastFiredAt = state.lastFiredAt ∧
    (alignStateToCondition state fingerprint).active = state.active := by
  unfold alignStateToCondition
  repeat' split
  all_goals exact ⟨rfl, rfl, rfl⟩

section

variable {digest : Option (Node F) → Option (Node F) → String} {rule : Rule F} {now : Datetime}
  {worker : Rules.Worker F}

omit [PyFloat F] in
theorem stateFor_episode (digest : Option (Node F) → Option (Node F) → String) (rule : Rule F)
    (worker : Rules.Worker F) :
    (stateFor digest rule worker).1.armed = (worker.ruleStates.getD rule.id {}).armed ∧
    (stateFor digest rule worker).1.lastFiredAt =
      (worker.ruleStates.getD rule.id {}).lastFiredAt ∧
    (stateFor digest rule worker).1.active = (worker.ruleStates.getD rule.id {}).active :=
  align_episode _ _

/-- Only the evaluated rule's episode can move. -/
theorem episodes_runCached (entry : EntryPoint) :
    (∀ id, episode ((runCached digest entry rule now worker).2.ruleStates.getD id {}) =
        episode (worker.ruleStates.getD id {})) ↔
      episode (entry.apply rule
          (snapshotForSignals worker.signalValueCache (referencedSignals rule.condition)) now
          (stateFor digest rule worker).1).2 =
        episode (worker.ruleStates.getD rule.id {}) := by
  constructor
  · intro h
    have hself := h rule.id
    rw [runCached_getD, if_pos rfl] at hself
    exact hself
  · intro h id
    rw [runCached_getD]
    split
    · rename_i hid
      rw [hid]
      exact h
    · rfl

/-- **An event's fire** moves the stamp of the last fire, and nothing else of the episode that the
alignment has not moved. -/
theorem episode_evaluateEvent {snapshot : MetricSnapshot F} {firing : Firing}
    (h : (evaluateEvent rule snapshot now (stateFor digest rule worker).1).1 = some firing) :
    firing.edge = .fire ∧
    (episode (evaluateEvent rule snapshot now (stateFor digest rule worker).1).2 =
        episode (worker.ruleStates.getD rule.id {}) ↔
      (worker.ruleStates.getD rule.id {}).lastFiredAt = some now ∧
        (stateFor digest rule worker).1.clearSince =
          (worker.ruleStates.getD rule.id {}).clearSince) := by
  obtain ⟨harmed, _, hactive⟩ := stateFor_episode digest rule worker
  unfold evaluateEvent at h ⊢
  dsimp only at h ⊢
  split at h
  · cases h
  · rename_i ht
    split at h
    · cases h
    · rename_i hc
      cases h
      refine ⟨rfl, ?_⟩
      rw [if_neg ht, if_neg hc]
      simp only [episode, Episode.mk.injEq, harmed, hactive, true_and]
      constructor
      · rintro ⟨hfired, hsince⟩
        exact ⟨hfired.symm, hsince⟩
      · rintro ⟨hfired, hsince⟩
        exact ⟨hfired.symm, hsince⟩

/-- **An edge of `evaluate`**: a fire closes the gate and stamps it, a clear ends the episode, and
a clear always shows. -/
theorem episode_evaluate {snapshot : MetricSnapshot F} {firing : Firing}
    (h : (evaluate rule snapshot now (stateFor digest rule worker).1).1 = some firing) :
    episode (evaluate rule snapshot now (stateFor digest rule worker).1).2 =
        episode (worker.ruleStates.getD rule.id {}) ↔
      firing.edge = .fire ∧
      (worker.ruleStates.getD rule.id {}).lastFiredAt = some now ∧
      (worker.ruleStates.getD rule.id {}).armed = false ∧
      (worker.ruleStates.getD rule.id {}).active = !rule.clearActions.isEmpty ∧
      (worker.ruleStates.getD rule.id {}).clearSince = none := by
  obtain ⟨_, _, hactive⟩ := stateFor_episode digest rule worker
  cases evaluate_exit rule snapshot now (stateFor digest rule worker).1 with
  | gated tree gate eq => rw [eq] at h; cases h
  | idle tree shut eq => rw [eq] at h; cases h
  | dropped tree isOpen gone eq => rw [eq] at h; cases h
  | holding tree isOpen has short eq => rw [eq] at h; cases h
  | fired tree held armed cool eq =>
    rw [eq] at h ⊢
    cases h
    simp only [episode, running, Episode.mk.injEq, true_and]
    constructor
    · rintro ⟨harmed, hfired, hact, hsince⟩
      exact ⟨hfired.symm, harmed.symm, hact.symm, hsince.symm⟩
    · rintro ⟨hfired, harmed, hact, hsince⟩
      exact ⟨harmed.symm, hfired.symm, hact.symm, hsince.symm⟩
  | cleared tree isOpen has done eq =>
    rw [eq] at h ⊢
    cases h
    rw [hactive] at isOpen
    constructor
    · intro he
      have hshut : false = (worker.ruleStates.getD rule.id {}).active := congrArg Episode.active he
      rw [isOpen] at hshut
      cases hshut
    · rintro ⟨hedge, _⟩
      cases hedge

end

/-- A call that is not dispatched keeps the episodes exactly when its edge shows in none. -/
theorem episodes_decideEdge (digest : Option (Node F) → Option (Node F) → String)
    (source : TriggerSource) (rule : Rule F) (now : Datetime) (worker : Rules.Worker F)
    {edge : Edge} (h : (decideEdge digest source rule now worker).1 = some edge) :
    (∀ id, episode ((decideEdge digest source rule now worker).2.ruleStates.getD id {}) =
        episode (worker.ruleStates.getD id {})) ↔
      source = .manual ∨ edge = .fire ∧ FiredAlready digest source rule now worker := by
  unfold FiredAlready
  cases source with
  | manual => simp [decideEdge]
  | schedule =>
    obtain ⟨firing, hfiring, rfl⟩ := Option.map_eq_some_iff.mp h
    obtain ⟨hedge, hiff⟩ := episode_evaluateEvent hfiring
    show (∀ id,
      episode ((runCached digest .evaluateEvent rule now worker).2.ruleStates.getD id {}) =
        episode (worker.ruleStates.getD id {})) ↔ _
    rw [episodes_runCached]
    simpa [hedge, EntryPoint.apply] using hiff
  | deviceStatus =>
    obtain ⟨firing, hfiring, rfl⟩ := Option.map_eq_some_iff.mp h
    obtain ⟨hedge, hiff⟩ := episode_evaluateEvent hfiring
    show (∀ id,
      episode ((runCached digest .evaluateEvent rule now worker).2.ruleStates.getD id {}) =
        episode (worker.ruleStates.getD id {})) ↔ _
    rw [episodes_runCached]
    simpa [hedge, EntryPoint.apply] using hiff
  | metric =>
    obtain ⟨firing, hfiring, rfl⟩ := Option.map_eq_some_iff.mp h
    have hiff := episode_evaluate hfiring
    show (∀ id, episode ((runCached digest .evaluate rule now worker).2.ruleStates.getD id {}) =
      episode (worker.ruleStates.getD id {})) ↔ _
    rw [episodes_runCached]
    simpa [EntryPoint.apply] using hiff

/-- **When no edge is consumed without its dispatch.** For every call, whatever the trigger, the
rule's state, the caches and the database's answers: exactly when the run has a device to go by (or
needs none), when nothing is due, or when the fire is one the state already shows. -/
theorem edge_kept_iff (digest : Option (Node F) → Option (Node F) → String)
    (lookup : Uuid → Lookup) (tenantId ruleId : Uuid) (source : TriggerSource)
    (deviceId : Option Uuid) (now : Datetime) (worker : Rules.Worker F) :
    EdgeKept worker
        (runRuleOutOfBand digest lookup tenantId ruleId source deviceId now worker) ↔
      ∀ rule edge, knownRule tenantId ruleId worker = some rule → source ≠ .manual →
        (decideEdge digest source rule now worker).1 = some edge →
        (∃ device, resolveRuleContext lookup rule deviceId = .context device) ∨
          edge = .fire ∧ FiredAlready digest source rule now worker := by
  unfold runRuleOutOfBand
  cases hrule : knownRule tenantId ruleId worker with
  | none => simp [EdgeKept]
  | some rule =>
    have hthis : ∀ (P : Rule F → Edge → Prop),
        (∀ rule' edge, some rule = some rule' → source ≠ .manual →
          (decideEdge digest source rule' now worker).1 = some edge → P rule' edge) ↔
        ∀ edge, source ≠ .manual →
          (decideEdge digest source rule now worker).1 = some edge → P rule edge := by
      intro P
      constructor
      · intro h edge
        exact h rule edge rfl
      · intro h rule' edge hr
        obtain rfl := Option.some.inj hr
        exact h edge
    rw [hthis]
    dsimp only
    cases hedge : (decideEdge digest source rule now worker).1 with
    | none => simp [EdgeKept]
    | some edge =>
      have hkept := episodes_decideEdge digest source rule now worker hedge
      have hlost : EdgeKept worker ⟨some edge, none, (decideEdge digest source rule now worker).2⟩ ↔
          source = .manual ∨ edge = .fire ∧ FiredAlready digest source rule now worker := by
        rw [← hkept]
        simp [EdgeKept]
      cases hres : resolveRuleContext lookup rule deviceId with
      | context device => simp [EdgeKept]
      | unusable =>
        show EdgeKept worker ⟨some edge, none, (decideEdge digest source rule now worker).2⟩ ↔ _
        rw [hlost]
        by_cases hm : source = .manual <;> simp [hm]
      | raised =>
        show EdgeKept worker ⟨some edge, none, (decideEdge digest source rule now worker).2⟩ ↔ _
        rw [hlost]
        by_cases hm : source = .manual <;> simp [hm]

/-! ## A clear that nobody dispatches -/

/-- A thermostat with a fan to switch off again, five seconds after the room has cooled down. -/
def ventilation : Rule Int :=
  { thermostat with
    clearActions := [.actuatorCommand (some "device") "fan" (.bool false)]
    executionPolicy := { clearForDuration := 5 } }

/-- Its fan is on, and the clear delay has been running since second 10. -/
def clearing : Rules.Worker Int :=
  { caches := loadRuleCache (fun _ _ => "digest") [ventilation]
    ruleStates := Dict.empty.set ventilation.id
      { armed := true
        active := true
        lastFiredAt := some 0
        conditionFingerprint := some "digest"
        clearSince := some (seconds 10) }
    signalValueCache := Dict.empty.set ⟨"device", "temperature"⟩
      { value := 20, timestamp := seconds 10 } }

/-- The device has been disabled. -/
def disabled (_ : Uuid) : Lookup := .row (some ⟨"device", "tenant", "acme", "boiler", .disabled⟩)

/-- **The pending clear is lost:** the pending-timer run at second 15 closes the episode, finds
the device disabled and returns; the fan stays on, and no later call will switch it off. -/
theorem clear_lost :
    ¬ EdgeKept clearing (runRuleOutOfBand (fun _ _ => "digest") disabled "tenant" ventilation.id
      .metric none (seconds 15) clearing) := by
  intro h
  have hedge : (runRuleOutOfBand (fun _ _ => "digest") disabled "tenant" ventilation.id
      .metric none (seconds 15) clearing).edge = some .clear := by decide +kernel
  have hlost : (runRuleOutOfBand (fun _ _ => "digest") disabled "tenant" ventilation.id
      .metric none (seconds 15) clearing).dispatched = none := by decide +kernel
  rcases h with h | h
  · obtain ⟨device, hd⟩ := h .clear hedge
    rw [hlost] at hd
    cases hd
  · exact absurd (h ventilation.id) (by decide +kernel)

end OutOfBand

end IotSaas.Worker
