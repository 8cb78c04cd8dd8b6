import IotSaas.Rules.Evaluators

/-!
# `Rules/EvaluatorSpec.lean` — what one call can do

Everything later files know about `evaluate` they know through this one. A call runs the tree,
runs the re-arm block, and then takes one of six exits; `evaluate_exit` lists the exits with
their guards and the states they leave, and is the only place `evaluate` is unfolded. The re-arm
block touches `armed` and the reset latches and nothing else (the frame lemmas), and raises
`armed` only for the reason its strategy names (`RearmReason`).
-/

set_option autoImplicit false

namespace IotSaas.Rules

open Lib

variable {F : Type} [PyFloat F]

/-- What a call computes its condition tree to. -/
def treeResult (rule : Rule F) (snapshot : MetricSnapshot F) (now : Datetime)
    (state : RuleState) : Option Bool :=
  (evaluateTree rule snapshot now state.leafStates).1

/-- What a call computes its reset tree to; `none` where it does not evaluate one. It does so
only when it finds the rule disarmed, under the two strategies that read the tree. -/
def resetResult (rule : Rule F) (snapshot : MetricSnapshot F) (now : Datetime)
    (state : RuleState) : Option (Option Bool) :=
  if state.armed then none
  else
    match rule.executionPolicy.strategy with
    | .resetCondition | .latch =>
        (evaluateReset rule snapshot now state.resetLeafStates).map Prod.fst
    | .edge | .continuous => none

/-! ## The re-arm block -/

/-- The state after the tree and the re-arm block, before anything is decided. -/
def rearmed (rule : Rule F) (snapshot : MetricSnapshot F) (now : Datetime) (state : RuleState) :
    RuleState :=
  rearm rule (treeResult rule snapshot now state) snapshot now
    { state with leafStates := (evaluateTree rule snapshot now state.leafStates).2 }

section

variable (rule : Rule F) (tree : Option Bool) (snapshot : MetricSnapshot F) (now : Datetime)
  (state : RuleState)

/-- The block changes `armed` and the reset latches only. -/
theorem rearm_frame : ∃ armed resetLeafStates,
    rearm rule tree snapshot now state =
      { state with armed := armed, resetLeafStates := resetLeafStates } := by
  unfold rearm
  -- with the record taken apart every branch is an update of two fields
  cases state with
  | mk since armed fired leaves resets fp active clear =>
    dsimp only
    repeat' split
    all_goals exact ⟨_, _, rfl⟩

@[simp] theorem rearm_conditionSince :
    (rearm rule tree snapshot now state).conditionSince = state.conditionSince := by
  obtain ⟨a, r, h⟩ := rearm_frame rule tree snapshot now state
  rw [h]

@[simp] theorem rearm_lastFiredAt :
    (rearm rule tree snapshot now state).lastFiredAt = state.lastFiredAt := by
  obtain ⟨a, r, h⟩ := rearm_frame rule tree snapshot now state
  rw [h]

@[simp] theorem rearm_leafStates :
    (rearm rule tree snapshot now state).leafStates = state.leafStates := by
  obtain ⟨a, r, h⟩ := rearm_frame rule tree snapshot now state
  rw [h]

@[simp] theorem rearm_active :
    (rearm rule tree snapshot now state).active = state.active := by
  obtain ⟨a, r, h⟩ := rearm_frame rule tree snapshot now state
  rw [h]

@[simp] theorem rearm_clearSince :
    (rearm rule tree snapshot now state).clearSince = state.clearSince := by
  obtain ⟨a, r, h⟩ := rearm_frame rule tree snapshot now state
  rw [h]

@[simp] theorem rearm_conditionFingerprint :
    (rearm rule tree snapshot now state).conditionFingerprint = state.conditionFingerprint := by
  obtain ⟨a, r, h⟩ := rearm_frame rule tree snapshot now state
  rw [h]

@[simp] theorem rearmed_conditionSince :
    (rearmed rule snapshot now state).conditionSince = state.conditionSince := by
  simp [rearmed]

@[simp] theorem rearmed_lastFiredAt :
    (rearmed rule snapshot now state).lastFiredAt = state.lastFiredAt := by
  simp [rearmed]

@[simp] theorem rearmed_leafStates : (rearmed rule snapshot now state).leafStates =
    (evaluateTree rule snapshot now state.leafStates).2 := by
  simp [rearmed]

@[simp] theorem rearmed_active :
    (rearmed rule snapshot now state).active = state.active := by
  simp [rearmed]

@[simp] theorem rearmed_clearSince :
    (rearmed rule snapshot now state).clearSince = state.clearSince := by
  simp [rearmed]

@[simp] theorem rearmed_conditionFingerprint :
    (rearmed rule snapshot now state).conditionFingerprint = state.conditionFingerprint := by
  simp [rearmed]

end

variable {rule : Rule F} {snapshot : MetricSnapshot F} {now : Datetime} {state : RuleState}

/-- A call that evaluates no reset tree leaves the reset latches. -/
theorem rearmed_resetLeafStates_of_none (h : resetResult rule snapshot now state = none) :
    (rearmed rule snapshot now state).resetLeafStates = state.resetLeafStates := by
  unfold resetResult at h
  unfold rearmed rearm
  by_cases ha : state.armed = true
  · rw [if_pos ha]
  · rw [if_neg ha] at h ⊢
    cases hs : rule.executionPolicy.strategy with
    | edge => rfl
    | continuous => rfl
    | resetCondition =>
      rw [hs] at h
      rw [Option.map_eq_none_iff.mp h]
    | latch =>
      rw [hs] at h
      rw [Option.map_eq_none_iff.mp h]

/-- A call that evaluates the reset tree leaves the latches the tree leaves. -/
theorem rearmed_resetLeafStates_of_some (h : (resetResult rule snapshot now state).isSome) :
    ∃ reset, rule.executionPolicy.resetCondition = some reset ∧
      (rearmed rule snapshot now state).resetLeafStates =
        (evaluateNode snapshot now reset state.resetLeafStates []).2 := by
  unfold resetResult at h
  unfold rearmed rearm
  by_cases ha : state.armed = true
  · rw [if_pos ha] at h
    cases h
  · rw [if_neg ha] at h ⊢
    cases hr : rule.executionPolicy.resetCondition with
    | none =>
      cases hs : rule.executionPolicy.strategy <;> simp [hs, evaluateReset, hr] at h
    | some reset =>
      refine ⟨reset, rfl, ?_⟩
      cases hs : rule.executionPolicy.strategy with
      | edge => rw [hs] at h; cases h
      | continuous => rw [hs] at h; cases h
      | resetCondition => simp [evaluateReset, hr]
      | latch => simp [evaluateReset, hr]

/-- Why a disarmed rule may come out of the re-arm block armed. -/
def RearmReason (rule : Rule F) (snapshot : MetricSnapshot F) (now : Datetime)
    (state : RuleState) : Prop :=
  match rule.executionPolicy.strategy, rule.executionPolicy.resetCondition with
  | .continuous, _ => True
  | .edge, _ | .resetCondition, none => treeResult rule snapshot now state = some false
  | .resetCondition, some _ | .latch, some _ =>
      resetResult rule snapshot now state = some (some true)
  | .latch, none => False

/-- **A disarmed rule is re-armed for its strategy's reason only.** -/
theorem rearmed_reason (hd : state.armed = false)
    (ha : (rearmed rule snapshot now state).armed = true) :
    RearmReason rule snapshot now state := by
  unfold rearmed rearm at ha
  unfold RearmReason resetResult
  simp only [hd, Bool.false_eq_true, if_false] at ha ⊢
  cases hs : rule.executionPolicy.strategy with
  | continuous => trivial
  | edge =>
    simp only [hs] at ha ⊢
    simpa using ha
  | resetCondition =>
    simp only [hs] at ha ⊢
    cases hr : rule.executionPolicy.resetCondition with
    | none => simpa [evaluateReset, hr] using ha
    | some reset => simpa [evaluateReset, hr] using ha
  | latch =>
    simp only [hs] at ha ⊢
    cases hr : rule.executionPolicy.resetCondition with
    | none =>
      simp [evaluateReset, hr] at ha
    | some reset => simpa [evaluateReset, hr] using ha

/-- An armed rule stays armed. -/
theorem rearmed_armed (h : state.armed = true) :
    (rearmed rule snapshot now state).armed = true := by
  unfold rearmed rearm
  dsimp only
  rw [if_pos h]
  exact h

/-! ## The exits -/

/-- The state of a call whose tree is true, before the gates: both hold timers are settled. -/
def running (rule : Rule F) (snapshot : MetricSnapshot F) (now : Datetime) (state : RuleState) :
    RuleState :=
  { rearmed rule snapshot now state with
    clearSince := none
    conditionSince := some ((rearmed rule snapshot now state).conditionSince.getD now) }

/-- The state of a call whose tree is not true, before `_maybe_clear` looks at it. -/
def halted (rule : Rule F) (snapshot : MetricSnapshot F) (now : Datetime) (state : RuleState) :
    RuleState :=
  { rearmed rule snapshot now state with conditionSince := none }

/-- The hold of a call whose tree is true has lasted `for_duration`. -/
def HoldComplete (rule : Rule F) (now : Datetime) (state : RuleState) : Prop :=
  seconds rule.executionPolicy.forDuration ≤ elapsed now (state.conditionSince.getD now)

/-- The hold of a call whose tree is false has lasted `clear_for_duration`. -/
def ClearComplete (rule : Rule F) (now : Datetime) (state : RuleState) : Prop :=
  seconds rule.executionPolicy.clearForDuration ≤ elapsed now (state.clearSince.getD now)

/-- **The exits of `evaluate`**, each with the guards that lead to it and what it leaves. The
first two are the gates of a true tree, the other four are `_maybe_clear`'s. -/
inductive Exit (rule : Rule F) (snapshot : MetricSnapshot F) (now : Datetime)
    (state : RuleState) : Prop where
  /-- The tree is true and a gate holds the fire back. -/
  | gated (tree : treeResult rule snapshot now state = some true)
      (gate : ¬ HoldComplete rule now state ∨
        (rearmed rule snapshot now state).armed = false ∨ coolingDown rule now state = true)
      (eq : evaluate rule snapshot now state = (none, running rule snapshot now state))
  /-- The tree is true and every gate is open. -/
  | fired (tree : treeResult rule snapshot now state = some true)
      (held : HoldComplete rule now state)
      (armed : (rearmed rule snapshot now state).armed = true)
      (cool : coolingDown rule now state = false)
      (eq : evaluate rule snapshot now state =
        (some { ruleId := rule.id },
          { running rule snapshot now state with
            armed := false, lastFiredAt := some now, active := !rule.clearActions.isEmpty }))
  /-- Nothing can be cleared: the tree is unknown, or no episode is open. -/
  | idle (tree : treeResult rule snapshot now state ≠ some true)
      (shut : treeResult rule snapshot now state = none ∨ state.active = false)
      (eq : evaluate rule snapshot now state =
        (none, { halted rule snapshot now state with clearSince := none }))
  /-- The clear actions were removed in mid-episode. -/
  | dropped (tree : treeResult rule snapshot now state = some false)
      (isOpen : state.active = true) (gone : rule.clearActions = [])
      (eq : evaluate rule snapshot now state =
        (none, { halted rule snapshot now state with active := false, clearSince := none }))
  /-- The clear delay is running. -/
  | holding (tree : treeResult rule snapshot now state = some false)
      (isOpen : state.active = true) (has : rule.clearActions ≠ [])
      (short : ¬ ClearComplete rule now state)
      (eq : evaluate rule snapshot now state =
        (none, { halted rule snapshot now state with
          clearSince := some (state.clearSince.getD now) }))
  /-- The clear delay is over. -/
  | cleared (tree : treeResult rule snapshot now state = some false)
      (isOpen : state.active = true) (has : rule.clearActions ≠ [])
      (done : ClearComplete rule now state)
      (eq : evaluate rule snapshot now state =
        (some { ruleId := rule.id, edge := .clear },
          { halted rule snapshot now state with active := false, clearSince := none }))

/-- `evaluate` over the named intermediate states. -/
private theorem evaluate_eq (rule : Rule F) (snapshot : MetricSnapshot F) (now : Datetime)
    (state : RuleState) :
    evaluate rule snapshot now state =
      if treeResult rule snapshot now state ≠ some true then
        maybeClear rule (treeResult rule snapshot now state) now (halted rule snapshot now state)
          (!rule.clearActions.isEmpty) rule.executionPolicy.clearForDuration
      else if elapsed now ((rearmed rule snapshot now state).conditionSince.getD now) <
          seconds rule.executionPolicy.forDuration then
        (none, running rule snapshot now state)
      else if (running rule snapshot now state).armed = false then
        (none, running rule snapshot now state)
      else if coolingDown rule now (running rule snapshot now state) then
        (none, running rule snapshot now state)
      else
        (some { ruleId := rule.id },
          { running rule snapshot now state with
            armed := false, lastFiredAt := some now, active := !rule.clearActions.isEmpty }) :=
  rfl

/-- `_maybe_clear`, entered from a tree that is not true. -/
private theorem exit_of_not_true (ht : treeResult rule snapshot now state ≠ some true) :
    Exit rule snapshot now state := by
  have he := evaluate_eq rule snapshot now state
  rw [if_pos ht] at he
  have hactive : (halted rule snapshot now state).active = state.active := by simp [halted]
  have hsince : (halted rule snapshot now state).clearSince = state.clearSince := by
    simp [halted]
  -- the three tests of `_maybe_clear`, in its order
  by_cases hshut : treeResult rule snapshot now state = none ∨ state.active = false
  · refine .idle ht hshut ?_
    rw [he, maybeClear, if_pos (hactive ▸ hshut)]
  · obtain ⟨hknown, hopen⟩ := not_or.mp hshut
    have hf : treeResult rule snapshot now state = some false := by
      rcases hr : treeResult rule snapshot now state with _ | _ | _
      · exact absurd hr hknown
      · rfl
      · exact absurd hr ht
    have ho : state.active = true := by simpa using hopen
    rw [maybeClear, if_neg (hactive ▸ hshut)] at he
    by_cases hc : rule.clearActions = []
    · refine .dropped hf ho hc ?_
      rw [he, if_pos (by simp [hc])]
    · rw [if_neg (by simpa using hc)] at he
      dsimp only at he
      rw [hsince] at he
      by_cases hd : ClearComplete rule now state
      · refine .cleared hf ho hc hd ?_
        rw [he, if_neg (by unfold ClearComplete at hd; omega)]
      · refine .holding hf ho hc hd ?_
        rw [he, if_pos (by unfold ClearComplete at hd; omega)]

/-- **Every call takes one of the exits.** -/
theorem evaluate_exit (rule : Rule F) (snapshot : MetricSnapshot F) (now : Datetime)
    (state : RuleState) : Exit rule snapshot now state := by
  by_cases ht : treeResult rule snapshot now state = some true
  · have he := evaluate_eq rule snapshot now state
    have hcool : coolingDown rule now (running rule snapshot now state) =
        coolingDown rule now state := by simp [coolingDown, running]
    have harmed : (running rule snapshot now state).armed =
        (rearmed rule snapshot now state).armed := rfl
    rw [if_neg (not_not.mpr ht), rearmed_conditionSince, harmed, hcool] at he
    -- the three gates of a true tree: hold, armed, cooldown
    by_cases hh : HoldComplete rule now state
    · rw [if_neg (by unfold HoldComplete at hh; omega)] at he
      by_cases ha : (rearmed rule snapshot now state).armed = false
      · exact .gated ht (.inr (.inl ha)) (by rw [he, if_pos ha])
      · rw [if_neg ha] at he
        by_cases hc : coolingDown rule now state = true
        · exact .gated ht (.inr (.inr hc)) (by rw [he, if_pos hc])
        · exact .fired ht hh (by simpa using ha) (by simpa using hc) (by rw [he, if_neg hc])
    · exact .gated ht (.inl hh) (by rw [he, if_pos (by unfold HoldComplete at hh; omega)])
  · exact exit_of_not_true ht

/-- After the re-arm block no latch and no fingerprint moves. -/
theorem evaluate_frame (rule : Rule F) (snapshot : MetricSnapshot F) (now : Datetime)
    (state : RuleState) :
    (evaluate rule snapshot now state).2.leafStates =
      (evaluateTree rule snapshot now state.leafStates).2 ∧
    (evaluate rule snapshot now state).2.resetLeafStates =
      (rearmed rule snapshot now state).resetLeafStates ∧
    (evaluate rule snapshot now state).2.conditionFingerprint = state.conditionFingerprint := by
  cases evaluate_exit rule snapshot now state with
  | gated tree gate eq => rw [eq]; simp [running]
  | fired tree held armed cool eq => rw [eq]; simp [running]
  | idle tree shut eq => rw [eq]; simp [halted]
  | dropped tree isOpen gone eq => rw [eq]; simp [halted]
  | holding tree isOpen has short eq => rw [eq]; simp [halted]
  | cleared tree isOpen has done eq => rw [eq]; simp [halted]

/-- What the re-arm block left disarmed, the rest of the call does not arm. -/
theorem evaluate_disarmed (ha : (rearmed rule snapshot now state).armed = false) :
    (evaluate rule snapshot now state).2.armed = false := by
  cases evaluate_exit rule snapshot now state with
  | gated tree gate eq => rw [eq]; exact ha
  | fired tree held armed cool eq => rw [eq]
  | idle tree shut eq => rw [eq]; exact ha
  | dropped tree isOpen gone eq => rw [eq]; exact ha
  | holding tree isOpen has short eq => rw [eq]; exact ha
  | cleared tree isOpen has done eq => rw [eq]; exact ha

/-- The hold timer runs exactly while the tree is true. -/
theorem evaluate_conditionSince (rule : Rule F) (snapshot : MetricSnapshot F) (now : Datetime)
    (state : RuleState) :
    (evaluate rule snapshot now state).2.conditionSince =
      if treeResult rule snapshot now state = some true then
        some (state.conditionSince.getD now)
      else none := by
  cases evaluate_exit rule snapshot now state with
  | gated tree gate eq => rw [eq, if_pos tree]; simp [running]
  | fired tree held armed cool eq => rw [eq, if_pos tree]; simp [running]
  | idle tree shut eq => rw [eq, if_neg tree]; simp [halted]
  | dropped tree isOpen gone eq => rw [eq, tree]; simp [halted]
  | holding tree isOpen has short eq => rw [eq, tree]; simp [halted]
  | cleared tree isOpen has done eq => rw [eq, tree]; simp [halted]

/-- The last fire is stamped by fires only. -/
theorem evaluate_lastFiredAt
    (hf : ∀ firing, (evaluate rule snapshot now state).1 = some firing → firing.edge ≠ .fire) :
    (evaluate rule snapshot now state).2.lastFiredAt = state.lastFiredAt := by
  cases evaluate_exit rule snapshot now state with
  | gated tree gate eq => rw [eq]; simp [running]
  | fired tree held armed cool eq => exact absurd rfl (hf _ (by rw [eq]))
  | idle tree shut eq => rw [eq]; simp [halted]
  | dropped tree isOpen gone eq => rw [eq]; simp [halted]
  | holding tree isOpen has short eq => rw [eq]; simp [halted]
  | cleared tree isOpen has done eq => rw [eq]; simp [halted]

/-- An event touches the leaf latches, and the stamp of the last fire if it fires. -/
theorem evaluateEvent_frame (rule : Rule F) (snapshot : MetricSnapshot F) (now : Datetime)
    (state : RuleState) : ∃ lastFiredAt,
    (evaluateEvent rule snapshot now state).2 =
      { state with
        leafStates := (evaluateTree rule snapshot now state.leafStates).2
        lastFiredAt := lastFiredAt } ∧
    ((∀ firing, (evaluateEvent rule snapshot now state).1 = some firing → firing.edge ≠ .fire) →
      lastFiredAt = state.lastFiredAt) := by
  unfold evaluateEvent
  dsimp only
  by_cases ht : (evaluateTree rule snapshot now state.leafStates).1 ≠ some true
  · rw [if_pos ht]
    exact ⟨_, rfl, fun _ => rfl⟩
  · rw [if_neg ht]
    by_cases hc : coolingDown rule now
        { state with leafStates := (evaluateTree rule snapshot now state.leafStates).2 } = true
    · rw [if_pos hc]
      exact ⟨_, rfl, fun _ => rfl⟩
    · rw [if_neg hc]
      exact ⟨_, rfl, fun h => absurd rfl (h _ rfl)⟩

end IotSaas.Rules
