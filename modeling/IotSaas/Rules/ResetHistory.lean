import IotSaas.Rules.Clear
import IotSaas.Rules.TreeValue

/-!
# `Rules/ResetHistory.lean` — what the reset tree has seen

`_evaluate_node` evaluates every child, "so every leaf's latch sees every reading". The reset tree's
latches live as long as the rule's state, but `evaluate` runs the tree only while the rule is
disarmed, so a reading that comes in while it is armed is one they do not see. They still stand
where the whole history would have put them as long as no such reading would have moved one
(`resetLatches_follow_iff`); one that would have is lost for good, and the next episode may end on
a latch of the one before (`reset_latch_outlives_episode`).
-/

set_option autoImplicit false

namespace IotSaas.Rules

open Lib

variable {F : Type} [PyFloat F]

/-- The reset latches stand where the history would have put them. -/
def Tracks (reset : Node F) (history : List (Observation F)) (state : RuleState) : Prop :=
  LatchedBy (latchAfter history) reset state.resetLeafStates []

/-- This reading would leave every reset latch as it is. -/
def Unmoved (reset : Node F) (seen : Observation F) (leafStates : LeafStates) : Prop :=
  ∀ path leaf, LeafAt reset path leaf →
    (evaluateLeaf leaf seen.1 seen.2 (leafStates.getD path {})).2 = leafStates.getD path {}

theorem latchAfter_concat (history : List (Observation F)) (seen : Observation F)
    (leaf : ConditionLeaf F) : latchAfter (history ++ [seen]) leaf =
      (evaluateLeaf leaf seen.1 seen.2 (latchAfter history leaf)).2 := by
  simp [latchAfter, latchFrom, List.foldl_append]

section

variable {rule : Rule F} {reset : Node F}
  (hreset : rule.executionPolicy.resetCondition = some reset)
  (hstrategy : rule.executionPolicy.strategy = .resetCondition ∨
    rule.executionPolicy.strategy = .latch)

include hreset hstrategy in
theorem resetResult_of_disarmed {state : RuleState} (hdisarmed : state.armed = false)
    (seen : Observation F) : resetResult rule seen.1 seen.2 state =
      some (evaluateNode seen.1 seen.2 reset state.resetLeafStates []).1 := by
  unfold resetResult
  rcases hstrategy with hs | hs <;> simp [hdisarmed, hs, evaluateReset, hreset]

include hreset hstrategy in
/-- A disarmed evaluation steps the latches. -/
theorem tracks_of_disarmed {history : List (Observation F)} {state : RuleState}
    (hdisarmed : state.armed = false) (h : Tracks reset history state) (seen : Observation F) :
    Tracks reset (history ++ [seen]) (evaluate rule seen.1 seen.2 state).2 := by
  have hframe := (evaluate_frame rule seen.1 seen.2 state).2.1
  have hresult := resetResult_of_disarmed hreset hstrategy hdisarmed seen
  obtain ⟨reset', hreset', hlatches⟩ :=
    rearmed_resetLeafStates_of_some (by rw [hresult]; rfl)
  rw [hreset] at hreset'
  cases hreset'
  intro path leaf hleaf
  show (evaluate rule seen.1 seen.2 state).2.resetLeafStates.getD ([] ++ path) {} = _
  rw [hframe, hlatches, latchAfter_concat, ← h path leaf hleaf]
  exact Dict.getD_of_get (evaluateNode_latch seen.1 seen.2 hleaf state.resetLeafStates [])

/-- An armed one does not: the latches follow exactly if there was nothing to follow. -/
theorem tracks_of_armed_iff {history : List (Observation F)} {state : RuleState}
    (harmed : state.armed = true) (h : Tracks reset history state) (seen : Observation F) :
    Tracks reset (history ++ [seen]) (evaluate rule seen.1 seen.2 state).2 ↔
      Unmoved reset seen state.resetLeafStates := by
  have hnone : resetResult rule seen.1 seen.2 state = none := by
    unfold resetResult
    rw [if_pos harmed]
  have hkept : (evaluate rule seen.1 seen.2 state).2.resetLeafStates = state.resetLeafStates :=
    (evaluate_frame rule seen.1 seen.2 state).2.1.trans
      (rearmed_resetLeafStates_of_none hnone)
  unfold Tracks LatchedBy Unmoved
  rw [hkept]
  constructor
  · intro htracks path leaf hleaf
    have hnow := htracks path leaf hleaf
    rw [latchAfter_concat, ← h path leaf hleaf] at hnow
    exact hnow.symm
  · intro hunmoved path leaf hleaf
    rw [latchAfter_concat, ← h path leaf hleaf]
    exact (hunmoved path leaf hleaf).symm

theorem tracks_start (reset : Node F) : Tracks reset [] {} := by
  intro path leaf _
  rfl

omit [PyFloat F] in
theorem take_succ_of_getElem? {seen : List (Observation F)} {n : Nat} {s : Observation F}
    (h : seen[n]? = some s) : seen.take (n + 1) = seen.take n ++ [s] := by
  rw [List.take_add_one, h]
  rfl

include hreset hstrategy in
/-- **The reset latches follow the whole history** exactly in the runs whose armed evaluations
leave them where they are. -/
theorem resetLatches_follow_iff (seen : List (Observation F)) :
    (∀ n m, CallAt (evaluations rule seen) n m →
      Tracks reset (seen.take n) m.before ∧ Tracks reset (seen.take (n + 1)) m.after) ↔
      ∀ n m, CallAt (evaluations rule seen) n m → m.before.armed = true →
        Unmoved reset m.event m.before.resetLeafStates := by
  constructor
  · intro hfollow n m hm harmed
    obtain ⟨hbefore, hafter⟩ := hfollow n m hm
    rw [take_succ_of_getElem? (trace_event hm), trace_moment hm] at hafter
    exact (tracks_of_armed_iff harmed hbefore m.event).mp hafter
  · intro hunmoved
    have hstep : ∀ n m, CallAt (evaluations rule seen) n m →
        Tracks reset (seen.take n) m.before → Tracks reset (seen.take (n + 1)) m.after := by
      intro n m hm hbefore
      rw [take_succ_of_getElem? (trace_event hm), trace_moment hm]
      cases harmed : m.before.armed with
      | true => exact (tracks_of_armed_iff harmed hbefore m.event).mpr (hunmoved n m hm harmed)
      | false => exact tracks_of_disarmed hreset hstrategy harmed hbefore m.event
    have hbefore : ∀ n m, CallAt (evaluations rule seen) n m →
        Tracks reset (seen.take n) m.before :=
      trace_invariant (I := fun n state => Tracks reset (seen.take n) state)
        (tracks_start reset) hstep
    exact fun n m hm => ⟨hbefore n m hm, hstep n m hm (hbefore n m hm)⟩

end

/-- **The reset tree is judged on every reading** in a run whose armed evaluations would leave
every reset latch as it is: disarmed, its value is the one the whole history gives it. -/
theorem reset_judged_on_history (rule : Rule F) (reset : Node F)
    (hreset : rule.executionPolicy.resetCondition = some reset)
    (hstrategy : rule.executionPolicy.strategy = .resetCondition ∨
      rule.executionPolicy.strategy = .latch)
    (seen : List (Observation F))
    (hunmoved : ∀ n m, CallAt (evaluations rule seen) n m → m.before.armed = true →
      Unmoved reset m.event m.before.resetLeafStates)
    (n : Nat) (m : Evaluation F) (hm : CallAt (evaluations rule seen) n m)
    (hdisarmed : m.before.armed = false) :
    resetResult rule m.event.1 m.event.2 m.before =
      some (valueAfter (seen.take n) m.event.1 m.event.2 reset) := by
  have htracks := ((resetLatches_follow_iff hreset hstrategy seen).mpr hunmoved n m hm).1
  rw [resetResult_of_disarmed hreset hstrategy hdisarmed, valueAfter_eq]
  exact congrArg some (evaluateNode_value _ _ _ reset _ [] htracks)

/-! ## Two episodes -/

/-- Above 90 the cooling starts; it may start again once it was below 20, with a band of 5. -/
def coolingRule : Rule Int where
  id := "cooling"
  tenantId := "tenant"
  condition := some (.leaf ⟨"boiler", "temp", .compare .gt (.static 90) 0⟩)
  executionPolicy :=
    { strategy := .resetCondition
      resetCondition := some (.leaf ⟨"boiler", "temp", .compare .lt (.static 20) 5⟩) }

def coolingReset : Node Int := .leaf ⟨"boiler", "temp", .compare .lt (.static 20) 5⟩

def boilerAt (temp : Int) (now : Datetime) : Observation Int :=
  (Dict.empty.set ⟨"boiler", "temp"⟩ { value := temp, timestamp := now }, now)

/-- The one leaf of the reset tree is its root. -/
theorem unmoved_coolingReset {seen : Observation Int} {leafStates : LeafStates}
    (h : (evaluateLeaf ⟨"boiler", "temp", .compare .lt (.static 20) 5⟩ seen.1 seen.2
      (leafStates.getD [] {})).2 = leafStates.getD [] {}) :
    Unmoved coolingReset seen leafStates := by
  intro path leaf hleaf
  cases hleaf
  exact h

def oneEpisode : List (Observation Int) := [boilerAt 95 0, boilerAt 15 1]

/-- The reading that fires would not have moved the latch. -/
theorem oneEpisode_unmoved (n : Nat) (m : Evaluation Int)
    (hm : CallAt (evaluations coolingRule oneEpisode) n m) (harmed : m.before.armed = true) :
    Unmoved coolingReset m.event m.before.resetLeafStates := by
  match n, hm with
  | 0, hm =>
    cases hm
    exact unmoved_coolingReset (by decide)
  | 1, hm =>
    cases hm
    exact absurd harmed (by decide)
  | n + 2, hm => cases hm

theorem oneEpisode_judged_on_history :
    ∃ m, CallAt (evaluations coolingRule oneEpisode) 1 m ∧
      resetResult coolingRule m.event.1 m.event.2 m.before =
        some (valueAfter (oneEpisode.take 1) m.event.1 m.event.2 coolingReset) :=
  ⟨_, rfl, reset_judged_on_history coolingRule coolingReset rfl (.inl rfl) oneEpisode
    oneEpisode_unmoved 1 _ rfl (by decide)⟩

/-- **A latch outlives its episode.** 15 re-arms the rule and sets the latch, 95 would have cleared
it but fires. So 22, inside the band, ends the second episode, and the whole history says it does
not. -/
theorem reset_latch_outlives_episode :
    ∃ m, CallAt (evaluations coolingRule
        [boilerAt 95 0, boilerAt 15 1, boilerAt 95 2, boilerAt 22 3]) 3 m ∧
      m.before.armed = false ∧
      resetResult coolingRule m.event.1 m.event.2 m.before = some (some true) ∧
      valueAfter [boilerAt 95 0, boilerAt 15 1, boilerAt 95 2] m.event.1 m.event.2 coolingReset =
        some false := by
  refine ⟨_, rfl, ?_, ?_, ?_⟩ <;> decide

end IotSaas.Rules
