import IotSaas.Lib.Ieee
import IotSaas.Lib.Trace
import IotSaas.Rules.TreeValue

/-!
# `Rules/Schmitt.lean` — a leaf with hysteresis is a Schmitt trigger

The latch of a scalar leaf is the flag "a raw crossing, and no re-arm since" (`Lib.flag_iff_since`),
counted over the evaluations that had both sides; the others leave it as it is. The right-hand side
is free to move, each evaluation is judged against the side of its own moment.

That the flag may be read off at once needs the crossing and the re-arm to exclude each other,
which is where the numbers come in: a threshold moved by a margin that is not negative has not
passed itself, even after rounding (`Lib/Ieee.lean`).
-/

set_option autoImplicit false

namespace IotSaas.Rules

open Lib

instance (fmt : Ieee.Format) : PyFloat (Ieee.Number fmt) where
  lt := Ieee.Number.lt
  le := Ieee.Number.le
  eq := Ieee.Number.eq
  add := Ieee.Number.add
  sub := Ieee.Number.sub

/-- **No value crosses and re-arms at once.** -/
theorem not_rearmConditionMet_of_compare {fmt : Ieee.Format} {operator : Comparator}
    {value threshold hysteresis : Ieee.Number fmt}
    (hpos : PyFloat.le (Ieee.Number.rounded fmt 0) hysteresis = true)
    (h : compare value operator threshold = true) :
    rearmConditionMet operator value threshold hysteresis (compare value operator threshold) =
      false := by
  by_contra hmet
  rw [Bool.not_eq_false] at hmet
  cases operator with
  | gt =>
    have hle := Ieee.Number.le_of_le_sub hpos hmet
    exact Bool.false_ne_true ((Ieee.Number.not_lt_of_le hle).symm.trans h)
  | ge =>
    have hlt := Ieee.Number.lt_of_lt_sub hpos hmet
    exact Bool.false_ne_true ((Ieee.Number.not_lt_of_le h).symm.trans hlt)
  | lt =>
    have hle := Ieee.Number.le_of_add_le hpos hmet
    exact Bool.false_ne_true ((Ieee.Number.not_lt_of_le hle).symm.trans h)
  | le =>
    have hlt := Ieee.Number.lt_of_add_lt hpos hmet
    exact Bool.false_ne_true ((Ieee.Number.not_lt_of_le h).symm.trans hlt)
  | eq | ne =>
    rw [h] at hmet
    cases hmet

/-! ## One leaf -/

/-- A leaf with one of the six scalar operators. -/
structure ScalarLeaf (F : Type) where
  signal : SignalKey
  operator : Comparator
  rhs : ScalarRhs F
  hysteresis : F

section

variable {F : Type}

/-- The condition leaf it is. -/
def ScalarLeaf.leaf (leaf : ScalarLeaf F) : ConditionLeaf F where
  deviceId := leaf.signal.deviceId
  metric := leaf.signal.metric
  test := .compare leaf.operator leaf.rhs leaf.hysteresis

/-- The value and the right-hand side of an evaluation where both are fresh. -/
def ScalarLeaf.sides (leaf : ScalarLeaf F) (seen : Observation F) : Option (F × F) :=
  match seen.1.get leaf.signal with
  | none => none
  | some mv =>
      if signalState (some mv) seen.2 = .fresh then
        (resolveRhsScalar leaf.rhs seen.1 seen.2).1.map fun rhsValue => (mv.value, rhsValue)
      else none

variable [PyFloat F]

/-- One evaluation of a leaf. -/
def leafStep (leaf : ConditionLeaf F) (state : LeafState) (seen : Observation F) :
    Option Bool × LeafState :=
  evaluateLeaf leaf seen.1 seen.2 state

/-- The raw comparison was true. -/
def ScalarLeaf.Crossed (leaf : ScalarLeaf F) (seen : Observation F) : Prop :=
  ∃ value rhsValue, leaf.sides seen = some (value, rhsValue) ∧
    compare value leaf.operator rhsValue = true

/-- `_rearm_condition_met` was true. -/
def ScalarLeaf.Released (leaf : ScalarLeaf F) (seen : Observation F) : Prop :=
  ∃ value rhsValue, leaf.sides seen = some (value, rhsValue) ∧
    rearmConditionMet leaf.operator value rhsValue leaf.hysteresis
      (compare value leaf.operator rhsValue) = true

/-- **What one evaluation does**: nothing without both sides, else the latch is the answer. -/
theorem leafStep_scalar (leaf : ScalarLeaf F) (state : LeafState) (seen : Observation F) :
    leafStep leaf.leaf state seen =
      match leaf.sides seen with
      | none => (none, state)
      | some (value, rhsValue) =>
          let latched :=
            if state.latchedTrue then
              !rearmConditionMet leaf.operator value rhsValue leaf.hysteresis
                (compare value leaf.operator rhsValue)
            else compare value leaf.operator rhsValue
          (some latched, ⟨latched⟩) := by
  unfold leafStep evaluateLeaf ScalarLeaf.sides
  show (match seen.1.get leaf.signal with
    | none => _
    | some mv => _) = _
  cases seen.1.get leaf.signal with
  | none => rfl
  | some mv =>
    by_cases hfresh : signalState (some mv) seen.2 = .fresh
    · simp only [hfresh, ne_eq, not_true_eq_false, if_false, if_true, ScalarLeaf.leaf]
      cases (resolveRhsScalar leaf.rhs seen.1 seen.2).1 <;> rfl
    · simp only [hfresh, ne_eq, not_false_eq_true, if_true, if_false]

end

/-! ## Runs -/

/-- One evaluation of a leaf whose margin is not negative sets, keeps or clears the latch. -/
theorem latched_iff {fmt : Ieee.Format} {leaf : ScalarLeaf (Ieee.Number fmt)}
    (hpos : PyFloat.le (Ieee.Number.rounded fmt 0) leaf.hysteresis = true) (state : LeafState)
    (seen : Observation (Ieee.Number fmt)) :
    (leafStep leaf.leaf state seen).2.latchedTrue = true ↔
      leaf.Crossed seen ∨ state.latchedTrue = true ∧ ¬ leaf.Released seen := by
  rw [leafStep_scalar]
  unfold ScalarLeaf.Crossed ScalarLeaf.Released
  cases leaf.sides seen with
  | none => simp
  | some sides =>
    obtain ⟨value, rhsValue⟩ := sides
    have hexclusive : compare value leaf.operator rhsValue = true →
        rearmConditionMet leaf.operator value rhsValue leaf.hysteresis
          (compare value leaf.operator rhsValue) = false :=
      not_rearmConditionMet_of_compare hpos
    cases hlatched : state.latchedTrue with
    | false => simp
    | true =>
      cases hraw : compare value leaf.operator rhsValue with
      | false => simp [hraw]
      | true =>
        have hkept := hexclusive hraw
        rw [hraw] at hkept
        simp [hraw, hkept]

/-- **The Schmitt trigger.** At every evaluation of a run from a fresh latch: without both sides
the answer is unknown and the latch stays; with both sides there is an answer, true exactly if some
evaluation up to this one crossed and none after it, up to this one, re-armed; and no evaluation
does both. -/
theorem leaf_is_schmitt {fmt : Ieee.Format} (leaf : ScalarLeaf (Ieee.Number fmt))
    (hpos : PyFloat.le (Ieee.Number.rounded fmt 0) leaf.hysteresis = true)
    (seen : List (Observation (Ieee.Number fmt))) (n : Nat)
    (m : Moment LeafState (Observation (Ieee.Number fmt)) (Option Bool))
    (hm : CallAt (trace (leafStep leaf.leaf) {} seen) n m) :
    (leaf.sides m.event = none → m.out = none ∧ m.after = m.before) ∧
      (leaf.sides m.event ≠ none → ∃ b, m.out = some b ∧
        (b = true ↔ ∃ k mk, k ≤ n ∧ CallAt (trace (leafStep leaf.leaf) {} seen) k mk ∧
          leaf.Crossed mk.event ∧
          ∀ j mj, k < j → j ≤ n → CallAt (trace (leafStep leaf.leaf) {} seen) j mj →
            ¬ leaf.Released mj.event)) ∧
      ¬ (leaf.Crossed m.event ∧ leaf.Released m.event) := by
  have hmoment := trace_moment hm
  have hout : m.out = (leafStep leaf.leaf m.before m.event).1 := by
    rw [hmoment]
    rfl
  have hafter : m.after = (leafStep leaf.leaf m.before m.event).2 := by
    rw [hmoment]
    rfl
  -- The latch is a flag that a crossing sets and a release takes down.
  have hflag : m.before.latchedTrue = true ↔ Since (trace (leafStep leaf.leaf) {} seen)
      (fun m => leaf.Crossed m.event) (fun m => leaf.Released m.event) n := by
    refine flag_iff_since (fun state => state.latchedTrue = true) _ _ (by simp) ?_ hm
    intro n m hm
    rw [trace_moment hm]
    exact latched_iff hpos m.before m.event
  have hsince : m.after.latchedTrue = true ↔ Since (trace (leafStep leaf.leaf) {} seen)
      (fun m => leaf.Crossed m.event) (fun m => leaf.Released m.event) (n + 1) := by
    rw [since_succ hm, ← hflag, hafter]
    exact latched_iff hpos m.before m.event
  refine ⟨?_, ?_, ?_⟩
  · intro hsides
    rw [hout, hafter, leafStep_scalar, hsides]
    exact ⟨rfl, rfl⟩
  · intro hsides
    refine ⟨m.after.latchedTrue, ?_, ?_⟩
    · rw [hout, hafter, leafStep_scalar]
      cases hs : leaf.sides m.event with
      | none => exact absurd hs hsides
      | some sides => rfl
    · rw [hsince]
      unfold Since
      simp only [Nat.lt_succ_iff]
  · rintro ⟨⟨value, rhsValue, hsides, hcrossed⟩, value', rhsValue', hsides', hreleased⟩
    rw [hsides] at hsides'
    cases hsides'
    rw [not_rearmConditionMet_of_compare hpos hcrossed] at hreleased
    cases hreleased

/-- Hotter than 30, with a band of 5. -/
def heater : ScalarLeaf (Ieee.Number .exact) where
  signal := ⟨"boiler", "temp"⟩
  operator := .gt
  rhs := .static (.finite 30 rfl)
  hysteresis := .finite 5 rfl

/-- A reading of the heater, just come in. -/
def heaterReading (q : Rat) : Observation (Ieee.Number .exact) :=
  (Dict.empty.set ⟨"boiler", "temp"⟩ { value := .finite q rfl, timestamp := 0 }, 0)

theorem heater_margin :
    PyFloat.le (Ieee.Number.rounded .exact 0) heater.hysteresis = true :=
  Ieee.Number.le_iff.mpr ⟨Ieee.real 0, Ieee.real 5, Ieee.Number.val_rounded 0, rfl,
    Ieee.real_mono 0 5 (by decide)⟩

/-- A crossing, and then a value inside the band. -/
theorem heater_is_schmitt :
    ∃ m, CallAt (trace (leafStep heater.leaf) {} [heaterReading 31, heaterReading 27]) 1 m ∧
      (heater.sides m.event = none → m.out = none ∧ m.after = m.before) ∧
      (heater.sides m.event ≠ none → ∃ b, m.out = some b ∧
        (b = true ↔ ∃ k mk, k ≤ 1 ∧
          CallAt (trace (leafStep heater.leaf) {} [heaterReading 31, heaterReading 27]) k mk ∧
          heater.Crossed mk.event ∧
          ∀ j mj, k < j → j ≤ 1 →
            CallAt (trace (leafStep heater.leaf) {} [heaterReading 31, heaterReading 27]) j mj →
            ¬ heater.Released mj.event)) ∧
      ¬ (heater.Crossed m.event ∧ heater.Released m.event) := by
  exact ⟨_, rfl, leaf_is_schmitt heater heater_margin _ 1 _ rfl⟩

end IotSaas.Rules
