import Mathlib.Data.List.Basic

/-!
# `Lib/Kleene.lean` — strong Kleene connectives over a list

Truth values are `Option Bool`, `none` for *unknown*. A connective is given by its **dominant**
value: `true` dominates a disjunction and `false` a conjunction. The dominant value anywhere
decides; failing that an unknown anywhere spoils; failing that the answer is the other value.
-/

set_option autoImplicit false

namespace IotSaas.Lib

/-- The Kleene connective whose dominant value is `dominant`. -/
def combine (dominant : Bool) (results : List (Option Bool)) : Option Bool :=
  if some dominant ∈ results then some dominant
  else if none ∈ results then none
  else some (!dominant)

theorem combine_singleton (d : Bool) (r : Option Bool) : combine d [r] = r := by
  cases d <;> rcases r with _ | _ | _ <;> rfl

/-- **A part may be combined first.** With `combine_singleton`, this is all there is to merging a
group into a parent with the same connective. -/
theorem combine_append (d : Bool) (first second : List (Option Bool)) :
    combine d (first ++ second) = combine d [combine d first, combine d second] := by
  unfold combine
  by_cases h1 : some d ∈ first
  · simp [h1]
  · by_cases h2 : some d ∈ second
    · simp [h2]
    · by_cases h3 : none ∈ first <;> by_cases h4 : none ∈ second <;> simp [h1, h2, h3, h4]

/-- A disjunction is true exactly if one of its parts is. -/
theorem combine_true_eq_some_true {results : List (Option Bool)} :
    combine true results = some true ↔ some true ∈ results := by
  unfold combine
  by_cases h : some true ∈ results
  · simp [h]
  · by_cases hunknown : none ∈ results <;> simp [h, hunknown]

/-- A conjunction is true exactly if all of its parts are. -/
theorem combine_false_eq_some_true {results : List (Option Bool)} :
    combine false results = some true ↔ ∀ r ∈ results, r = some true := by
  unfold combine
  constructor
  · intro h r hr
    by_cases hfalse : some false ∈ results
    · simp [hfalse] at h
    · by_cases hunknown : none ∈ results
      · simp [hfalse, hunknown] at h
      · rcases r with _ | _ | _
        · exact absurd hr hunknown
        · exact absurd hr hfalse
        · rfl
  · intro h
    have hfalse : some false ∉ results := fun hmem => by cases h _ hmem
    have hunknown : none ∉ results := fun hmem => by cases h _ hmem
    simp [hfalse, hunknown]

end IotSaas.Lib
