import IotSaas.Lib.JsBits
import Mathlib.Algebra.GroupWithZero.Nat
import Mathlib.Data.List.Basic

/-!
# `Lib/Bisect.lean` — the first index where something stops

A search by halving between two borders, for a property of indices that holds up to some index and
not from there on. It finds that index (`bisect_iff`); in a list whose items lose a property once
and for all, dropping what lies before it is filtering (`drop_eq_filter`).
-/

set_option autoImplicit false

namespace IotSaas.Lib

/-- From two borders, the lower of which moves past a middle that is `below`. -/
def bisect (below : Nat → Bool) (lo hi : Nat) : Nat :=
  if lo < hi then
    if below ((lo + hi) / 2) then bisect below ((lo + hi) / 2 + 1) hi
    else bisect below lo ((lo + hi) / 2)
  else lo
termination_by hi - lo

/-- What holds of an index holds of every index before it. -/
def DownTo (below : Nat → Bool) : Prop :=
  ∀ i j, i ≤ j → below j = true → below i = true

section

variable {below : Nat → Bool}

/-- **Where the borders meet.** All before the lower border is `below` and nothing from the upper
one on, which each round keeps. -/
theorem bisect_iff (h : DownTo below) {lo hi : Nat} (hle : lo ≤ hi)
    (hlow : ∀ i, i < lo → below i = true) (hhigh : ∀ i, hi ≤ i → below i = false) (i : Nat) :
    below i = true ↔ i < bisect below lo hi := by
  induction lo, hi using bisect.induct below with
  | case1 lo hi hlt hmid ih =>
    rw [bisect, if_pos hlt, if_pos hmid]
    apply ih (by omega) _ hhigh
    intro j hj
    exact h j _ (Nat.le_of_lt_succ hj) hmid
  | case2 lo hi hlt hmid ih =>
    rw [bisect, if_pos hlt, if_neg hmid]
    apply ih (by omega) hlow
    intro j hj
    cases hb : below j with
    | true => exact absurd (h _ j hj hb) hmid
    | false => rfl
  | case3 lo hi hlt =>
    rw [bisect, if_neg hlt]
    constructor
    · intro hb
      apply Nat.lt_of_not_le
      intro hj
      rw [hhigh i (by omega)] at hb
      exact Bool.noConfusion hb
    · exact hlow i

end

/-! ## Dropping up to an index -/

/-- What is kept is what stands from an index on. -/
theorem drop_eq_filter {α : Type*} {keep : α → Bool} {xs : List α} {k : Nat}
    (h : ∀ i x, xs[i]? = some x → (keep x = true ↔ k ≤ i)) : xs.drop k = xs.filter keep := by
  induction xs generalizing k with
  | nil => simp
  | cons x xs ih =>
    have hx := h 0 x rfl
    cases k with
    | zero =>
      have hrest : xs.filter keep = xs := by
        rw [← ih (k := 0), List.drop_zero]
        intro i y hy
        simpa using (h (i + 1) y (by simpa using hy))
      rw [List.drop_zero, List.filter_cons_of_pos (hx.mpr (Nat.zero_le 0)), hrest]
    | succ k =>
      have hnot : ¬ keep x = true := by
        rw [hx]
        simp
      rw [List.drop_succ_cons, List.filter_cons_of_neg hnot]
      apply ih
      intro i y hy
      rw [h (i + 1) y (by simpa using hy)]
      exact Nat.succ_le_succ_iff

end IotSaas.Lib
