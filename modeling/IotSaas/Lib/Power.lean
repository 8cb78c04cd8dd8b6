import Mathlib.Algebra.Group.Basic
import Mathlib.Algebra.Group.Nat.Even
import Mathlib.Tactic.Ring

/-!
# `Lib/Power.lean` — square and multiply, reducing as it goes

The loop that computes a power from the bits of its exponent, lowest first, and reduces every
product before it goes on. What a reduction is, is two laws: it may be done early
(`Reduction.mul`), and what is reduced stays as it is. Remainders are one, whichever way they round.

`power_eq` is what the loop comes to: the reduced power, for every exponent.
-/

set_option autoImplicit false

namespace IotSaas.Lib

/-- A way to reduce products early. -/
structure Reduction (M : Type*) [Mul M] where
  reduce : M → M
  idem : ∀ x, reduce (reduce x) = reduce x
  mul : ∀ x y, reduce (x * y) = reduce (reduce x * reduce y)

section

variable {M : Type*} [CommMonoid M] (r : Reduction M)

/-- The loop: what is multiplied so far, the square that is next, and the bits that are left. -/
def squareMultiply (result b : M) (e : Nat) : M :=
  if e = 0 then result
  else squareMultiply (if e % 2 = 1 then r.reduce (result * b) else result) (r.reduce (b * b)) (e / 2)
termination_by e

variable {r}

theorem Reduction.mul_left (x y : M) : r.reduce (r.reduce x * y) = r.reduce (x * y) := by
  rw [r.mul, r.idem, ← r.mul]

theorem Reduction.mul_right (x y : M) : r.reduce (x * r.reduce y) = r.reduce (x * y) := by
  rw [r.mul, r.idem, ← r.mul]

/-- A factor may be reduced however often it comes. -/
theorem Reduction.mul_pow (x y : M) (n : Nat) :
    r.reduce (x * r.reduce y ^ n) = r.reduce (x * y ^ n) := by
  induction n with
  | zero => simp
  | succ n ih =>
    calc r.reduce (x * r.reduce y ^ (n + 1))
        = r.reduce (x * r.reduce y ^ n * r.reduce y) := by rw [pow_succ, mul_assoc]
      _ = r.reduce (x * r.reduce y ^ n * y) := Reduction.mul_right _ _
      _ = r.reduce (r.reduce (x * y ^ n) * y) := by rw [← ih, Reduction.mul_left]
      _ = r.reduce (x * y ^ (n + 1)) := by rw [Reduction.mul_left, pow_succ, mul_assoc]

/-- One bit: the square to half the power, and the factor itself for an odd exponent. -/
theorem pow_half (b : M) (e : Nat) : (if e % 2 = 1 then b else 1) * (b * b) ^ (e / 2) = b ^ e := by
  have hsquare : (b * b) ^ (e / 2) = b ^ (2 * (e / 2)) := by rw [pow_mul, sq]
  have hsplit := Nat.div_add_mod e 2
  split
  · rename_i hodd
    rw [hsquare, ← pow_succ', ← hodd, hsplit]
  · rename_i heven
    have hzero : e % 2 = 0 := by omega
    rw [hsquare, one_mul]
    rw [hzero, Nat.add_zero] at hsplit
    rw [hsplit]

/-- **The loop's invariant**: what is multiplied so far times the square to what is left. -/
theorem reduce_squareMultiply (result b : M) (e : Nat) :
    r.reduce (squareMultiply r result b e) = r.reduce (result * b ^ e) := by
  induction e using Nat.strong_induction_on generalizing result b with
  | h e ih =>
    rw [squareMultiply]
    split
    · rename_i hzero
      simp [hzero]
    · rename_i hpos
      have hnext : r.reduce (if e % 2 = 1 then r.reduce (result * b) else result) =
          r.reduce (result * if e % 2 = 1 then b else 1) := by
        split
        · exact r.idem _
        · rw [mul_one]
      rw [ih (e / 2) (Nat.div_lt_self (Nat.pos_of_ne_zero hpos) Nat.one_lt_two), Reduction.mul_pow,
        ← Reduction.mul_left, hnext, Reduction.mul_left, mul_assoc, pow_half]

/-- What comes out is reduced, if what went in is. -/
theorem squareMultiply_reduced {result : M} (h : r.reduce result = result) (b : M) (e : Nat) :
    r.reduce (squareMultiply r result b e) = squareMultiply r result b e := by
  induction e using Nat.strong_induction_on generalizing result b with
  | h e ih =>
    rw [squareMultiply]
    split
    · exact h
    · rename_i hpos
      refine ih (e / 2) (Nat.div_lt_self (Nat.pos_of_ne_zero hpos) Nat.one_lt_two) ?_ _
      split
      · exact r.idem _
      · exact h

/-- **Square and multiply computes the reduced power.** -/
theorem power_eq (hone : r.reduce 1 = 1) (b : M) (e : Nat) :
    squareMultiply r 1 (r.reduce b) e = r.reduce (b ^ e) := by
  rw [← squareMultiply_reduced hone, reduce_squareMultiply, Reduction.mul_pow, one_mul]

end

end IotSaas.Lib
