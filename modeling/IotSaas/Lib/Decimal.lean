import Mathlib.Algebra.GroupWithZero.Nat
import Mathlib.Data.List.Dedup
import Mathlib.Data.List.Sort

/-!
# `Lib/Decimal.lean` — natural numbers as texts, and lists of them in order

Digits read as a number, what a number prints as, and the list in ascending order without
repetitions that stands for a set of numbers.
-/

set_option autoImplicit false

namespace IotSaas.Lib

/-! ## Digits -/

/-- A number of digits only, however many. -/
def readDecimal (chars : List Char) : Option Nat :=
  if chars ≠ [] ∧ chars.all Char.isDigit = true then some (Nat.ofDigitChars 10 chars 0) else none

theorem digit_bounds {c : Char} (h : c.isDigit = true) : 48 ≤ c.toNat ∧ c.toNat ≤ 57 := by
  simp only [Char.isDigit, Bool.and_eq_true, decide_eq_true_eq] at h
  exact ⟨UInt32.le_iff_toNat_le.mp h.1, UInt32.le_iff_toNat_le.mp h.2⟩

theorem isDigit_of_mem_repr {n : Nat} {c : Char} (h : c ∈ n.repr.toList) : c.isDigit = true := by
  rw [Nat.toList_repr] at h
  exact Nat.isDigit_of_mem_toDigits (by decide) (by decide) h

theorem repr_ne_nil (n : Nat) : n.repr.toList ≠ [] := by
  intro h
  have hvalue := Nat.ofDigitChars_ten_toDigits (n := n)
  rw [Nat.toList_repr] at h
  have hlen := Nat.length_toDigits_pos (b := 10) (n := n)
  rw [h] at hlen
  cases hlen

/-- **A number is read back from its text.** -/
theorem readDecimal_repr (n : Nat) : readDecimal n.repr.toList = some n := by
  have hall : n.repr.toList.all Char.isDigit = true :=
    List.all_eq_true.mpr fun c hc => isDigit_of_mem_repr hc
  rw [readDecimal, if_pos ⟨repr_ne_nil n, hall⟩, Nat.toList_repr, Nat.ofDigitChars_ten_toDigits]

theorem repr_injective {m n : Nat} (h : m.repr = n.repr) : m = n := by
  have hread := readDecimal_repr m
  rw [h, readDecimal_repr n] at hread
  exact (Option.some.inj hread).symm

theorem isDigit_of_readDecimal {chars : List Char} {n : Nat} (h : readDecimal chars = some n) :
    chars ≠ [] ∧ ∀ c ∈ chars, c.isDigit = true := by
  unfold readDecimal at h
  split at h
  · rename_i hdigits
    exact ⟨hdigits.1, fun c hc => List.all_eq_true.mp hdigits.2 c hc⟩
  · cases h

/-! ## Sets of numbers -/

/-- The numbers of a list in ascending order, each once. -/
def ascending (numbers : List Nat) : List Nat := numbers.dedup.insertionSort (· ≤ ·)

theorem mem_ascending {numbers : List Nat} {n : Nat} : n ∈ ascending numbers ↔ n ∈ numbers := by
  rw [ascending, List.mem_insertionSort, List.mem_dedup]

theorem ascending_pairwise (numbers : List Nat) : (ascending numbers).Pairwise (· < ·) := by
  have hsorted : (ascending numbers).Pairwise (· ≤ ·) := List.pairwise_insertionSort _ _
  have hnodup : (ascending numbers).Nodup :=
    (List.perm_insertionSort _ _).nodup_iff.mpr (List.nodup_dedup numbers)
  exact (hsorted.and hnodup).imp fun h => Nat.lt_of_le_of_ne h.1 h.2

/-- There is one such list for a set of numbers. -/
theorem eq_of_ascending {first second : List Nat} (hfirst : first.Pairwise (· < ·))
    (hsecond : second.Pairwise (· < ·)) (h : ∀ n, n ∈ first ↔ n ∈ second) : first = second := by
  have hperm : first.Perm second :=
    (List.perm_ext_iff_of_nodup (hfirst.imp Nat.ne_of_lt) (hsecond.imp Nat.ne_of_lt)).mpr h
  exact hperm.eq_of_pairwise (fun _ _ _ _ hab hba => absurd hab (Nat.lt_asymm hba)) hfirst hsecond

theorem ascending_congr {first second : List Nat} (h : ∀ n, n ∈ first ↔ n ∈ second) :
    ascending first = ascending second :=
  eq_of_ascending (ascending_pairwise first) (ascending_pairwise second) fun n => by
    rw [mem_ascending, mem_ascending, h]

theorem ascending_of_pairwise {numbers : List Nat} (h : numbers.Pairwise (· < ·)) :
    ascending numbers = numbers :=
  eq_of_ascending (ascending_pairwise numbers) h fun _ => mem_ascending

end IotSaas.Lib
