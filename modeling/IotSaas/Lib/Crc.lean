import Mathlib.Tactic.Common

/-!
# `Lib/Crc.lean` — cyclic redundancy checks, bit by bit and by table

A reflected CRC shifts its remainder out at the low end, and takes the polynomial off whenever a one
falls out. A shift is linear in exclusive or, so what several of them do to a remainder is what they
do to its low bits, and the rest of it moved down (`shifts_split`). That is why a table of the low
bits will do, whatever the width and the polynomial are.
-/

set_option autoImplicit false

namespace IotSaas.Lib.Crc

variable {w : Nat} (poly : BitVec w)

/-- One bit out. -/
def shift (c : BitVec w) : BitVec w := if c.getLsbD 0 then poly ^^^ (c >>> 1) else c >>> 1

/-- `n` bits out. -/
def shifts : Nat → BitVec w → BitVec w
  | 0, c => c
  | n + 1, c => shifts n (shift poly c)

/-- A shift is linear in exclusive or. -/
theorem shift_xor (a b : BitVec w) : shift poly (a ^^^ b) = shift poly a ^^^ shift poly b := by
  simp only [shift, BitVec.getLsbD_xor, BitVec.ushiftRight_xor_distrib]
  ext i
  cases a.getLsbD 0 <;> cases b.getLsbD 0 <;>
    simp [Bool.xor_left_comm, ← Bool.xor_assoc poly[i] poly[i]]

theorem shifts_xor (n : Nat) (a b : BitVec w) :
    shifts poly n (a ^^^ b) = shifts poly n a ^^^ shifts poly n b := by
  induction n generalizing a b with
  | zero => rfl
  | succ n ih => rw [shifts, shift_xor, ih, shifts, shifts]

/-- Low bits that are clear only make room. -/
theorem shifts_of_clear {n : Nat} {c : BitVec w} (h : ∀ i < n, c.getLsbD i = false) :
    shifts poly n c = c >>> n := by
  induction n generalizing c with
  | zero => simp [shifts]
  | succ n ih =>
    have hlow : c.getLsbD 0 = false := h 0 (by omega)
    have hshift : shift poly c = c >>> 1 := by simp [shift, hlow]
    rw [shifts, hshift, ih, Nat.add_comm, BitVec.shiftRight_add]
    intro i hi
    rw [BitVec.getLsbD_ushiftRight]
    exact h (1 + i) (by omega)

/-- **The low bits decide, and the others move down.** -/
theorem shifts_split {n : Nat} {c low : BitVec w}
    (h : ∀ i, low.getLsbD i = (decide (i < n) && c.getLsbD i)) :
    shifts poly n c = shifts poly n low ^^^ (c >>> n) := by
  have hsplit : c = low ^^^ (c ^^^ low) := by
    rw [BitVec.xor_comm c low, ← BitVec.xor_assoc, BitVec.xor_self, BitVec.zero_xor]
  have hclear : ∀ i < n, (c ^^^ low).getLsbD i = false := by
    intro i hi
    simp [h, hi]
  have hhigh : (c ^^^ low) >>> n = c >>> n := by
    ext i hi
    have hnot : ¬n + i < n := by omega
    simp [← BitVec.getLsbD_eq_getElem, h, hnot]
  conv => lhs; rw [hsplit]
  rw [shifts_xor, shifts_of_clear poly hclear, hhigh]

end IotSaas.Lib.Crc
