import Mathlib.Data.Int.Notation

/-!
# `Lib/JsBits.lean` — JavaScript's bitwise operators

An operand is any whole number; an operator takes its 32 lowest bits. `^` and `&` answer the signed
number of the bits they make, `>>>` the unsigned one. So one pattern of bits has two numbers, and
what an operator makes of them is told by the bits alone (`bits_xor`, `bits_and`, `bits_ushr`).
-/

set_option autoImplicit false

namespace IotSaas.Lib.JsBits

/-- `ToInt32` and `ToUint32`, before they are read as a number. -/
def bits (x : Int) : BitVec 32 := BitVec.ofInt 32 x

/-- `x ^ y`. -/
def xor (x y : Int) : Int := (bits x ^^^ bits y).toInt

/-- `x & y`. -/
def and (x y : Int) : Int := (bits x &&& bits y).toInt

/-- `x >>> n`, for `n < 32`. -/
def ushr (x : Int) (n : Nat) : Int := (bits x >>> n).toNat

@[simp] theorem bits_toInt (x : BitVec 32) : bits x.toInt = x := BitVec.ofInt_toInt

@[simp] theorem bits_toNat (x : BitVec 32) : bits (x.toNat : Int) = x := by
  simp [bits]

@[simp] theorem bits_xor (x y : Int) : bits (xor x y) = bits x ^^^ bits y := bits_toInt _

@[simp] theorem bits_and (x y : Int) : bits (and x y) = bits x &&& bits y := bits_toInt _

@[simp] theorem bits_ushr (x : Int) (n : Nat) : bits (ushr x n) = bits x >>> n := bits_toNat _

/-- The unsigned number of the bits. -/
theorem ushr_zero (x : Int) : ushr x 0 = (bits x).toNat := by
  simp [ushr]

example : xor 0xedb88320 0 = -306674912 := by decide

end IotSaas.Lib.JsBits
