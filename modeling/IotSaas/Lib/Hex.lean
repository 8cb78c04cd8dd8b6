import Mathlib.Data.Nat.Digits.Lemmas

/-!
# `Lib/Hex.lean` — numbers, their hexadecimal texts, and bytes

A number is printed in base sixteen and read back, and the digits taken two by two are the bytes of
the number, the highest first. The text is a list of digits under `Nat.digitChar` (`toDigits_eq`),
so what is said of it is said of digits, where Mathlib knows it.

A text of an odd length has no pairs to be read as bytes; a zero in front makes it even and leaves
the number as it is.
-/

set_option autoImplicit false

namespace IotSaas.Lib.Hex

/-! ## Texts of digits -/

/-- The digits of a number, the highest first; zero is one of them. -/
def digits (n : Nat) : List Nat := if n = 0 then [0] else (Nat.digits 16 n).reverse

/-- The number of a hexadecimal digit; 0 for what is none. -/
def digitValue (c : Char) : Nat :=
  if '0' ≤ c ∧ c ≤ '9' then c.toNat - 48
  else if 'a' ≤ c ∧ c ≤ 'f' then c.toNat - 87
  else if 'A' ≤ c ∧ c ≤ 'F' then c.toNat - 55
  else 0

/-- The number of a text of digits. -/
def read (text : List Char) : Nat := text.foldl (fun n c => 16 * n + digitValue c) 0

@[simp] theorem read_zero_cons (text : List Char) : read ('0' :: text) = read text := by
  simp [read, digitValue]

@[simp] theorem digitValue_digitChar {d : Nat} (h : d < 16) : digitValue d.digitChar = d := by
  have hall : ∀ d : Fin 16, digitValue (d.val.digitChar) = d.val := by decide
  exact hall ⟨d, h⟩

theorem digits_of_lt {n : Nat} (h : n < 16) : digits n = [n] := by
  unfold digits
  split
  · rename_i hzero
    rw [hzero]
  · rename_i hpos
    simp [Nat.digits_of_lt 16 n hpos h]

/-- The last digit, behind those of what is left. -/
theorem digits_of_le {n : Nat} (h : 16 ≤ n) : digits n = digits (n / 16) ++ [n % 16] := by
  have hpos : n ≠ 0 := by omega
  have hleft : n / 16 ≠ 0 := by omega
  simp [digits, hpos, hleft, Nat.digits_def' (by omega : 1 < 16) (Nat.pos_of_ne_zero hpos)]

/-- **The text of a number is its digits.** -/
theorem toDigits_eq (n : Nat) : Nat.toDigits 16 n = (digits n).map Nat.digitChar := by
  induction n using Nat.strong_induction_on with
  | h n ih =>
    rcases Nat.lt_or_ge n 16 with hlt | hge
    · rw [Nat.toDigits_of_lt_base hlt, digits_of_lt hlt]
      rfl
    · rw [Nat.toDigits_of_base_le (by omega) hge, digits_of_le hge, List.map_append,
        ih (n / 16) (by omega)]
      rfl

theorem lt_of_mem_digits {n d : Nat} (h : d ∈ digits n) : d < 16 := by
  unfold digits at h
  split at h
  · simp at h
    omega
  · exact Nat.digits_lt_base (by omega) (List.mem_reverse.mp h)

/-- No zero leads. -/
theorem head_digits {n : Nat} (h : 0 < n) : ∃ d rest, digits n = d :: rest ∧ d ≠ 0 := by
  have hne : Nat.digits 16 n ≠ [] := Nat.digits_ne_nil_iff_ne_zero.mpr (by omega)
  refine ⟨(Nat.digits 16 n).getLast hne, (Nat.digits 16 n).dropLast.reverse, ?_,
    Nat.getLast_digit_ne_zero 16 (by omega)⟩
  have hpos : n ≠ 0 := by omega
  rw [digits, if_neg hpos]
  conv => lhs; rw [← List.dropLast_concat_getLast hne]
  simp

/-- **A number is read back from its text.** -/
theorem read_toDigits (n : Nat) : read (Nat.toDigits 16 n) = n := by
  induction n using Nat.strong_induction_on with
  | h n ih =>
    rcases Nat.lt_or_ge n 16 with hlt | hge
    · rw [Nat.toDigits_of_lt_base hlt]
      simp [read, digitValue_digitChar hlt]
    · rw [Nat.toDigits_of_base_le (by omega) hge]
      have hlast : n % 16 < 16 := by omega
      have hleft := ih (n / 16) (by omega)
      unfold read at hleft ⊢
      rw [List.foldl_append, hleft]
      simp only [List.foldl_cons, List.foldl_nil, digitValue_digitChar hlast]
      omega

/-! ## Bytes -/

/-- A byte as two digits. -/
def byteText (b : UInt8) : List Char :=
  let text := Nat.toDigits 16 b.toNat
  List.replicate (2 - text.length) '0' ++ text

/-- The digits of a text two by two; one that is left over is dropped. -/
def pairs : List Char → List (Char × Char)
  | a :: b :: rest => (a, b) :: pairs rest
  | _ => []

/-- The byte of two digits. -/
def byteOf (pair : Char × Char) : UInt8 := UInt8.ofNat (read [pair.1, pair.2])

/-- A digit of a printed number. -/
def IsDigit (c : Char) : Prop := ∃ d < 16, c = Nat.digitChar d

theorem byteText_byteOf {a b : Char} (ha : IsDigit a) (hb : IsDigit b) :
    byteText (byteOf (a, b)) = [a, b] := by
  obtain ⟨x, hx, rfl⟩ := ha
  obtain ⟨y, hy, rfl⟩ := hb
  have hvalue : read [x.digitChar, y.digitChar] = 16 * x + y := by
    simp [read, digitValue_digitChar hx, digitValue_digitChar hy]
  have hbyte : (byteOf (x.digitChar, y.digitChar)).toNat = 16 * x + y := by
    simp only [byteOf, hvalue, UInt8.toNat_ofNat']
    omega
  unfold byteText
  rw [hbyte]
  rcases Nat.eq_zero_or_pos x with rfl | hpos
  · simp only [Nat.mul_zero, Nat.zero_add, Nat.toDigits_of_lt_base hy]
    rfl
  · rw [← Nat.toDigits_append_toDigits (by omega) hpos hy, Nat.toDigits_of_lt_base hx,
      Nat.toDigits_of_lt_base hy]
    rfl

/-- **The bytes of a text of whole pairs print as that text.** -/
theorem flatMap_byteText {text : List Char} (heven : text.length % 2 = 0)
    (hdigits : ∀ c ∈ text, IsDigit c) :
    ((pairs text).map byteOf).flatMap byteText = text := by
  induction text using pairs.induct with
  | case1 a b rest ih =>
    have hrest : rest.length % 2 = 0 := by
      simp only [List.length_cons] at heven
      omega
    rw [pairs, List.map_cons, List.flatMap_cons,
      byteText_byteOf (hdigits a (by simp)) (hdigits b (by simp)),
      ih hrest fun c hc => hdigits c (by simp [hc])]
    rfl
  | case2 text hshort =>
    cases text with
    | nil => rfl
    | cons a rest =>
      cases rest with
      | nil => simp at heven
      | cons b rest => exact absurd rfl (hshort a b rest)

end IotSaas.Lib.Hex
