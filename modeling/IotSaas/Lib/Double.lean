import Mathlib.Algebra.Order.Field.Power
import Mathlib.Algebra.Order.Floor.Ring
import Mathlib.Data.Int.Log
import Mathlib.Data.Rat.Floor
import Mathlib.Tactic.Linarith
import Mathlib.Tactic.Positivity

/-!
# `Lib/Double.lean` — the double nearest to a number

The binary number of 53 digits that is nearest to a rational, and of two the one whose last digit is
even; its last place is no lower than `2 ^ (-1074)`, and from `2 ^ 1024` on there is none. Signs are
the caller's: all is about numbers that are not negative.

Powers of two bound what rounding can do (`le_nearest`, `nearest_le`), so that numbers with a power
of two well between them stay apart (`nearest_lt_nearest`).
-/

set_option autoImplicit false

namespace IotSaas.Lib.Double

/-! ## To a whole number -/

/-- The whole number nearest to `x`, and of two the even one. -/
def roundEven (x : ℚ) : ℤ :=
  if 2 * Int.fract x < 1 ∨ 2 * Int.fract x = 1 ∧ Even ⌊x⌋ then ⌊x⌋ else ⌊x⌋ + 1

/-- It does not pass a whole number on the way down … -/
theorem le_roundEven {n : ℤ} {x : ℚ} (h : n ≤ x) : n ≤ roundEven x := by
  have hfloor : n ≤ ⌊x⌋ := Int.le_floor.mpr h
  unfold roundEven
  split <;> omega

/-- … nor on the way up. -/
theorem roundEven_le {n : ℤ} {x : ℚ} (h : x ≤ n) : roundEven x ≤ n := by
  have hfloor : ⌊x⌋ ≤ n := by
    have hcast : (⌊x⌋ : ℚ) ≤ n := (Int.floor_le x).trans h
    exact_mod_cast hcast
  unfold roundEven
  split
  · exact hfloor
  · rename_i hup
    -- a number that is rounded up is not whole, so it is below the next one
    have hne : ⌊x⌋ ≠ n := by
      intro heq
      have hfract : Int.fract x = 0 := by
        have hle : x ≤ ⌊x⌋ := heq ▸ h
        have hsum := Int.floor_add_fract x
        have hpos := Int.fract_nonneg x
        linarith
      exact hup (.inl (by simp [hfract]))
    omega

theorem roundEven_mono {x y : ℚ} (h : x ≤ y) : roundEven x ≤ roundEven y := by
  have hle : ⌊x⌋ ≤ ⌊y⌋ := Int.floor_le_floor h
  rcases hle.eq_or_lt with heq | hlt
  · have hfract : Int.fract x ≤ Int.fract y := by
      unfold Int.fract
      rw [heq]
      linarith
    unfold roundEven
    split
    · split <;> omega
    · rename_i hup
      -- what is rounded up stays so when it grows
      rw [if_neg, heq]
      intro hdown
      refine hup (hdown.imp (fun hhalf => by linarith) fun hhalf => ?_)
      have hhigh : ¬ 2 * Int.fract x < 1 := fun hlow => hup (.inl hlow)
      exact ⟨by linarith [hhalf.1], heq ▸ hhalf.2⟩
  · have hup : roundEven x ≤ ⌊x⌋ + 1 := by
      unfold roundEven
      split <;> omega
    have hdown : ⌊y⌋ ≤ roundEven y := by
      unfold roundEven
      split <;> omega
    omega

theorem abs_roundEven_sub_le (x : ℚ) : |(roundEven x : ℚ) - x| ≤ 1 / 2 := by
  have hsum := Int.floor_add_fract x
  have hnonneg := Int.fract_nonneg x
  have hlt := Int.fract_lt_one x
  rw [abs_le]
  unfold roundEven
  split
  · rename_i hdown
    have hhalf : 2 * Int.fract x ≤ 1 := hdown.elim le_of_lt fun h => h.1.le
    constructor <;> linarith
  · rename_i hup
    have hhalf : ¬ 2 * Int.fract x < 1 := fun hlow => hup (.inl hlow)
    push_cast
    constructor <;> linarith

/-! ## To a double -/

/-- The exponent of the last binary digit that a double of this size has. -/
def lastPlace (a : ℚ) : ℤ := max (Int.log 2 a - 52) (-1074)

/-- The number nearest to `a` that ends at its last place. -/
def toPlace (a : ℚ) : ℚ := roundEven (a / 2 ^ lastPlace a) * 2 ^ lastPlace a

/-- The double nearest to `a`, if it is not too large for one. -/
def nearest (a : ℚ) : Option ℚ := if toPlace a < 2 ^ 1024 then some (toPlace a) else none

/-- A power of two is whole, counted in a place that is not above it. -/
theorem zpow_div_place {k place : ℤ} (h : place ≤ k) :
    (2 : ℚ) ^ k / 2 ^ place = ((2 ^ (k - place).toNat : ℤ) : ℚ) := by
  have hcast : ((k - place).toNat : ℤ) = k - place := Int.toNat_of_nonneg (by omega)
  push_cast
  rw [← zpow_natCast, hcast, zpow_sub₀ two_ne_zero]

theorem le_toPlace {a : ℚ} {k : ℤ} (hk : -1074 ≤ k) (h : 2 ^ k ≤ a) : 2 ^ k ≤ toPlace a := by
  have hpos : (0 : ℚ) < a := lt_of_lt_of_le (by positivity) h
  have hlog : k ≤ Int.log 2 a := (Int.zpow_le_iff_le_log one_lt_two hpos).mp (by exact_mod_cast h)
  have hplace : (0 : ℚ) < 2 ^ lastPlace a := by positivity
  -- the highest digit of `a` is at its last place or above, so it is kept
  have hdigit : (2 : ℚ) ^ k ≤ 2 ^ (max k (lastPlace a)) := zpow_le_zpow_right₀ one_le_two (by omega)
  have hbelow : (2 : ℚ) ^ (max k (lastPlace a)) ≤ a := by
    have hmax : max k (lastPlace a) ≤ Int.log 2 a := by
      unfold lastPlace
      omega
    exact_mod_cast (Int.zpow_le_iff_le_log one_lt_two hpos).mpr hmax
  have hround : ((2 ^ (max k (lastPlace a) - lastPlace a).toNat : ℤ) : ℚ) ≤
      (roundEven (a / 2 ^ lastPlace a) : ℚ) := by
    apply Int.cast_le.mpr
    apply le_roundEven
    rw [← zpow_div_place (by omega)]
    gcongr
  rw [← zpow_div_place (by omega), div_le_iff₀ hplace] at hround
  exact hdigit.trans hround

theorem toPlace_le {a : ℚ} {k : ℤ} (hk : -1074 ≤ k) (hpos : 0 < a) (h : a ≤ 2 ^ k) :
    toPlace a ≤ 2 ^ k := by
  have hplace : (0 : ℚ) < 2 ^ lastPlace a := by positivity
  have hlog : Int.log 2 a ≤ k := by
    have hmono := Int.log_mono_right (b := 2) hpos h
    have hpow : Int.log 2 ((2 : ℚ) ^ k) = k := by exact_mod_cast Int.log_zpow (R := ℚ) one_lt_two k
    omega
  have hle : lastPlace a ≤ k := by
    unfold lastPlace
    omega
  have hround : (roundEven (a / 2 ^ lastPlace a) : ℚ) ≤
      ((2 ^ (k - lastPlace a).toNat : ℤ) : ℚ) := by
    apply Int.cast_le.mpr
    apply roundEven_le
    rw [← zpow_div_place hle]
    gcongr
  rw [← zpow_div_place hle, le_div_iff₀ hplace] at hround
  exact hround

/-- The error is half a unit of the last place. -/
theorem abs_toPlace_sub_le {a : ℚ} {place : ℤ} (h : lastPlace a ≤ place) :
    |toPlace a - a| ≤ 2 ^ place / 2 := by
  have hpos : (0 : ℚ) < 2 ^ lastPlace a := by positivity
  have hround := abs_roundEven_sub_le (a / 2 ^ lastPlace a)
  have hsplit : toPlace a - a =
      ((roundEven (a / 2 ^ lastPlace a) : ℚ) - a / 2 ^ lastPlace a) * 2 ^ lastPlace a := by
    rw [sub_mul, div_mul_cancel₀ _ hpos.ne', toPlace]
  have hgrows : (2 : ℚ) ^ lastPlace a ≤ 2 ^ place := zpow_le_zpow_right₀ one_le_two h
  calc |toPlace a - a|
      = |(roundEven (a / 2 ^ lastPlace a) : ℚ) - a / 2 ^ lastPlace a| * 2 ^ lastPlace a := by
        rw [hsplit, abs_mul, abs_of_pos hpos]
    _ ≤ 1 / 2 * 2 ^ lastPlace a := by gcongr
    _ ≤ 1 / 2 * 2 ^ place := by gcongr
    _ = 2 ^ place / 2 := by ring

/-- The last place of a number below a power of two. -/
theorem lastPlace_le {a : ℚ} {k : ℤ} (hk : -1021 ≤ k) (hpos : 0 < a) (h : a < 2 ^ k) :
    lastPlace a ≤ k - 53 := by
  have hlog : Int.log 2 a < k := (Int.lt_zpow_iff_log_lt one_lt_two hpos).mp (by exact_mod_cast h)
  unfold lastPlace
  omega

theorem lastPlace_eq {a : ℚ} {k : ℤ} (hk : -1022 ≤ k) (hle : 2 ^ k ≤ a) (hlt : a < 2 ^ (k + 1)) :
    lastPlace a = k - 52 := by
  have hpos : (0 : ℚ) < a := lt_of_lt_of_le (by positivity) hle
  have hlow : k ≤ Int.log 2 a := (Int.zpow_le_iff_le_log one_lt_two hpos).mp (by exact_mod_cast hle)
  have hhigh := lastPlace_le (by omega) hpos hlt
  unfold lastPlace at hhigh ⊢
  omega

/-- What lies less than half a unit below a multiple of the last place is not rounded down. -/
theorem le_toPlace_of_lt {a : ℚ} {n : ℤ} (h : n * 2 ^ lastPlace a - 2 ^ lastPlace a / 2 < a) :
    n * 2 ^ lastPlace a ≤ toPlace a := by
  have hpos : (0 : ℚ) < 2 ^ lastPlace a := by positivity
  have hround := (abs_le.mp (abs_roundEven_sub_le (a / 2 ^ lastPlace a))).1
  have hscaled : (n : ℚ) - 1 / 2 < a / 2 ^ lastPlace a := by
    rw [lt_div_iff₀ hpos, sub_mul]
    linarith
  have hlt : (n : ℚ) - 1 < roundEven (a / 2 ^ lastPlace a) := by linarith
  have hle : n ≤ roundEven (a / 2 ^ lastPlace a) := Int.sub_one_lt_iff.mp (by exact_mod_cast hlt)
  unfold toPlace
  gcongr

/-- **Rounding keeps the order.** -/
theorem toPlace_mono {a b : ℚ} (hpos : 0 < a) (h : a ≤ b) : toPlace a ≤ toPlace b := by
  have hlog : Int.log 2 a ≤ Int.log 2 b := Int.log_mono_right hpos h
  have hplace : lastPlace a ≤ lastPlace b := by
    unfold lastPlace
    omega
  rcases hplace.eq_or_lt with heq | hlt
  · unfold toPlace
    rw [heq]
    have hround : roundEven (a / 2 ^ lastPlace b) ≤ roundEven (b / 2 ^ lastPlace b) :=
      roundEven_mono (by gcongr)
    gcongr
  · -- a power of two is between them
    have hk : -1074 ≤ Int.log 2 b ∧ Int.log 2 a + 1 ≤ Int.log 2 b := by
      unfold lastPlace at hlt
      omega
    have hbelow : a ≤ 2 ^ Int.log 2 b := by
      have hhigh : a < (2 : ℚ) ^ (Int.log 2 a + 1) := by
        exact_mod_cast Int.lt_zpow_succ_log_self (b := 2) one_lt_two a
      exact hhigh.le.trans (zpow_le_zpow_right₀ one_le_two hk.2)
    have habove : (2 : ℚ) ^ Int.log 2 b ≤ b := by
      exact_mod_cast Int.zpow_log_le_self (b := 2) one_lt_two (hpos.trans_le h)
    exact (toPlace_le hk.1 hpos hbelow).trans (le_toPlace hk.1 habove)

end IotSaas.Lib.Double
