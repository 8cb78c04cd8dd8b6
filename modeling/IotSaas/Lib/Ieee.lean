import Mathlib.Algebra.Order.Ring.Unbundled.Rat
import Mathlib.Order.WithBot
import Mathlib.Tactic.Linarith

/-!
# `Lib/Ieee.lean` — floating-point numbers, up to the rounding

What IEEE 754 says of addition, subtraction and the comparisons, for a program that only adds,
subtracts and compares. An operation computes the exact result and rounds it. How many digits a
format has, where it overflows and which way it rounds is one function here (`Format.round`), of
which three laws are used: it keeps the order, what it has rounded it leaves alone, and zero is a
number. `Format.exact` is the format that never rounds. The two zeros are one number, which no
comparison tells apart.

A comparison with NaN is false, so `a ≤ b` and `b < a` may fail together; they never hold together
(`Number.not_lt_of_le`).
-/

set_option autoImplicit false

namespace IotSaas.Lib.Ieee

/-- The rationals with `-∞` and `+∞`. -/
abbrev Extended := WithBot (WithTop Rat)

/-- A rational among them. -/
abbrev real (q : Rat) : Extended := ((q : WithTop Rat) : Extended)

/-- A number format, by its rounding of exact results. -/
structure Format where
  round : Rat → Extended
  mono : ∀ p q : Rat, p ≤ q → round p ≤ round q
  idem : ∀ p q : Rat, round p = real q → round q = real q
  zero : round 0 = real 0

theorem real_mono (p q : Rat) (h : p ≤ q) : real p ≤ real q :=
  WithBot.coe_le_coe.mpr (WithTop.coe_le_coe.mpr h)

theorem real_idem (p q : Rat) (_ : real p = real q) : real q = real q := rfl

theorem real_zero : real 0 = real 0 := rfl

/-- Every result is exact. -/
def Format.exact : Format where
  round := real
  mono := real_mono
  idem := real_idem
  zero := real_zero

/-- The numbers of a format. -/
inductive Number (fmt : Format) where
  | nan
  | negInf
  | finite (q : Rat) (fits : fmt.round q = real q)
  | posInf

namespace Number

variable {fmt : Format}

/-- Where a number stands in the order; nowhere if it is none. -/
def val : Number fmt → Option Extended
  | .nan => none
  | .negInf => some ⊥
  | .finite q _ => some (real q)
  | .posInf => some ((⊤ : WithTop Rat) : Extended)

/-- An exact result as the format has it. -/
def rounded (fmt : Format) (p : Rat) : Number fmt :=
  match h : fmt.round p with
  | ⊥ => .negInf
  | (⊤ : WithTop Rat) => .posInf
  | ((q : Rat) : WithTop Rat) => .finite q (fmt.idem p q h)

def le (a b : Number fmt) : Bool :=
  match a.val, b.val with
  | some x, some y => decide (x ≤ y)
  | _, _ => false

def lt (a b : Number fmt) : Bool :=
  match a.val, b.val with
  | some x, some y => decide (x < y)
  | _, _ => false

def eq (a b : Number fmt) : Bool :=
  match a.val, b.val with
  | some x, some y => decide (x = y)
  | _, _ => false

def add : Number fmt → Number fmt → Number fmt
  | .nan, _ | _, .nan | .posInf, .negInf | .negInf, .posInf => .nan
  | .posInf, _ | _, .posInf => .posInf
  | .negInf, _ | _, .negInf => .negInf
  | .finite p _, .finite q _ => rounded fmt (p + q)

def sub : Number fmt → Number fmt → Number fmt
  | .nan, _ | _, .nan | .posInf, .posInf | .negInf, .negInf => .nan
  | .posInf, _ | _, .negInf => .posInf
  | .negInf, _ | _, .posInf => .negInf
  | .finite p _, .finite q _ => rounded fmt (p - q)

theorem val_rounded (p : Rat) : (rounded fmt p).val = some (fmt.round p) := by
  unfold rounded
  split <;> rename_i h <;> exact congrArg some h.symm

theorem le_iff {a b : Number fmt} :
    le a b = true ↔ ∃ x y, a.val = some x ∧ b.val = some y ∧ x ≤ y := by
  unfold le
  cases a.val <;> cases b.val <;> simp

theorem lt_iff {a b : Number fmt} :
    lt a b = true ↔ ∃ x y, a.val = some x ∧ b.val = some y ∧ x < y := by
  unfold lt
  cases a.val <;> cases b.val <;> simp

theorem not_lt_of_le {a b : Number fmt} (h : le a b = true) : lt b a = false := by
  obtain ⟨x, y, ha, hb, hle⟩ := le_iff.mp h
  simp [lt, ha, hb, hle]

/-- The rounding of what is at most a number is at most that number. -/
theorem round_le {p q : Rat} (fits : fmt.round q = real q) (h : p ≤ q) : fmt.round p ≤ real q :=
  fits ▸ fmt.mono p q h

theorem le_round {p q : Rat} (fits : fmt.round p = real p) (h : p ≤ q) : real p ≤ fmt.round q :=
  fits ▸ fmt.mono p q h

/-- What is at least zero is the infinity or a rational at least zero. -/
theorem margin_cases {h : Number fmt} (hpos : le (rounded fmt 0) h = true) :
    h = .posInf ∨ ∃ q fits, h = .finite q fits ∧ 0 ≤ q := by
  obtain ⟨x, y, hx, hy, hle⟩ := le_iff.mp hpos
  rw [val_rounded, fmt.zero] at hx
  cases hx
  cases h with
  | nan => cases hy
  | negInf =>
    cases hy
    exact absurd hle (WithBot.not_coe_le_bot _)
  | finite q fits =>
    cases hy
    exact .inr ⟨q, fits, rfl, WithTop.coe_le_coe.mp (WithBot.coe_le_coe.mp hle)⟩
  | posInf => exact .inl rfl

/-- **Taking a margin off gives nothing greater**, whatever is rounded away. -/
theorem sub_le {t h : Number fmt} (hpos : le (rounded fmt 0) h = true) {x : Extended}
    (hx : (sub t h).val = some x) : ∃ y, t.val = some y ∧ x ≤ y := by
  rcases margin_cases hpos with rfl | ⟨q, fits, rfl, hq⟩
  · cases t with
    | nan | posInf => cases hx
    | negInf =>
      cases hx
      exact ⟨_, rfl, le_refl _⟩
    | finite p pfits =>
      cases hx
      exact ⟨_, rfl, bot_le⟩
  · cases t with
    | nan => cases hx
    | negInf | posInf =>
      cases hx
      exact ⟨_, rfl, le_refl _⟩
    | finite p pfits =>
      rw [sub, val_rounded] at hx
      cases hx
      exact ⟨_, rfl, round_le pfits (by linarith)⟩

/-- **Adding a margin gives nothing less.** -/
theorem le_add {t h : Number fmt} (hpos : le (rounded fmt 0) h = true) {x : Extended}
    (hx : (add t h).val = some x) : ∃ y, t.val = some y ∧ y ≤ x := by
  rcases margin_cases hpos with rfl | ⟨q, fits, rfl, hq⟩
  · cases t with
    | nan | negInf => cases hx
    | posInf =>
      cases hx
      exact ⟨_, rfl, le_refl _⟩
    | finite p pfits =>
      cases hx
      exact ⟨_, rfl, WithBot.coe_le_coe.mpr le_top⟩
  · cases t with
    | nan => cases hx
    | negInf | posInf =>
      cases hx
      exact ⟨_, rfl, le_refl _⟩
    | finite p pfits =>
      rw [add, val_rounded] at hx
      cases hx
      exact ⟨_, rfl, le_round pfits (by linarith)⟩

variable {v t h : Number fmt}

/-- The two ends of a comparison with a moved threshold. -/
theorem le_of_le_sub (hpos : le (rounded fmt 0) h = true) (hle : le v (sub t h) = true) :
    le v t = true := by
  obtain ⟨x, z, hv, hz, hxz⟩ := le_iff.mp hle
  obtain ⟨y, ht, hzy⟩ := sub_le hpos hz
  exact le_iff.mpr ⟨x, y, hv, ht, hxz.trans hzy⟩

theorem lt_of_lt_sub (hpos : le (rounded fmt 0) h = true) (hlt : lt v (sub t h) = true) :
    lt v t = true := by
  obtain ⟨x, z, hv, hz, hxz⟩ := lt_iff.mp hlt
  obtain ⟨y, ht, hzy⟩ := sub_le hpos hz
  exact lt_iff.mpr ⟨x, y, hv, ht, hxz.trans_le hzy⟩

theorem le_of_add_le (hpos : le (rounded fmt 0) h = true) (hle : le (add t h) v = true) :
    le t v = true := by
  obtain ⟨z, x, hz, hv, hzx⟩ := le_iff.mp hle
  obtain ⟨y, ht, hyz⟩ := le_add hpos hz
  exact le_iff.mpr ⟨y, x, ht, hv, hyz.trans hzx⟩

theorem lt_of_add_lt (hpos : le (rounded fmt 0) h = true) (hlt : lt (add t h) v = true) :
    lt t v = true := by
  obtain ⟨z, x, hz, hv, hzx⟩ := lt_iff.mp hlt
  obtain ⟨y, ht, hyz⟩ := le_add hpos hz
  exact lt_iff.mpr ⟨y, x, ht, hv, hyz.trans_lt hzx⟩

end Number

end IotSaas.Lib.Ieee
