import Mathlib.Data.List.Basic

/-!
# `Lib/Except.lean` — computations that can be refused

A `do` block that ends well went well at every line.
-/

set_option autoImplicit false

namespace IotSaas.Lib

variable {ε α β : Type}

variable {x : Except ε α} {f : α → Except ε β}

theorem bind_ok {b : β} (h : (x >>= f) = .ok b) :
    ∃ a, x = .ok a ∧ f a = .ok b := by
  cases x with
  | error e => cases h
  | ok a => exact ⟨a, rfl, h⟩

theorem bind_eq_ok {b : β} :
    (x >>= f) = .ok b ↔ ∃ a, x = .ok a ∧ f a = .ok b :=
  ⟨bind_ok, fun ⟨a, hx, hf⟩ => hx ▸ hf⟩

theorem pure_eq_ok {a b : α} : (pure a : Except ε α) = .ok b ↔ a = b :=
  ⟨Except.ok.inj, fun h => h ▸ rfl⟩

/-- A check that refuses. -/
theorem ite_error_eq_ok {p : Prop} [Decidable p] {e : ε} {a : α} :
    (if p then .error e else x) = .ok a ↔ ¬p ∧ x = .ok a := by
  by_cases hp : p <;> simp [hp]

/-! ## Computations that are not refused -/

def Completes (x : Except ε α) : Prop := ∃ a, x = .ok a

theorem Completes.ok (a : α) : Completes (.ok a : Except ε α) := ⟨a, rfl⟩

theorem Completes.of_eq {a : α} (h : x = .ok a) : Completes x := ⟨a, h⟩

theorem Completes.bind {a : α} (h : x = .ok a) (hf : Completes (f a)) : Completes (x >>= f) := by
  rw [h]
  exact hf

/-- A computation that ends well, with a result that meets `P`. -/
def Yields (x : Except ε α) (P : α → Prop) : Prop := ∃ a, x = .ok a ∧ P a

theorem Yields.ok {P : α → Prop} {a : α} (h : P a) : Yields (.ok a : Except ε α) P := ⟨a, rfl, h⟩

theorem Yields.bind {P : β → Prop} {a : α} (h : x = .ok a) (hf : Yields (f a) P) :
    Yields (x >>= f) P := by
  rw [h]
  exact hf

theorem Yields.completes {P : α → Prop} (h : Yields x P) : Completes x := by
  obtain ⟨a, hx, -⟩ := h
  exact ⟨a, hx⟩

/-! ## Loops that return early -/

/-- A loop that is after `n` items: it returns with the first `n`, or goes on with what there is. -/
def gathered (n : Nat) (items : List α) : Except (List α) (List α) :=
  if n ≤ items.length then .error (items.take n) else .ok items

/-- A loop over gathering steps gathers what they all find, in order. -/
theorem foldlM_gathered {f : List α → β → Except (List α) (List α)} {g : β → List α} {n : Nat}
    (hf : ∀ x out, out.length < n → f out x = gathered n (out ++ g x)) {xs : List β}
    {out : List α} (hout : out.length < n) :
    xs.foldlM f out = gathered n (out ++ xs.flatMap g) := by
  induction xs generalizing out with
  | nil =>
    rw [List.flatMap_nil, List.append_nil, gathered, if_neg (Nat.not_le_of_lt hout)]
    rfl
  | cons x rest ih =>
    rw [List.foldlM_cons, hf x out hout, List.flatMap_cons, ← List.append_assoc]
    unfold gathered
    by_cases hfull : n ≤ (out ++ g x).length
    · have hmore : n ≤ (out ++ g x ++ rest.flatMap g).length := by
        rw [List.length_append]
        omega
      rw [if_pos hfull, if_pos hmore, List.take_append_of_le_length hfull]
      rfl
    · rw [if_neg hfull]
      exact ih (Nat.lt_of_not_le hfull)

end IotSaas.Lib
