import Mathlib.Data.List.Basic

/-!
# `Lib/Attempt.lean` — programs whose steps may raise

A program asks the world for one step after another. A step may raise, and then the program ends
there unless somebody catches what was raised; which steps have been asked for is on record either
way. The world is a function from steps to what they raise, so a statement about *every* subset of
failing steps is a statement about every such function.

`trace` is the record, `result` how the program ended. The rules are one for each way of putting
programs together; a proof about a program follows its text by them and never unfolds `Attempt`.
-/

set_option autoImplicit false

namespace IotSaas.Lib

/-- A program over steps `S` that may raise an `E`. -/
def Attempt (S E α : Type) := (S → Option E) → List S × Except E α

namespace Attempt

variable {S E α β : Type}

/-- The steps that were attempted, in their order. -/
def trace (p : Attempt S E α) (raises : S → Option E) : List S := (p raises).1

/-- How the program ended. -/
def result (p : Attempt S E α) (raises : S → Option E) : Except E α := (p raises).2

/-- The steps that were attempted and did not raise. -/
def done (p : Attempt S E α) (raises : S → Option E) : List S :=
  (p.trace raises).filter fun s => (raises s).isNone

protected def pure (a : α) : Attempt S E α := fun _ => ([], .ok a)

protected def bind (p : Attempt S E α) (f : α → Attempt S E β) : Attempt S E β := fun raises =>
  match p.result raises with
  | .error e => (p.trace raises, .error e)
  | .ok a => (p.trace raises ++ (f a).trace raises, (f a).result raises)

instance : Monad (Attempt S E) where
  pure := Attempt.pure
  bind := Attempt.bind

/-- One step. -/
def perform (s : S) : Attempt S E Unit := fun raises =>
  ([s], match raises s with
    | none => .ok ()
    | some e => .error e)

/-- What is there after an `except`: the value, or what the handler makes of the exception. -/
def recovered (handler : E → α) : Except E α → α
  | .ok a => a
  | .error e => handler e

/-- `try: … except Exception as exc: …`. -/
def caught (p : Attempt S E α) (handler : E → α) : Attempt S E α := fun raises =>
  (p.trace raises, .ok (recovered handler (p.result raises)))

/-- A loop over a list; the first iteration that raises ends it. -/
def each (f : α → Attempt S E β) : List α → Attempt S E (List β)
  | [] => pure []
  | a :: rest => do
      let b ← f a
      let bs ← each f rest
      pure (b :: bs)

/-! ## The rules -/

section

variable (raises : S → Option E)

@[simp] theorem trace_pure (a : α) : trace (pure a : Attempt S E α) raises = [] := rfl

@[simp] theorem result_pure (a : α) : result (pure a : Attempt S E α) raises = .ok a := rfl

@[simp] theorem trace_perform (s : S) : trace (perform s : Attempt S E Unit) raises = [s] := rfl

theorem result_perform {s : S} (h : raises s = none) :
    result (perform s : Attempt S E Unit) raises = .ok () := by
  simp [result, perform, h]

theorem result_perform_error {s : S} {e : E} (h : raises s = some e) :
    result (perform s : Attempt S E Unit) raises = .error e := by
  simp [result, perform, h]

variable {p : Attempt S E α} {f : α → Attempt S E β}

theorem trace_bind_ok {a : α} (h : p.result raises = .ok a) :
    trace (p >>= f) raises = p.trace raises ++ (f a).trace raises := by
  show (Attempt.bind p f raises).1 = _
  simp only [Attempt.bind, h]

theorem result_bind_ok {a : α} (h : p.result raises = .ok a) :
    result (p >>= f) raises = (f a).result raises := by
  show (Attempt.bind p f raises).2 = _
  simp only [Attempt.bind, h]

theorem trace_bind_error {e : E} (h : p.result raises = .error e) :
    trace (p >>= f) raises = p.trace raises := by
  show (Attempt.bind p f raises).1 = _
  simp only [Attempt.bind, h]

theorem result_bind_error {e : E} (h : p.result raises = .error e) :
    result (p >>= f) raises = .error e := by
  show (Attempt.bind p f raises).2 = _
  simp only [Attempt.bind, h]

/-- A step, and what comes behind it if it does not raise. -/
theorem trace_perform_bind (s : S) (f : Unit → Attempt S E β) :
    trace (perform s >>= f) raises =
      s :: match raises s with
        | none => (f ()).trace raises
        | some _ => [] := by
  cases h : raises s with
  | none => exact trace_bind_ok raises (result_perform raises h)
  | some e => exact trace_bind_error raises (result_perform_error raises h)

theorem result_perform_bind (s : S) (f : Unit → Attempt S E β) :
    result (perform s >>= f) raises =
      match raises s with
      | none => (f ()).result raises
      | some e => .error e := by
  cases h : raises s with
  | none => exact result_bind_ok raises (result_perform raises h)
  | some e => exact result_bind_error raises (result_perform_error raises h)

/-- What the first part attempts, the whole attempts. -/
theorem mem_trace_bind {s : S} (h : s ∈ p.trace raises) : s ∈ trace (p >>= f) raises := by
  cases hp : p.result raises with
  | error e => exact (trace_bind_error raises hp).symm ▸ h
  | ok a => exact (trace_bind_ok raises hp).symm ▸ List.mem_append_left _ h

theorem mem_trace_bind_right {a : α} {s : S} (hp : p.result raises = .ok a)
    (h : s ∈ (f a).trace raises) :
    s ∈ trace (p >>= f) raises :=
  (trace_bind_ok raises hp).symm ▸ List.mem_append_right _ h

@[simp] theorem trace_caught (p : Attempt S E α) (handler : E → α) :
    trace (p.caught handler) raises = p.trace raises := rfl

/-- Nothing gets past an `except Exception`. -/
@[simp] theorem result_caught (p : Attempt S E α) (handler : E → α) :
    result (p.caught handler) raises = .ok (recovered handler (p.result raises)) := rfl

/-- A loop whose iterations all end well does every one of them. -/
theorem each_ok {g : α → β} {l : List α} (h : ∀ a ∈ l, (f a).result raises = .ok (g a)) :
    result (each f l) raises = .ok (l.map g) ∧
      trace (each f l) raises = l.flatMap fun a => (f a).trace raises := by
  induction l with
  | nil => exact ⟨rfl, rfl⟩
  | cons a rest ih =>
    obtain ⟨hresult, htrace⟩ := ih fun b hb => h b (List.mem_cons_of_mem a hb)
    have ha := h a List.mem_cons_self
    simp only [each]
    rw [result_bind_ok raises ha, trace_bind_ok raises ha, result_bind_ok raises hresult,
      trace_bind_ok raises hresult]
    simp [htrace]

/-- A loop that performs a step for some of its items gets as far as the first step that
raises. -/
theorem done_each_when (when : α → Bool) (s : α → S) (l : List α) :
    done (each (fun a => if when a then perform (s a) else pure ()) l) raises =
      ((l.filter when).map s).takeWhile fun t => (raises t).isNone := by
  unfold done
  induction l with
  | nil => rfl
  | cons a rest ih =>
    -- what the rest of the loop adds
    have hrest : ∀ b : Unit, trace (do
        let bs ← each (fun a => if when a then perform (s a) else pure ()) rest
        pure (b :: bs)) raises =
        trace (each (fun a => if when a then perform (s a) else pure ()) rest) raises := by
      intro b
      cases hresult : (each (fun a => if when a then perform (s a) else pure ()) rest).result
        raises with
      | error e => exact trace_bind_error raises hresult
      | ok bs => rw [trace_bind_ok raises hresult, trace_pure, List.append_nil]
    unfold each
    cases hwhen : when a with
    | false =>
      rw [if_neg Bool.false_ne_true, trace_bind_ok raises (result_pure raises ()), hrest,
        List.filter_cons_of_neg (by simp [hwhen]), trace_pure, List.nil_append]
      exact ih
    | true =>
      rw [if_pos rfl, trace_perform_bind, List.filter_cons_of_pos hwhen, List.map_cons,
        List.takeWhile_cons]
      cases hraises : raises (s a) with
      | some e => simp [hraises]
      | none =>
        simp only [hraises, hrest, Option.isNone_none, List.filter_cons_of_pos, if_true]
        rw [ih]

end

/-! ## Which steps a program can attempt -/

/-- Whatever raises, the program attempts steps of this kind and no others. -/
def Only (P : S → Prop) (p : Attempt S E α) : Prop :=
  ∀ raises, ∀ s ∈ p.trace raises, P s

section

variable {P : S → Prop}

theorem only_pure (a : α) : Only P (pure a : Attempt S E α) := by
  intro raises s hs
  cases hs

theorem only_perform {s : S} (h : P s) : Only P (perform s : Attempt S E Unit) := by
  intro raises t ht
  cases List.mem_singleton.mp ht
  exact h

theorem only_bind {p : Attempt S E α} {f : α → Attempt S E β} (hp : Only P p)
    (hf : ∀ a, Only P (f a)) : Only P (p >>= f) := by
  intro raises s hs
  cases hresult : p.result raises with
  | error e =>
    rw [trace_bind_error raises hresult] at hs
    exact hp raises s hs
  | ok a =>
    rw [trace_bind_ok raises hresult] at hs
    cases List.mem_append.mp hs with
    | inl hs => exact hp raises s hs
    | inr hs => exact hf a raises s hs

theorem only_caught {p : Attempt S E α} (handler : E → α) (hp : Only P p) :
    Only P (p.caught handler) := hp

end

/-! ## What a program can return -/

/-- Whatever raises, what the program returns, if it returns, is of this kind. -/
def Returns (Q : α → Prop) (p : Attempt S E α) : Prop :=
  ∀ raises a, p.result raises = .ok a → Q a

theorem returns_pure {Q : α → Prop} {a : α} (h : Q a) :
    Returns Q (pure a : Attempt S E α) := by
  intro raises b hb
  cases hb
  exact h

theorem returns_bind {Q : β → Prop} {p : Attempt S E α} {f : α → Attempt S E β}
    (hf : ∀ a, Returns Q (f a)) : Returns Q (p >>= f) := by
  intro raises b hb
  cases hresult : p.result raises with
  | error e =>
    rw [result_bind_error raises hresult] at hb
    cases hb
  | ok a =>
    rw [result_bind_ok raises hresult] at hb
    exact hf a raises b hb

theorem returns_caught {Q : α → Prop} {p : Attempt S E α} {handler : E → α} (hp : Returns Q p)
    (hhandler : ∀ e, Q (handler e)) (raises : S → Option E) :
    Q (recovered handler (p.result raises)) := by
  cases hresult : p.result raises with
  | ok a => exact hp raises a hresult
  | error e => exact hhandler e

end Attempt

end IotSaas.Lib
