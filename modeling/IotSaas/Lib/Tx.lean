import Mathlib.Data.List.Basic

/-!
# `Lib/Tx.lean` — a transaction, and what is left of one that raises

A program over the working copy of a store. It writes as it goes, and what it has written is there
when it raises: only `serve`, which commits the copy at the end and forgets it after an exception,
makes a refused request one that has done nothing. `bind_ok` and its companions take a run that
ended well apart, line by line.
-/

set_option autoImplicit false

namespace IotSaas.Lib

/-- From the working copy to how the program ended and the copy it left. -/
def Tx (σ ε α : Type) := σ → Except ε α × σ

namespace Tx

variable {σ ε α β : Type}

protected def pure (a : α) : Tx σ ε α := fun s => (.ok a, s)

protected def bind (p : Tx σ ε α) (f : α → Tx σ ε β) : Tx σ ε β := fun s =>
  match p s with
  | (.ok a, s') => f a s'
  | (.error e, s') => (.error e, s')

instance : Monad (Tx σ ε) where
  pure := Tx.pure
  bind := Tx.bind

/-- The working copy. -/
def read : Tx σ ε σ := fun s => (.ok s, s)

/-- A statement that writes. -/
def write (f : σ → σ) : Tx σ ε Unit := fun s => (.ok (), f s)

/-- A computation that may raise and writes nothing. -/
def check (x : Except ε α) : Tx σ ε α := fun s => (x, s)

/-- The request around a program: its copy is committed, or forgotten. -/
def serve (p : Tx σ ε α) (s : σ) : Except ε α × σ :=
  match p s with
  | (.ok a, s') => (.ok a, s')
  | (.error e, _) => (.error e, s)

section

variable {p : Tx σ ε α} {f : α → Tx σ ε β} {x : Except ε α} {s s' : σ} {a : α} {b : β} {e : ε}

theorem bind_ok (h : (p >>= f) s = (.ok b, s')) :
    ∃ a s₁, p s = (.ok a, s₁) ∧ f a s₁ = (.ok b, s') := by
  have h' : Tx.bind p f s = (.ok b, s') := h
  unfold Tx.bind at h'
  split at h'
  · rename_i a s₁ hp
    exact ⟨a, s₁, hp, h'⟩
  · cases h'

theorem read_bind (f : σ → Tx σ ε β) (s : σ) : ((read : Tx σ ε σ) >>= f) s = f s s := rfl

theorem write_bind (g : σ → σ) (f : Unit → Tx σ ε β) (s : σ) :
    ((write g : Tx σ ε Unit) >>= f) s = f () (g s) := rfl

/-- Behind a check that did not raise. -/
theorem check_bind_ok (h : ((check x : Tx σ ε α) >>= f) s = (.ok b, s')) :
    ∃ a, x = .ok a ∧ f a s = (.ok b, s') := by
  obtain ⟨a, s₁, hx, h⟩ := bind_ok h
  cases hx
  exact ⟨a, rfl, h⟩

/-- **A request that is refused has done nothing.** -/
theorem serve_error (h : (serve p s).1 = .error e) : (serve p s).2 = s := by
  unfold serve at h ⊢
  split
  · rename_i hp
    rw [hp] at h
    cases h
  · rfl

/-- A request that is answered has done what its program did. -/
theorem serve_ok (h : (serve p s).1 = .ok a) : p s = (.ok a, (serve p s).2) := by
  unfold serve at h ⊢
  split
  · rename_i hp
    rw [hp] at h
    cases h
    exact hp
  · rename_i hp
    rw [hp] at h
    cases h

/-- Either way. -/
theorem serve_cases (p : Tx σ ε α) (s : σ) :
    (∃ e, (serve p s).1 = .error e ∧ (serve p s).2 = s) ∨
      ∃ a, p s = (.ok a, (serve p s).2) := by
  cases h : (serve p s).1 with
  | error e => exact .inl ⟨e, rfl, serve_error h⟩
  | ok a => exact .inr ⟨a, serve_ok h⟩

end

end Tx

end IotSaas.Lib
