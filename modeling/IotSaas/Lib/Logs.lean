import Mathlib.Data.List.Induction

/-!
# `Lib/Logs.lean` — what holds of every entry of a log, given those before it

`Every P log` says that `P before entry` holds wherever the log can be cut in `before`, `entry` and
the rest. A log grows at its end, so one entry is checked at a time (`Every.snoc`).
-/

set_option autoImplicit false

namespace IotSaas.Lib

variable {ε : Type*} {P : List ε → ε → Prop} {log : List ε}

def Every (P : List ε → ε → Prop) (log : List ε) : Prop :=
  ∀ before entry after, log = before ++ entry :: after → P before entry

theorem every_nil : Every P [] := by
  intro before entry after h
  simp at h

/-- A cut of a log that has grown by one entry. -/
theorem cut_snoc {before after : List ε} {e entry : ε} (h : log ++ [entry] = before ++ e :: after) :
    after = [] ∧ before = log ∧ e = entry ∨
      ∃ after', after = after' ++ [entry] ∧ log = before ++ e :: after' := by
  cases after using List.reverseRecOn with
  | nil =>
    obtain ⟨rfl, hlast⟩ := List.append_inj' h rfl
    rw [List.singleton_inj] at hlast
    exact .inl ⟨rfl, rfl, hlast.symm⟩
  | append_singleton after last =>
    rw [← List.cons_append, ← List.append_assoc] at h
    obtain ⟨hlog, hlast⟩ := List.append_inj' h rfl
    rw [List.singleton_inj] at hlast
    exact .inr ⟨after, by rw [hlast], hlog⟩

theorem Every.snoc (h : Every P log) {entry : ε} (hentry : P log entry) :
    Every P (log ++ [entry]) := by
  intro before e after heq
  obtain ⟨rfl, rfl, rfl⟩ | ⟨after', -, hlog⟩ := cut_snoc heq
  · exact hentry
  · exact h before e after' hlog

end IotSaas.Lib
