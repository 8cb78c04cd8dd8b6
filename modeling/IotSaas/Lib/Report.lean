import Mathlib.Data.List.Basic

/-!
# `Lib/Report.lean` — validators that report by field path

A validator walks a form and writes down what it finds, errors and warnings, under the path of the
field; it may look at what it has already written. Nothing is ever taken back, so a report that ends
without errors had none at any point — which is how a validator's loops become `∀`s.
-/

set_option autoImplicit false

namespace IotSaas.Lib

/-- Findings in the order they were made; a later one for a path replaces an earlier one. -/
structure Report where
  errors : List (String × String) := []
  warnings : List (String × String) := []
  deriving DecidableEq

namespace Report

def error (r : Report) (path message : String) : Report :=
  { r with errors := r.errors ++ [(path, message)] }

def warn (r : Report) (path message : String) : Report :=
  { r with warnings := r.warnings ++ [(path, message)] }

/-- There is an error for this path already. -/
def has (r : Report) (path : String) : Bool := r.errors.any fun e => e.1 = path

/-- An error where there is a problem. -/
def note (r : Report) (path : String) : Option String → Report
  | none => r
  | some message => r.error path message

/-- No errors. -/
def Clean (r : Report) : Prop := r.errors = []

instance (r : Report) : Decidable r.Clean := inferInstanceAs (Decidable (r.errors = []))

@[simp] theorem not_clean_error (r : Report) (path message : String) :
    ¬(r.error path message).Clean := by
  simp [Clean, error]

@[simp] theorem clean_warn (r : Report) (path message : String) :
    (r.warn path message).Clean ↔ r.Clean := Iff.rfl

@[simp] theorem clean_note (r : Report) (path : String) (problem : Option String) :
    (r.note path problem).Clean ↔ r.Clean ∧ problem = none := by
  cases problem with
  | none => simp [note]
  | some message => simp [note]

theorem has_of_clean {r : Report} (h : r.Clean) (path : String) : r.has path = false := by
  unfold Clean at h
  simp [has, h]

/-! ## Nothing is taken back -/

/-- **A loop is clean when it starts clean and finds nothing at any item.** -/
theorem clean_foldl {α : Type*} {f : Report → α → Report} {P : α → Prop}
    (h : ∀ r a, (f r a).Clean ↔ r.Clean ∧ P a) (items : List α) :
    ∀ r : Report, (items.foldl f r).Clean ↔ r.Clean ∧ ∀ a ∈ items, P a := by
  induction items with
  | nil =>
    intro r
    simp
  | cons a rest ih =>
    intro r
    rw [List.foldl_cons, ih, h, List.forall_mem_cons, and_assoc]

theorem clean_foldl_note {α : Type*} (path : α → String) (problem : α → Option String)
    (items : List α) (r : Report) :
    (items.foldl (fun r a => r.note (path a) (problem a)) r).Clean ↔
      r.Clean ∧ ∀ a ∈ items, problem a = none :=
  clean_foldl (fun r a => clean_note r (path a) (problem a)) items r

end Report
end IotSaas.Lib
