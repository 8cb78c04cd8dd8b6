import Mathlib.Data.List.Forall2

/-!
# `Lib/Zipped.lean` — two lists item by item

`List.Forall₂` between a list and what was made of its items: what one side has, the other has a
counterpart of; and `mapM` in `Option` as one way to make it.
-/

set_option autoImplicit false

namespace IotSaas.Lib

/-! ## Counterparts -/

theorem forall₂_join {α β γ : Type} {P : γ → α → Prop} {Q : γ → β → Prop} {R : α → β → Prop}
    (h : ∀ c a b, P c a → Q c b → R a b) {l : List γ} {as : List α} {bs : List β}
    (ha : List.Forall₂ P l as) (hb : List.Forall₂ Q l bs) : List.Forall₂ R as bs := by
  induction ha generalizing bs with
  | nil =>
    cases hb
    exact .nil
  | cons hhead _ ih =>
    cases hb with
    | cons hhead' hrest => exact .cons (h _ _ _ hhead hhead') (ih hrest)

variable {α β : Type}

theorem forall₂_mem {R : α → β → Prop} {as : List α} {bs : List β} (h : List.Forall₂ R as bs)
    {a : α} (ha : a ∈ as) : ∃ b ∈ bs, R a b := by
  induction h with
  | nil => cases ha
  | cons hhead _ ih =>
    rcases List.mem_cons.mp ha with rfl | ha
    · exact ⟨_, List.mem_cons_self, hhead⟩
    · obtain ⟨b, hb, hrel⟩ := ih ha
      exact ⟨b, List.mem_cons_of_mem _ hb, hrel⟩

theorem map_eq_of_forall₂ {α β γ : Type} {P : α → β → Prop} {f : α → γ} {g : β → γ}
    (h : ∀ a b, P a b → f a = g b) {items : List α} {out : List β}
    (hall : List.Forall₂ P items out) : items.map f = out.map g := by
  induction hall with
  | nil => rfl
  | cons hhead _ ih => rw [List.map_cons, List.map_cons, h _ _ hhead, ih]

theorem filterMap_eq_of_forall₂ {α β γ : Type} {R : α → β → Prop} {f : α → Option γ}
    {g : β → Option γ} (h : ∀ a b, R a b → f a = g b) {as : List α} {bs : List β}
    (hall : List.Forall₂ R as bs) : as.filterMap f = bs.filterMap g := by
  induction hall with
  | nil => rfl
  | cons hhead _ ih => rw [List.filterMap_cons, List.filterMap_cons, h _ _ hhead, ih]

/-- What only one side can lose is never longer there. -/
theorem length_filterMap_of_forall₂ {α β γ : Type} {R : α → β → Prop} {f : α → Option γ}
    {g : β → Option γ} (h : ∀ a b, R a b → f a = none → g b = none) {as : List α} {bs : List β}
    (hall : List.Forall₂ R as bs) : (bs.filterMap g).length ≤ (as.filterMap f).length := by
  induction hall with
  | nil => exact Nat.le_refl _
  | @cons a b as bs hhead _ ih =>
    rw [List.filterMap_cons, List.filterMap_cons]
    cases hf : f a with
    | none =>
      rw [h a b hhead hf]
      exact ih
    | some c =>
      cases g b with
      | none => exact Nat.le_succ_of_le ih
      | some d => exact Nat.succ_le_succ ih

/-- **Nothing lost, nothing changed.** Where only one side can lose items, the two lists agree when
the items do, one by one. -/
theorem filterMap_eq_iff_of_forall₂ {α β γ : Type} {R : α → β → Prop} {f : α → Option γ}
    {g : β → Option γ} {P : α → Prop} (hnone : ∀ a b, R a b → f a = none → g b = none)
    (h : ∀ a b, R a b → (f a = g b ↔ P a)) {as : List α} {bs : List β}
    (hall : List.Forall₂ R as bs) : as.filterMap f = bs.filterMap g ↔ ∀ a ∈ as, P a := by
  induction hall with
  | nil => simp
  | @cons a b as bs hhead hrest ih =>
    rw [List.forall_mem_cons, ← h a b hhead, ← ih, List.filterMap_cons, List.filterMap_cons]
    cases hf : f a with
    | none => simp [hnone a b hhead hf]
    | some c =>
      cases hg : g b with
      | some d => simp
      | none =>
        have hlength := length_filterMap_of_forall₂ hnone hrest
        refine iff_of_false ?_ (by simp)
        intro heq
        dsimp only at heq
        rw [← heq, List.length_cons] at hlength
        omega

theorem exists_of_forall₂ {P : α → β → Prop} {items : List α} {out : List β}
    (hall : List.Forall₂ P items out) {b : β} (hb : b ∈ out) : ∃ a ∈ items, P a b :=
  forall₂_mem hall.flip hb

theorem forall_mem_iff_of_forall₂ {R : α → β → Prop} {P : α → Prop} {Q : β → Prop}
    (h : ∀ a b, R a b → (P a ↔ Q b)) {as : List α} {bs : List β} (hall : List.Forall₂ R as bs) :
    (∀ a ∈ as, P a) ↔ ∀ b ∈ bs, Q b := by
  induction hall with
  | nil => simp
  | cons hhead _ ih => rw [List.forall_mem_cons, List.forall_mem_cons, ih, h _ _ hhead]

/-! ## `mapM` -/

/-- There is a result when each item has one. -/
theorem mapM_isSome {f : α → Option β} {l : List α} :
    (∃ out, l.mapM f = some out) ↔ ∀ a ∈ l, (f a).isSome = true := by
  induction l with
  | nil => simp
  | cons a rest ih =>
    rw [List.forall_mem_cons, ← ih, List.mapM_cons]
    cases f a with
    | none => simp
    | some b => cases rest.mapM f <;> simp

theorem forall₂_of_mapM {f : α → Option β} {l : List α} :
    ∀ {out : List β}, l.mapM f = some out → List.Forall₂ (fun a b => f a = some b) l out := by
  induction l with
  | nil =>
    intro out h
    cases h
    exact .nil
  | cons a rest ih =>
    intro out h
    rw [List.mapM_cons] at h
    cases ha : f a with
    | none => simp [ha] at h
    | some b =>
      cases hrest : rest.mapM f with
      | none => simp [ha, hrest] at h
      | some bs =>
        simp only [ha, hrest] at h
        cases h
        exact .cons ha (ih hrest)

theorem mapM_forall₂ {f : α → Option β} {P : α → β → Prop} {items : List α}
    (h : ∀ a ∈ items, ∃ b, f a = some b ∧ P a b) :
    ∃ out, items.mapM f = some out ∧ List.Forall₂ P items out := by
  induction items with
  | nil => exact ⟨[], rfl, .nil⟩
  | cons a rest ih =>
    obtain ⟨⟨b, hb, hP⟩, hrest⟩ := List.forall_mem_cons.mp h
    obtain ⟨out, hout, hall⟩ := ih hrest
    refine ⟨b :: out, ?_, .cons hP hall⟩
    rw [List.mapM_cons, hb, hout]
    rfl

end IotSaas.Lib
