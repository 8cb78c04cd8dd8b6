import Mathlib.Data.List.Basic
import Mathlib.Data.List.Nodup

/-!
# `Lib/Register.lean` — taking keys one after another

A loop hands out keys, or declares names, or claims resources: each item takes some keys and is
refused when it is no good itself or when a key of its is taken already. The loop stops at the first
refusal. Whether it gets to the end is then a statement about the list alone — every item good, no
key twice, none that was taken before (`Registers.run`) — and not about the order of the items.

`Inv` is what a step may rely on; it speaks of the items that are still to come.
-/

set_option autoImplicit false

namespace IotSaas.Lib

universe u

variable {σ α : Type u} {K : Type*} {ε : Type*}

/-- A step that takes the keys of its item, or refuses it. -/
structure Registers (step : σ → α → Except ε σ) (Inv : List α → σ → Prop) (Good : α → Prop)
    (keys : α → List K) (taken : σ → K → Prop) : Prop where
  ok : ∀ a rest s, Inv (a :: rest) s → ((∃ s', step s a = .ok s') ↔
    Good a ∧ (∀ k ∈ keys a, ¬taken s k) ∧ (keys a).Nodup)
  next : ∀ a rest s s', Inv (a :: rest) s → step s a = .ok s' →
    Inv rest s' ∧ ∀ k, taken s' k ↔ taken s k ∨ k ∈ keys a

namespace Registers

variable {step : σ → α → Except ε σ} {Inv : List α → σ → Prop} {Good : α → Prop}
  {keys : α → List K} {taken : σ → K → Prop}

/-- After the loop, the keys of all items are taken. -/
theorem run_next (h : Registers step Inv Good keys taken) {items : List α} :
    ∀ {s s' : σ}, Inv items s → items.foldlM step s = .ok s' →
      Inv [] s' ∧ ∀ k, taken s' k ↔ taken s k ∨ k ∈ items.flatMap keys := by
  induction items with
  | nil =>
    intro s s' hinv hrun
    cases hrun
    exact ⟨hinv, by simp⟩
  | cons a rest ih =>
    intro s s' hinv hrun
    rw [List.foldlM_cons] at hrun
    cases hstep : step s a with
    | error e =>
      rw [hstep] at hrun
      cases hrun
    | ok s₁ =>
      rw [hstep] at hrun
      obtain ⟨hinv₁, htaken₁⟩ := h.next a rest s s₁ hinv hstep
      obtain ⟨hinv', htaken'⟩ := ih hinv₁ hrun
      refine ⟨hinv', fun k => ?_⟩
      rw [htaken', htaken₁, List.flatMap_cons, List.mem_append, or_assoc]

/-- **The loop gets to its end** when every item is good and every key is free and there once. -/
theorem run (h : Registers step Inv Good keys taken) (items : List α) :
    ∀ {s : σ}, Inv items s → ((∃ s', items.foldlM step s = .ok s') ↔
      (∀ a ∈ items, Good a) ∧ (∀ k ∈ items.flatMap keys, ¬taken s k) ∧
        (items.flatMap keys).Nodup) := by
  induction items with
  | nil =>
    intro s _
    exact ⟨fun _ => by simp, fun _ => ⟨s, rfl⟩⟩
  | cons a rest ih =>
    intro s hinv
    rw [List.foldlM_cons, List.forall_mem_cons, List.flatMap_cons]
    cases hstep : step s a with
    | error e =>
      -- refused at this item, and so one of its conditions fails
      have hbad : ¬∃ s', step s a = .ok s' := by
        rw [hstep]
        rintro ⟨_, h⟩
        cases h
      rw [h.ok a rest s hinv] at hbad
      constructor
      · rintro ⟨_, h⟩
        cases h
      · rintro ⟨⟨hgood, _⟩, hfree, hnodup⟩
        exact absurd ⟨hgood, fun k hk => hfree k (List.mem_append_left _ hk),
          (List.nodup_append.mp hnodup).1⟩ hbad
    | ok s₁ =>
      obtain ⟨hgood, hfree, hnodup⟩ := (h.ok a rest s hinv).mp ⟨s₁, hstep⟩
      obtain ⟨hinv₁, htaken⟩ := h.next a rest s s₁ hinv hstep
      show (∃ s', rest.foldlM step s₁ = .ok s') ↔ _
      rw [ih hinv₁, List.nodup_append']
      simp only [htaken, not_or, List.mem_append]
      constructor
      · rintro ⟨hgoods, hfrees, hnodups⟩
        refine ⟨⟨hgood, hgoods⟩, fun k hk => ?_, hnodup, hnodups, fun k hk hk' => ?_⟩
        · exact hk.elim (hfree k) fun hk => (hfrees k hk).1
        · exact (hfrees k hk').2 hk
      · rintro ⟨⟨_, hgoods⟩, hfrees, _, hnodups, hdisjoint⟩
        exact ⟨hgoods, fun k hk => ⟨hfrees k (.inr hk), fun hin => hdisjoint hin hk⟩, hnodups⟩

end Registers

/-- Fewer keys each: still no key twice. -/
theorem nodup_flatMap_mono {β : Type*} {keys keys' : β → List K} {items : List β}
    (h : (items.flatMap keys').Nodup) (hnodup : ∀ a ∈ items, (keys a).Nodup)
    (hsub : ∀ a ∈ items, keys a ⊆ keys' a) : (items.flatMap keys).Nodup := by
  rw [List.nodup_flatMap] at h ⊢
  refine ⟨hnodup, h.2.imp_of_mem fun {a b} ha hb hdisjoint => ?_⟩
  exact fun k hk hk' => hdisjoint (hsub a ha hk) (hsub b hb hk')

end IotSaas.Lib
