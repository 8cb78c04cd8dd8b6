import Mathlib.Data.List.Perm.Subperm
import Mathlib.Data.List.Nodup
import Mathlib.Data.List.Range

/-!
# `Lib/Fresh.lean` — the first candidate whose key is free

A loop that tries `candidate 0`, `candidate 1`, … until it finds one whose key is not in use ends,
because a list of `n` used keys cannot hold `n + 1` different ones. `firstFree` tries that many and
no more, and `firstFree_not_mem` says that this was enough.
-/

set_option autoImplicit false

namespace IotSaas.Lib

section

variable {α β : Type*} [DecidableEq β]

/-- The candidates the loop can need, in order. -/
def candidates (candidate : Nat → α) (used : List β) : List α :=
  (List.range (used.length + 1)).map candidate

/-- The first candidate whose key is not used. -/
def firstFree (key : α → β) (candidate : Nat → α) (used : List β) : α :=
  ((candidates candidate used).find? fun a => key a ∉ used).getD (candidate 0)

variable {key : α → β} {candidate : Nat → α} {used : List β}

variable (used) in
/-- Not all of them can be in use. -/
theorem exists_free (hinj : ∀ i j, key (candidate i) = key (candidate j) → i = j) :
    ∃ a ∈ candidates candidate used, key a ∉ used := by
  by_contra hall
  have hsub : (List.range (used.length + 1)).map (key ∘ candidate) ⊆ used := by
    intro b hb
    obtain ⟨i, hi, rfl⟩ := List.mem_map.mp hb
    by_contra hfree
    exact hall ⟨candidate i, List.mem_map_of_mem hi, hfree⟩
  have hnodup : ((List.range (used.length + 1)).map (key ∘ candidate)).Nodup :=
    List.Nodup.map (fun i j h => hinj i j h) List.nodup_range
  have hlen := (List.subperm_of_subset hnodup hsub).length_le
  rw [List.length_map, List.length_range] at hlen
  omega

/-- **The loop ends with a free key.** -/
theorem firstFree_not_mem (hinj : ∀ i j, key (candidate i) = key (candidate j) → i = j) :
    key (firstFree key candidate used) ∉ used := by
  obtain ⟨a, ha, hfree⟩ := exists_free used hinj
  unfold firstFree
  cases hfind : (candidates candidate used).find? fun a => key a ∉ used with
  | none =>
    have hnone := List.find?_eq_none.mp hfind a ha
    exact absurd hfree (by simpa using hnone)
  | some b => simpa using List.find?_some hfind

/-- And with one of the candidates. -/
theorem firstFree_eq (key : α → β) (candidate : Nat → α) (used : List β) :
    ∃ i, firstFree key candidate used = candidate i := by
  unfold firstFree
  cases hfind : (candidates candidate used).find? fun a => key a ∉ used with
  | none => exact ⟨0, rfl⟩
  | some b =>
    obtain ⟨i, _, hi⟩ := List.mem_map.mp (List.mem_of_find?_eq_some hfind)
    exact ⟨i, hi.symm⟩

end

end IotSaas.Lib
