import IotSaas.Lib.Dict
import Mathlib.Data.List.Dedup
import Mathlib.Data.List.Nodup
import Mathlib.Data.List.Perm.Subperm

/-!
# `Lib/ReadCommitted.lean` — one table under concurrent transactions

What a statement of a transaction sees and does at the isolation level READ COMMITTED: the rows that
are committed when it starts, with the transaction's own writes on top. A row that was written is
locked until its writer ends; another writer waits for that, and then works on what was left. A
statement over many rows picks them when it starts (`snapshot`) and writes them one by one, each
only if it still qualifies: a row that appears in between is not among them.

A `Table` keeps one version of each row as committed and at most one on top of it, with its writer.
Committing makes the writer's view of the table the committed one (`commit_committed`), so what a
transaction has done to the others is said by what it saw at its end.
-/

set_option autoImplicit false
set_option linter.unusedSectionVars false

namespace IotSaas.Lib

/-- A table of rows under keys, written by transactions `T`. -/
structure Table (K V T : Type) where
  /-- Every key that was ever written. -/
  keys : List K := []
  committed : Dict K V := .empty
  /-- The uncommitted version of a row and who wrote it; `none` is a deletion. -/
  pending : Dict K (T × Option V) := .empty
  nodup : keys.Nodup := by exact List.nodup_nil
  known : ∀ k, committed.get k ≠ none ∨ pending.get k ≠ none → k ∈ keys := by simp

namespace Table

variable {K V T : Type} [DecidableEq K] [DecidableEq T] {s : Table K V T} {t u : T} {k k' : K}

/-- The row under `k`, as `t` sees it. -/
def view (s : Table K V T) (t : T) (k : K) : Option V :=
  match s.pending.get k with
  | none => s.committed.get k
  | some (writer, version) => if writer = t then version else s.committed.get k

/-- No other transaction has the lock on the row under `k`. -/
def free (s : Table K V T) (t : T) (k : K) : Bool :=
  match s.pending.get k with
  | none => true
  | some (writer, _) => decide (writer = t)

/-- `t` writes the row under `k`, or deletes it. -/
def write (s : Table K V T) (t : T) (k : K) (version : Option V) : Table K V T where
  keys := if k ∈ s.keys then s.keys else s.keys ++ [k]
  committed := s.committed
  pending := s.pending.set k (t, version)
  nodup := by
    split
    · exact s.nodup
    · rename_i hnew
      exact List.nodup_append.mpr ⟨s.nodup, List.nodup_singleton k, fun a ha b hb hab =>
        hnew (List.mem_singleton.mp hb ▸ hab ▸ ha)⟩
  known := by
    intro k' hk'
    have hmem : k' ∈ s.keys ∨ k' = k := by
      by_cases heq : k' = k
      · exact .inr heq
      · rw [Dict.get_set_ne _ _ heq] at hk'
        exact .inl (s.known k' hk')
    split
    · rename_i hold
      rcases hmem with h | rfl
      · exact h
      · exact hold
    · rcases hmem with h | rfl
      · exact List.mem_append_left _ h
      · exact List.mem_append_right _ (List.mem_singleton_self _)

/-- The locks of the others. -/
def released (s : Table K V T) (t : T) : Dict K (T × Option V) :=
  ⟨fun k => (s.pending.get k).filter fun lock => lock.1 ≠ t⟩

variable {version : Option V}

theorem released_get {w : T} :
    (s.released t).get k = some (w, version) ↔ s.pending.get k = some (w, version) ∧ w ≠ t := by
  simp [released, Option.filter_eq_some_iff]

theorem known_released (hk : (s.released t).get k ≠ none) : k ∈ s.keys := by
  obtain ⟨⟨w, version⟩, hlock⟩ := Option.ne_none_iff_exists'.mp hk
  refine s.known k (.inr ?_)
  rw [(released_get.mp hlock).1]
  exact Option.some_ne_none _

theorem known_view (hk : s.view t k ≠ none) : k ∈ s.keys := by
  refine s.known k ?_
  unfold view at hk
  split at hk
  · exact .inl hk
  · rename_i hlock
    exact .inr (by rw [hlock]; exact Option.some_ne_none _)

/-- What `t` wrote becomes what is committed. -/
def commit (s : Table K V T) (t : T) : Table K V T where
  keys := s.keys
  committed := ⟨s.view t⟩
  pending := s.released t
  nodup := s.nodup
  known := fun _ hk => hk.elim known_view known_released

/-- What `t` wrote is forgotten. -/
def abort (s : Table K V T) (t : T) : Table K V T where
  keys := s.keys
  committed := s.committed
  pending := s.released t
  nodup := s.nodup
  known := fun k hk => hk.elim (fun h => s.known k (.inl h)) known_released

/-- The table of some stored rows, nothing being written. -/
def ofRows (rows : List (K × V)) : Table K V T where
  keys := (rows.map Prod.fst).dedup
  committed := .ofList rows
  nodup := List.nodup_dedup _
  known := by
    intro k hk
    rw [List.mem_dedup]
    rcases hk with hk | hk
    · by_contra hnew
      exact hk (Dict.get_ofList_eq_none hnew)
    · exact absurd rfl hk

@[simp] theorem ofRows_pending (rows : List (K × V)) :
    (ofRows rows : Table K V T).pending.get k = none := rfl

/-! ## What is seen -/

theorem view_of_pending (h : s.pending.get k = some (t, version)) :
    s.view t k = version := by
  simp [view, h]

theorem view_of_pending_ne {w : T} (h : s.pending.get k = some (w, version)) (hne : w ≠ t) :
    s.view t k = s.committed.get k := by
  simp [view, h, hne]

theorem view_of_pending_none (h : s.pending.get k = none) : s.view t k = s.committed.get k := by
  simp [view, h]

/-- A transaction without a lock on a row sees what is committed. -/
theorem view_eq_committed (h : ∀ version, s.pending.get k ≠ some (t, version)) :
    s.view t k = s.committed.get k := by
  cases hlock : s.pending.get k with
  | none => exact view_of_pending_none hlock
  | some lock =>
    obtain ⟨w, version⟩ := lock
    refine view_of_pending_ne hlock fun heq => ?_
    subst heq
    exact h version hlock

/-- What `t` sees of a row depends on what is committed there and on what it wrote there itself. -/
theorem view_congr {s s' : Table K V T} (hc : s'.committed.get k = s.committed.get k)
    (hp : ∀ version, s'.pending.get k = some (t, version) ↔ s.pending.get k = some (t, version)) :
    s'.view t k = s.view t k := by
  by_cases hlock : ∃ version, s.pending.get k = some (t, version)
  · obtain ⟨version, hlock⟩ := hlock
    rw [view_of_pending hlock, view_of_pending ((hp version).mpr hlock)]
  · have hnone : ∀ version, s.pending.get k ≠ some (t, version) :=
      fun version h => hlock ⟨version, h⟩
    rw [view_eq_committed hnone, view_eq_committed fun version h => hnone version ((hp version).mp h),
      hc]

theorem free_iff : s.free t k = true ↔ ∀ w version, s.pending.get k = some (w, version) → w = t := by
  unfold free
  cases hlock : s.pending.get k with
  | none => simp
  | some lock =>
    obtain ⟨w, version⟩ := lock
    simp

/-! ## Writing -/

section

variable {version : Option V}

@[simp] theorem write_committed : (s.write t k version).committed = s.committed := rfl

@[simp] theorem write_pending_self :
    (s.write t k version).pending.get k = some (t, version) := by
  simp [write]

theorem write_pending_ne (h : k' ≠ k) :
    (s.write t k version).pending.get k' = s.pending.get k' :=
  Dict.get_set_ne _ _ h

theorem write_pending : (s.write t k version).pending.get k' =
    if k' = k then some (t, version) else s.pending.get k' := rfl

theorem view_write_self : (s.write t k version).view t k = version :=
  view_of_pending write_pending_self

end

/-! ## Ending -/

@[simp] theorem commit_committed : (s.commit t).committed.get k = s.view t k := rfl

@[simp] theorem abort_committed : (s.abort t).committed = s.committed := rfl

theorem commit_pending {w : T} :
    (s.commit t).pending.get k = some (w, version) ↔
      s.pending.get k = some (w, version) ∧ w ≠ t :=
  released_get

theorem abort_pending {w : T} :
    (s.abort t).pending.get k = some (w, version) ↔
      s.pending.get k = some (w, version) ∧ w ≠ t :=
  released_get

/-- A row that `t` has no lock on stays as it is. -/
theorem commit_of_not_pending (h : ∀ version, s.pending.get k ≠ some (t, version)) :
    (s.commit t).committed.get k = s.committed.get k :=
  view_eq_committed h

/-! ## What a transaction leaves alone -/

/-- `b` is `a` but for what `t` has written or given up, nothing of it committed. -/
structure Local (t : T) (a b : Table K V T) : Prop where
  committed : b.committed = a.committed
  keys : ∀ k ∈ a.keys, k ∈ b.keys
  locks : ∀ k u version, u ≠ t →
    (b.pending.get k = some (u, version) ↔ a.pending.get k = some (u, version))

theorem Local.refl (t : T) (s : Table K V T) : Local t s s :=
  ⟨rfl, fun _ h => h, fun _ _ _ _ => Iff.rfl⟩

theorem Local.abort (t : T) (s : Table K V T) : Local t s (s.abort t) :=
  ⟨rfl, fun _ h => h, fun _ _ _ hu => abort_pending.trans ⟨And.left, fun h => ⟨h, hu⟩⟩⟩

theorem mem_write_keys (h : k' ∈ s.keys) :
    k' ∈ (s.write t k version).keys := by
  show k' ∈ if k ∈ s.keys then s.keys else s.keys ++ [k]
  split
  · exact h
  · exact List.mem_append_left _ h

theorem Local.write (hfree : s.free t k = true) :
    Local t s (s.write t k version) := by
  refine ⟨rfl, fun _ => mem_write_keys, fun k' u version' hu => ?_⟩
  by_cases hk : k' = k
  · subst hk
    constructor
    · intro hlock
      rw [write_pending_self] at hlock
      cases hlock
      exact absurd rfl hu
    · intro hlock
      exact absurd (free_iff.mp hfree u version' hlock) hu
  · rw [write_pending_ne hk]

/-! ## Statements over many rows -/

/-- The rows that qualify when a statement starts. -/
def snapshot (s : Table K V T) (t : T) (p : K → V → Bool) : List K :=
  s.keys.filter fun k => (s.view t k).any (p k)

theorem mem_snapshot {p : K → V → Bool} :
    k ∈ s.snapshot t p ↔ ∃ v, s.view t k = some v ∧ p k v = true := by
  unfold snapshot
  rw [List.mem_filter, Option.any_eq_true]
  constructor
  · rintro ⟨_, h⟩
    exact h
  · rintro ⟨v, hv, hp⟩
    exact ⟨known_view (by rw [hv]; exact Option.some_ne_none _), v, hv, hp⟩

theorem snapshot_nodup (s : Table K V T) (t : T) (p : K → V → Bool) : (s.snapshot t p).Nodup :=
  s.nodup.filter _

/-- Of two rows or more, one is not this one. -/
theorem exists_ne_of_snapshot {p : K → V → Bool} (h : 1 < (s.snapshot t p).length) (k : K) :
    ∃ k' v, k' ≠ k ∧ s.view t k' = some v ∧ p k' v = true := by
  by_contra hall
  have hsub : s.snapshot t p ⊆ [k] := by
    intro k' hk'
    by_contra hne
    obtain ⟨v, hv, hp⟩ := mem_snapshot.mp hk'
    exact hall ⟨k', v, fun heq => hne (List.mem_singleton.mpr heq), hv, hp⟩
  have hlen := (List.subperm_of_subset (s.snapshot_nodup t p) hsub).length_le
  rw [List.length_singleton] at hlen
  omega

end Table

end IotSaas.Lib
