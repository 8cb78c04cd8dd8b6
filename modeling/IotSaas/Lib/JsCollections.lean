import Mathlib.Data.List.Nodup

/-!
# `Lib/JsCollections.lean` — maps and sets that remember an order

JavaScript's `Map` and `Set` as its specification describes them: what is added goes to the end, and
a key that is set again stays where it is. A set may change while a loop goes through it. What is
deleted leaves a hole, so that the loop's index stays good, and what is added meanwhile is met.
-/

set_option autoImplicit false

namespace IotSaas.Lib

/-! ## Maps -/

/-- A `Map`. -/
structure JsMap (K V : Type*) where
  items : List (K × V)
  nodup : (items.map Prod.fst).Nodup

namespace JsMap

variable {K V : Type*} [DecidableEq K]

def empty : JsMap K V := ⟨[], List.nodup_nil⟩

def get (m : JsMap K V) (k : K) : Option V :=
  (m.items.find? fun item => item.1 = k).map Prod.snd

variable {m : JsMap K V}

theorem mem_of_get {k : K} {v : V} (h : m.get k = some v) : (k, v) ∈ m.items := by
  obtain ⟨item, hfind, rfl⟩ := Option.map_eq_some_iff.mp h
  have hkey := List.find?_some hfind
  rw [decide_eq_true_eq] at hkey
  rw [← hkey]
  exact List.mem_of_find?_eq_some hfind

theorem get_of_mem {k : K} {v : V} (h : (k, v) ∈ m.items) : m.get k = some v := by
  have hsome : (m.items.find? fun item => item.1 = k).isSome = true :=
    List.find?_isSome.mpr ⟨(k, v), h, by simp⟩
  obtain ⟨item, hfind⟩ := Option.isSome_iff_exists.mp hsome
  have hkey := List.find?_some hfind
  rw [decide_eq_true_eq] at hkey
  have hitem := List.inj_on_of_nodup_map m.nodup (List.mem_of_find?_eq_some hfind) h hkey
  rw [get, hfind, hitem]
  rfl

theorem get_eq_some_iff {k : K} {v : V} :
    m.get k = some v ↔ (k, v) ∈ m.items :=
  ⟨mem_of_get, get_of_mem⟩

/-- Maps with the same items, up to their order, answer alike. -/
theorem get_congr {m m' : JsMap K V} {k k' : K}
    (h : ∀ v, (k, v) ∈ m.items ↔ (k', v) ∈ m'.items) : m.get k = m'.get k' := by
  cases hget : m'.get k' with
  | none =>
    by_contra hne
    obtain ⟨v, hv⟩ := Option.ne_none_iff_exists'.mp hne
    rw [get_of_mem ((h v).mp (mem_of_get hv))] at hget
    cases hget
  | some v => exact get_of_mem ((h v).mpr (mem_of_get hget))

@[simp] theorem get_empty (k : K) : (empty : JsMap K V).get k = none := rfl

/-- A key is found once. -/
theorem filter_key (m : JsMap K V) (k : K) :
    m.items.filter (fun item => item.1 = k) = ((m.get k).map fun v => (k, v)).toList := by
  obtain ⟨items, hnodup⟩ := m
  unfold get
  dsimp only
  induction items with
  | nil => rfl
  | cons item rest ih =>
    obtain ⟨hnot, hrest⟩ := List.nodup_cons.mp hnodup
    by_cases hk : item.1 = k
    · have hnone : rest.filter (fun item => item.1 = k) = [] := by
        rw [List.filter_eq_nil_iff]
        intro other hother heq
        rw [decide_eq_true_eq] at heq
        exact hnot (by rw [hk, ← heq]; exact List.mem_map_of_mem hother)
      rw [List.filter_cons_of_pos (by simpa using hk), hnone,
        List.find?_cons_of_pos (by simpa using hk)]
      simp [← hk]
    · rw [List.filter_cons_of_neg (by simpa using hk), List.find?_cons_of_neg (by simpa using hk)]
      exact ih hrest

/-- `map.set(k, v)`. -/
def set (m : JsMap K V) (k : K) (v : V) : JsMap K V where
  items :=
    if k ∈ m.items.map Prod.fst then
      m.items.map fun item => if item.1 = k then (k, v) else item
    else m.items ++ [(k, v)]
  nodup := by
    split
    · have hkeys : (m.items.map fun item => if item.1 = k then (k, v) else item).map Prod.fst =
          m.items.map Prod.fst := by
        rw [List.map_map]
        apply List.map_congr_left
        intro item _
        by_cases hk : item.1 = k <;> simp [hk]
      rw [hkeys]
      exact m.nodup
    · rename_i hfresh
      rw [List.map_append]
      refine List.nodup_append.mpr ⟨m.nodup, List.nodup_singleton _, ?_⟩
      intro a ha b hb heq
      rw [List.map_singleton, List.mem_singleton] at hb
      rw [heq, hb] at ha
      exact hfresh ha

theorem mem_set {k k' : K} {v w : V} :
    (k', w) ∈ (m.set k v).items ↔ if k' = k then w = v else (k', w) ∈ m.items := by
  unfold set
  dsimp only
  split
  · rename_i hmem
    rw [List.mem_map]
    constructor
    · intro ⟨item, hitem, heq⟩
      by_cases hk : item.1 = k
      · rw [if_pos hk, Prod.mk.injEq] at heq
        rw [if_pos heq.1.symm, heq.2]
      · rw [if_neg hk] at heq
        subst heq
        rw [if_neg hk]
        exact hitem
    · intro h
      by_cases hk : k' = k
      · rw [if_pos hk] at h
        obtain ⟨item, hitem, hkey⟩ := List.mem_map.mp hmem
        exact ⟨item, hitem, by rw [if_pos hkey, hk, h]⟩
      · rw [if_neg hk] at h
        exact ⟨(k', w), h, if_neg hk⟩
  · rename_i hfresh
    rw [List.mem_append, List.mem_singleton, Prod.mk.injEq]
    by_cases hk : k' = k
    · have hnot : (k', w) ∉ m.items := by
        intro hitem
        exact hfresh (hk ▸ List.mem_map_of_mem hitem)
      simp [hk, hk ▸ hnot]
    · simp [hk]

theorem get_set (m : JsMap K V) (k k' : K) (v : V) :
    (m.set k v).get k' = if k' = k then some v else m.get k' := by
  by_cases hk : k' = k
  · rw [if_pos hk]
    exact get_of_mem (mem_set.mpr (by rw [if_pos hk]))
  · rw [if_neg hk]
    apply get_congr
    intro w
    rw [mem_set, if_neg hk]

@[simp] theorem get_set_self (m : JsMap K V) (k : K) (v : V) : (m.set k v).get k = some v := by
  rw [get_set, if_pos rfl]

theorem get_set_ne (m : JsMap K V) {k k' : K} (v : V) (h : k' ≠ k) :
    (m.set k v).get k' = m.get k' := by
  rw [get_set, if_neg h]

/-- A new key comes last. -/
theorem items_set_of_fresh {k : K} (v : V) (h : k ∉ m.items.map Prod.fst) :
    (m.set k v).items = m.items ++ [(k, v)] := if_neg h

/-- No two keys have one value. -/
theorem injective_iff (m : JsMap K V) :
    (∀ k k' v, m.get k = some v → m.get k' = some v → k = k') ↔
      (m.items.map Prod.snd).Nodup := by
  constructor
  · intro h
    apply m.nodup.of_map.map_on
    intro x hx y hy hxy
    obtain ⟨k, v⟩ := x
    obtain ⟨k', v'⟩ := y
    obtain rfl : v = v' := hxy
    rw [h k k' v (get_of_mem hx) (get_of_mem hy)]
  · intro h k k' v hk hk'
    have heq := List.inj_on_of_nodup_map h (mem_of_get hk) (mem_of_get hk') rfl
    exact congrArg Prod.fst heq

/-- `map.delete(k)`. -/
def erase (m : JsMap K V) (k : K) : JsMap K V where
  items := m.items.filter fun item => item.1 ≠ k
  nodup := m.nodup.sublist (List.filter_sublist.map Prod.fst)

theorem get_erase (m : JsMap K V) (k k' : K) :
    (m.erase k).get k' = if k' = k then none else m.get k' := by
  by_cases hk : k' = k
  · rw [if_pos hk]
    by_contra hne
    obtain ⟨v, hv⟩ := Option.ne_none_iff_exists'.mp hne
    have hmem := mem_of_get hv
    simp [erase, hk] at hmem
  · rw [if_neg hk]
    apply get_congr
    intro v
    simp [erase, hk]

end JsMap

/-! ## Sets -/

/-- A `Set`, with holes where something was deleted. -/
structure JsSet (α : Type*) where
  entries : List (Option α)
  distinct : ∀ (i j : Nat) (a : α), entries[i]? = some (some a) → entries[j]? = some (some a) → i = j

namespace JsSet

variable {α : Type*}

def empty : JsSet α := ⟨[], fun i j a hi => by simp at hi⟩

/-- `a` stands at `i`. -/
def At (s : JsSet α) (i : Nat) (a : α) : Prop := s.entries[i]? = some (some a)

def mem (s : JsSet α) (a : α) : Prop := some a ∈ s.entries

variable {s : JsSet α}

theorem mem_iff {a : α} : s.mem a ↔ ∃ i, s.At i a := List.mem_iff_getElem?

theorem At.inj {i j : Nat} {a : α} (hi : s.At i a) (hj : s.At j a) : i = j :=
  s.distinct i j a hi hj

theorem At.eq {i : Nat} {a b : α} (ha : s.At i a) (hb : s.At i b) : a = b :=
  Option.some.inj (Option.some.inj (ha.symm.trans hb))

theorem not_at_empty (i : Nat) (a : α) : ¬(empty : JsSet α).At i a := by
  intro h
  simp [At, empty] at h

/-- `set.size`. -/
def size (s : JsSet α) : Nat := s.entries.countP Option.isSome

theorem size_eq_zero_iff : s.size = 0 ↔ ∀ i a, ¬s.At i a := by
  rw [size, List.countP_eq_zero]
  constructor
  · intro h i a hat
    exact h _ (List.mem_of_getElem? hat) rfl
  · intro h entry hentry hsome
    obtain ⟨a, rfl⟩ := Option.isSome_iff_exists.mp hsome
    obtain ⟨i, hi⟩ := List.mem_iff_getElem?.mp hentry
    exact h i a hi

section

variable [DecidableEq α]

instance (s : JsSet α) (a : α) : Decidable (s.mem a) :=
  inferInstanceAs (Decidable (some a ∈ s.entries))

/-- `set.add(a)`. -/
def add (s : JsSet α) (a : α) : JsSet α :=
  if h : s.mem a then s
  else
    { entries := s.entries ++ [some a]
      distinct := by
        have hold : ∀ (i : Nat) (b : α), (s.entries ++ [some a])[i]? = some (some b) →
            s.entries[i]? = some (some b) ∧ b ≠ a ∨ i = s.entries.length ∧ b = a := by
          intro i b hi
          rcases Nat.lt_or_ge i s.entries.length with hlt | hge
          · rw [List.getElem?_append_left hlt] at hi
            refine .inl ⟨hi, fun heq => h ?_⟩
            exact heq ▸ List.mem_of_getElem? hi
          · rw [List.getElem?_append_right hge] at hi
            have hzero : i - s.entries.length = 0 := by
              by_contra hne
              rw [List.getElem?_eq_none (by simp; omega)] at hi
              cases hi
            rw [hzero] at hi
            exact .inr ⟨by omega, (Option.some.inj (Option.some.inj hi)).symm⟩
        intro i j b hi hj
        rcases hold i b hi with ⟨hi', hne⟩ | ⟨hi', heq⟩
        · rcases hold j b hj with ⟨hj', -⟩ | ⟨-, heq'⟩
          · exact s.distinct i j b hi' hj'
          · exact absurd heq' hne
        · rcases hold j b hj with ⟨-, hne'⟩ | ⟨hj', -⟩
          · exact absurd heq hne'
          · rw [hi', hj'] }

/-- What is there stays where it is. -/
theorem At.add {s : JsSet α} {i : Nat} {a : α} (h : s.At i a) (b : α) : (s.add b).At i a := by
  unfold JsSet.add
  split
  · exact h
  · exact (List.getElem?_append_left (List.getElem?_eq_some_iff.mp h).1).trans h

theorem at_add_of_ne {s : JsSet α} {i : Nat} {a b : α} (hne : a ≠ b) :
    (s.add b).At i a ↔ s.At i a := by
  constructor
  · intro h
    unfold JsSet.add at h
    split at h
    · exact h
    · rcases Nat.lt_or_ge i s.entries.length with hlt | hge
      · exact (List.getElem?_append_left hlt).symm.trans h
      · exfalso
        have hmem : some a ∈ [some b] := by
          have hat : (s.entries ++ [some b])[i]? = some (some a) := h
          rw [List.getElem?_append_right hge] at hat
          exact List.mem_of_getElem? hat
        simp only [List.mem_singleton, Option.some.injEq] at hmem
        exact hne hmem
  · exact fun h => h.add b

theorem mem_add (s : JsSet α) (a : α) : ∃ i, (s.add a).At i a := by
  by_cases h : s.mem a
  · obtain ⟨i, hi⟩ := mem_iff.mp h
    exact ⟨i, hi.add a⟩
  · refine ⟨s.entries.length, ?_⟩
    unfold JsSet.add
    rw [dif_neg h]
    simp [At]

/-- `set.delete(a)`. -/
def delete (s : JsSet α) (a : α) : JsSet α where
  entries := s.entries.map fun entry => if entry = some a then none else entry
  distinct := by
    have hold : ∀ (i : Nat) (b : α),
        (s.entries.map fun entry => if entry = some a then none else entry)[i]? = some (some b) →
          s.entries[i]? = some (some b) := by
      intro i b hi
      rw [List.getElem?_map, Option.map_eq_some_iff] at hi
      obtain ⟨entry, hentry, heq⟩ := hi
      split at heq
      · cases heq
      · rw [hentry, heq]
    intro i j b hi hj
    exact s.distinct i j b (hold i b hi) (hold j b hj)

theorem at_delete {s : JsSet α} {i : Nat} {a b : α} :
    (s.delete a).At i b ↔ s.At i b ∧ b ≠ a := by
  unfold At delete
  dsimp only
  rw [List.getElem?_map, Option.map_eq_some_iff]
  constructor
  · intro ⟨entry, hentry, heq⟩
    split at heq
    · cases heq
    · rename_i hne
      rw [hentry, heq]
      refine ⟨rfl, fun hb => hne ?_⟩
      rw [heq, hb]
  · intro ⟨hi, hne⟩
    refine ⟨some b, hi, if_neg ?_⟩
    simpa using hne

end

/-! ### Going through a set -/

def nextIn : List (Option α) → Nat → Option (α × Nat)
  | [], _ => none
  | none :: rest, i => nextIn rest (i + 1)
  | some a :: _, i => some (a, i + 1)

/-- What a loop that stands before entry `i` meets next, and where it stands then. -/
def next (s : JsSet α) (i : Nat) : Option (α × Nat) := nextIn (s.entries.drop i) i

theorem nextIn_spec (entries : List (Option α)) (i : Nat) :
    match nextIn entries i with
    | none => ∀ (k : Nat) (a : α), entries[k]? ≠ some (some a)
    | some (a, j) => ∃ k : Nat, j = i + k + 1 ∧ entries[k]? = some (some a) ∧
        ∀ l < k, ∀ b, entries[l]? ≠ some (some b) := by
  induction entries generalizing i with
  | nil => simp [nextIn]
  | cons entry rest ih =>
    cases entry with
    | some a => exact ⟨0, rfl, rfl, by simp⟩
    | none =>
      have hrest := ih (i + 1)
      unfold nextIn
      cases hnext : nextIn rest (i + 1) with
      | none =>
        rw [hnext] at hrest
        intro k a
        cases k with
        | zero => simp
        | succ k => simpa using hrest k a
      | some found =>
        rw [hnext] at hrest
        obtain ⟨k, hj, hk, hfirst⟩ := hrest
        refine ⟨k + 1, by omega, by simpa using hk, ?_⟩
        intro l hl b
        cases l with
        | zero => simp
        | succ l => simpa using hfirst l (by omega) b

/-- The loop is done: nothing stands behind it. -/
theorem not_at_of_next_eq_none {i : Nat} (h : s.next i = none) {k : Nat} {a : α} (hk : i ≤ k) :
    ¬s.At k a := by
  have hspec := nextIn_spec (s.entries.drop i) i
  rw [next] at h
  rw [h] at hspec
  intro hat
  apply hspec (k - i) a
  rw [List.getElem?_drop, Nat.add_sub_cancel' hk]
  exact hat

/-- The loop meets the first that stands behind it. -/
theorem at_of_next {i j : Nat} {a : α} (h : s.next i = some (a, j)) :
    ∃ k, j = k + 1 ∧ i ≤ k ∧ s.At k a ∧ ∀ l b, i ≤ l → s.At l b → k ≤ l := by
  have hspec := nextIn_spec (s.entries.drop i) i
  rw [next] at h
  rw [h] at hspec
  obtain ⟨k, hj, hk, hfirst⟩ := hspec
  rw [List.getElem?_drop] at hk
  refine ⟨i + k, hj, Nat.le_add_right i k, hk, ?_⟩
  intro l b hl hat
  by_contra hlt
  apply hfirst (l - i) (by omega) b
  rw [List.getElem?_drop, Nat.add_sub_cancel' hl]
  exact hat

end JsSet

end IotSaas.Lib
