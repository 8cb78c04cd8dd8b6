import Mathlib.Data.List.Basic

/-!
# `Lib/Dict.lean` — dictionaries, as what they answer

A dictionary here is the function a lookup computes. Two dictionaries that answer alike are
equal, iteration order does not exist, and every update is a case distinction on the key — which
is all a proof about lookups ever wants to see.
-/

set_option autoImplicit false

namespace IotSaas.Lib

/-- A dictionary: the value stored under each key, or nothing. -/
@[ext] structure Dict (K V : Type*) where
  get : K → Option V

namespace Dict

variable {K V : Type*}

def empty : Dict K V := ⟨fun _ => none⟩

/-- The stored value, or `v` for a key that has none. -/
def getD (d : Dict K V) (k : K) (v : V) : V := (d.get k).getD v

@[simp] theorem get_empty (k : K) : (empty : Dict K V).get k = none := rfl

@[simp] theorem getD_empty (k : K) (v : V) : (empty : Dict K V).getD k v = v := rfl

theorem getD_of_get {d : Dict K V} {k : K} {v w : V} (h : d.get k = some v) : d.getD k w = v := by
  simp [getD, h]

section

variable [DecidableEq K]

/-- `d[k] = v`. -/
def set (d : Dict K V) (k : K) (v : V) : Dict K V :=
  ⟨fun k' => if k' = k then some v else d.get k'⟩

@[simp] theorem get_set_self (d : Dict K V) (k : K) (v : V) : (d.set k v).get k = some v := by
  simp [set]

theorem get_set_ne (d : Dict K V) {k k' : K} (v : V) (h : k' ≠ k) :
    (d.set k v).get k' = d.get k' := by
  simp [set, h]

theorem get_set (d : Dict K V) (k k' : K) (v : V) :
    (d.set k v).get k' = if k' = k then some v else d.get k' := rfl

/-- `d.pop(k, None)`. -/
def erase (d : Dict K V) (k : K) : Dict K V := ⟨fun k' => if k' = k then none else d.get k'⟩

@[simp] theorem get_erase_self (d : Dict K V) (k : K) : (d.erase k).get k = none := by
  simp [erase]

theorem get_erase_ne (d : Dict K V) {k k' : K} (h : k' ≠ k) : (d.erase k).get k' = d.get k' := by
  simp [erase, h]

theorem get_of_get_erase {d : Dict K V} {k k' : K} {v : V} (h : (d.erase k).get k' = some v) :
    d.get k' = some v := by
  unfold erase at h
  dsimp only at h
  split at h
  · cases h
  · exact h

@[simp] theorem getD_set_self (d : Dict K V) (k : K) (v w : V) : (d.set k v).getD k w = v := by
  simp [getD]

theorem getD_set_ne (d : Dict K V) {k k' : K} (v w : V) (h : k' ≠ k) :
    (d.set k v).getD k' w = d.getD k' w := by
  simp [getD, get_set_ne d v h]

end

section

variable [DecidableEq K]

/-- The dictionary of a list of items, the later of two with one key winning. -/
def ofList (items : List (K × V)) : Dict K V :=
  items.foldl (fun d item => d.set item.1 item.2) empty

private theorem get_foldl_set (items : List (K × V)) (k : K) :
    ∀ d : Dict K V, k ∉ items.map Prod.fst →
      (items.foldl (fun d item => d.set item.1 item.2) d).get k = d.get k := by
  induction items with
  | nil =>
    intro d _
    rfl
  | cons item rest ih =>
    intro d hk
    rw [List.map_cons, List.mem_cons, not_or] at hk
    rw [List.foldl_cons, ih _ hk.2, get_set_ne _ _ hk.1]

theorem get_ofList_eq_none {items : List (K × V)} {k : K} (h : k ∉ items.map Prod.fst) :
    (ofList items).get k = none :=
  get_foldl_set items k empty h

/-- With every key once, each item is what its key answers. -/
theorem get_ofList {items : List (K × V)} (hnodup : (items.map Prod.fst).Nodup) {k : K} {v : V}
    (h : (k, v) ∈ items) : (ofList items).get k = some v := by
  have hfrom : ∀ d : Dict K V,
      (items.foldl (fun d item => d.set item.1 item.2) d).get k = some v := by
    induction items with
    | nil => cases h
    | cons item rest ih =>
      intro d
      obtain ⟨hfresh, hrest⟩ := List.nodup_cons.mp hnodup
      rw [List.foldl_cons]
      rcases List.mem_cons.mp h with rfl | h
      · rw [get_foldl_set rest k _ hfresh, get_set_self]
      · exact ih hrest h _
  exact hfrom empty

end

/-! ## Items -/

section

/-- `items` are the items of `d`, each key once. -/
structure Lists (items : List (K × V)) (d : Dict K V) : Prop where
  nodup : (items.map Prod.fst).Nodup
  get_iff : ∀ k v, d.get k = some v ↔ (k, v) ∈ items

theorem lists_empty : Lists [] (empty : Dict K V) := ⟨List.nodup_nil, by simp⟩

/-- The items whose key passes `p`. -/
def filter (p : K → Bool) (d : Dict K V) : Dict K V := ⟨fun k => if p k then d.get k else none⟩

theorem get_filter (p : K → Bool) (d : Dict K V) (k : K) :
    (d.filter p).get k = if p k then d.get k else none := rfl

variable {items : List (K × V)} {d : Dict K V}

theorem Lists.filter (h : Lists items d) (p : K → Bool) :
    Lists (items.filter fun item => p item.1) (d.filter p) := by
  constructor
  · exact h.nodup.sublist (List.filter_sublist.map Prod.fst)
  · intro k v
    rw [get_filter, List.mem_filter]
    by_cases hp : p k = true
    · simp [hp, h.get_iff]
    · simp [hp]

/-- A dictionary that has a list of items. -/
def Finite (d : Dict K V) : Prop := ∃ items, Lists items d

theorem finite_empty : (empty : Dict K V).Finite := ⟨[], lists_empty⟩

theorem Finite.filter (h : d.Finite) (p : K → Bool) : (d.filter p).Finite := by
  obtain ⟨items, hitems⟩ := h
  exact ⟨_, hitems.filter p⟩

variable [DecidableEq K]

/-- A dictionary is rebuilt from its items. -/
theorem Lists.ofList_eq (h : Lists items d) :
    ofList items = d := by
  ext k v
  rw [h.get_iff]
  constructor
  · intro hget
    by_cases hk : k ∈ items.map Prod.fst
    · obtain ⟨⟨k', w⟩, hitem, rfl⟩ := List.mem_map.mp hk
      rw [get_ofList h.nodup hitem] at hget
      cases hget
      exact hitem
    · rw [get_ofList_eq_none hk] at hget
      cases hget
  · intro hitem
    exact get_ofList h.nodup hitem

/-- An update has items again: the others, and the new one. -/
theorem Lists.set (h : Lists items d) (k : K) (v : V) :
    Lists ((k, v) :: items.filter fun item => item.1 ≠ k) (d.set k v) := by
  constructor
  · rw [List.map_cons, List.nodup_cons]
    constructor
    · intro hk
      obtain ⟨item, hitem, heq⟩ := List.mem_map.mp hk
      simp [heq] at hitem
    · exact h.nodup.sublist (List.filter_sublist.map Prod.fst)
  · intro k' v'
    rw [get_set]
    by_cases hk : k' = k
    · subst hk
      simp [eq_comm]
    · simp [hk, h.get_iff]

theorem Finite.set (h : d.Finite) (k : K) (v : V) : (d.set k v).Finite := by
  obtain ⟨items, hitems⟩ := h
  exact ⟨_, hitems.set k v⟩

theorem get_ofList_isSome {k : K} (h : k ∈ items.map Prod.fst) :
    ((ofList items).get k).isSome = true := by
  have hfrom : ∀ d : Dict K V, k ∈ items.map Prod.fst ∨ (d.get k).isSome = true →
      ((items.foldl (fun d item => d.set item.1 item.2) d).get k).isSome = true := by
    clear h
    induction items with
    | nil =>
      intro d hd
      simpa using hd
    | cons item rest ih =>
      intro d hd
      rw [List.foldl_cons]
      apply ih
      by_cases hk : k = item.1
      · subst hk
        simp
      · rw [get_set_ne _ _ hk]
        simpa [hk] using hd
  exact hfrom empty (.inl h)

end

/-- The same keys, with `f` applied to every value. -/
def mapValues {W : Type*} (f : V → W) (d : Dict K V) : Dict K W := ⟨fun k => (d.get k).map f⟩

@[simp] theorem get_mapValues {W : Type*} (f : V → W) (d : Dict K V) (k : K) :
    (d.mapValues f).get k = (d.get k).map f := rfl

/-! ## Dictionaries of lists -/

section

variable [DecidableEq K]

/-- `d.setdefault(k, []).append(v)`. -/
def append (d : Dict K (List V)) (k : K) (v : V) : Dict K (List V) :=
  d.set k (d.getD k [] ++ [v])

theorem mem_append {d : Dict K (List V)} {k k' : K} {v w : V} :
    w ∈ (d.append k v).getD k' [] ↔ w ∈ d.getD k' [] ∨ w = v ∧ k' = k := by
  unfold append
  by_cases h : k' = k
  · subst h
    simp
  · rw [getD_set_ne _ _ _ h]
    simp [h]

end

end Dict

end IotSaas.Lib
