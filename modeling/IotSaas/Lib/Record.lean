import Mathlib.Data.List.Basic

/-!
# `Lib/Record.lean` — records, with their items in order

A record is looked up by key and walked item by item. Its keys are different from each other, so
the two ways of reading it agree (`get_eq_some`), also after some of the items were dropped or
changed on the way into another one (`lookup_filterMap`).
-/

set_option autoImplicit false

namespace IotSaas.Lib

/-- Items by key, each key once. -/
structure Record (V : Type*) where
  items : List (String × V) := []
  nodup : (items.map Prod.fst).Nodup := by decide

namespace Record

variable {V W : Type*}

/-- `record[key]`. -/
def get (r : Record V) (key : String) : Option V := r.items.lookup key

variable {items : List (String × V)} {key : String}

theorem mem_of_lookup {v : V} (h : items.lookup key = some v) : (key, v) ∈ items := by
  obtain ⟨before, after, rfl, _⟩ := List.lookup_eq_some_iff.mp h
  simp

theorem lookup_eq_none (h : key ∉ items.map Prod.fst) : items.lookup key = none := by
  rw [List.lookup_eq_none_iff]
  intro item hitem
  simp only [bne_iff_ne, ne_eq]
  rintro rfl
  exact h (List.mem_map_of_mem hitem)

theorem lookup_of_mem (hnodup : (items.map Prod.fst).Nodup) {v : V} (h : (key, v) ∈ items) :
    items.lookup key = some v := by
  induction items with
  | nil => cases h
  | cons item rest ih =>
    obtain ⟨hfresh, hrest⟩ := List.nodup_cons.mp hnodup
    rw [List.lookup_cons]
    rcases List.mem_cons.mp h with rfl | h
    · simp
    · have hne : key ≠ item.1 := by
        intro heq
        exact hfresh (heq ▸ List.mem_map_of_mem h)
      simp only [beq_false_of_ne hne]
      exact ih hrest h

/-- What a key answers is its item. -/
theorem get_eq_some {r : Record V} {v : V} :
    r.get key = some v ↔ (key, v) ∈ r.items :=
  ⟨mem_of_lookup, lookup_of_mem r.nodup⟩

/-- Items carried over, some dropped, some changed: the key answers what became of its item. -/
theorem lookup_filterMap (f : String → V → Option W) (hnodup : (items.map Prod.fst).Nodup)
    (key : String) :
    (items.filterMap fun item => (f item.1 item.2).map (Prod.mk item.1)).lookup key =
      (items.lookup key).bind (f key) := by
  induction items with
  | nil => rfl
  | cons item rest ih =>
    obtain ⟨k, v⟩ := item
    obtain ⟨hfresh, hrest⟩ := List.nodup_cons.mp hnodup
    rw [List.lookup_cons, List.filterMap_cons]
    by_cases hk : key = k
    · subst hk
      have hnone : rest.lookup key = none := lookup_eq_none hfresh
      cases hf : f key v with
      | none => simp [hf, ih hrest, hnone]
      | some w => simp [hf]
    · cases hf : f k v with
      | none => simp [beq_false_of_ne hk, ih hrest]
      | some w => simp [List.lookup_cons, beq_false_of_ne hk, ih hrest]

/-! ## From pairs -/

/-- `items[key] = v`: a new key goes to the end, an old one keeps its place. -/
def assign : List (String × V) → String → V → List (String × V)
  | [], key, v => [(key, v)]
  | item :: rest, key, v => if item.1 = key then (key, v) :: rest else item :: assign rest key v

theorem keys_assign (items : List (String × V)) (key : String) (v : V) :
    (assign items key v).map Prod.fst =
      if key ∈ items.map Prod.fst then items.map Prod.fst else items.map Prod.fst ++ [key] := by
  induction items with
  | nil => rfl
  | cons item rest ih =>
    unfold assign
    by_cases hk : item.1 = key
    · simp [hk]
    · rw [if_neg hk, List.map_cons, ih, List.map_cons]
      by_cases hmem : key ∈ rest.map Prod.fst
      · rw [if_pos hmem, if_pos (List.mem_cons_of_mem _ hmem)]
      · rw [if_neg hmem, if_neg (by simpa [Ne.symm hk] using hmem), List.cons_append]

theorem nodup_assign (h : (items.map Prod.fst).Nodup) (key : String) (v : V) :
    ((assign items key v).map Prod.fst).Nodup := by
  rw [keys_assign]
  by_cases hmem : key ∈ items.map Prod.fst
  · rwa [if_pos hmem]
  · rw [if_neg hmem]
    refine List.nodup_append.mpr ⟨h, by simp, ?_⟩
    intro k hk k' hk' heq
    rw [List.mem_singleton] at hk'
    exact hmem (hk' ▸ heq ▸ hk)

theorem assign_fresh (v : V) (h : key ∉ items.map Prod.fst) :
    assign items key v = items ++ [(key, v)] := by
  induction items with
  | nil => rfl
  | cons item rest ih =>
    rw [List.map_cons, List.mem_cons, not_or] at h
    rw [assign, if_neg (Ne.symm h.1), ih h.2, List.cons_append]

/-- `{ ...record, [key]: v }`. -/
def set (r : Record V) (key : String) (v : V) : Record V :=
  ⟨assign r.items key v, nodup_assign r.nodup key v⟩

/-- Every value changed, under the key it has. -/
def mapValues (f : V → W) (r : Record V) : Record W :=
  ⟨r.items.map fun item => (item.1, f item.2), by simpa [Function.comp_def] using r.nodup⟩

theorem mapValues_eq_self {r : Record V} {f : V → V} (h : ∀ item ∈ r.items, f item.2 = item.2) :
    r.mapValues f = r := by
  obtain ⟨items, hnodup⟩ := r
  unfold mapValues
  congr
  refine (List.map_congr_left fun item hitem => ?_).trans (List.map_id items)
  rw [h item hitem]
  rfl

theorem lookup_assign (items : List (String × V)) (key : String) (v : V) (k : String) :
    (assign items key v).lookup k = if k = key then some v else items.lookup k := by
  induction items with
  | nil =>
    by_cases hk : k = key
    · simp [assign, hk]
    · simp [assign, List.lookup_cons, beq_false_of_ne hk, hk]
  | cons item rest ih =>
    obtain ⟨first, w⟩ := item
    unfold assign
    by_cases hfirst : first = key
    · subst hfirst
      by_cases hk : k = first
      · simp [hk]
      · simp [List.lookup_cons, beq_false_of_ne hk, hk]
    · rw [if_neg hfirst, List.lookup_cons, List.lookup_cons, ih]
      by_cases hk : k = first
      · subst hk
        simp [hfirst]
      · simp [beq_false_of_ne hk]

@[simp] theorem get_set (r : Record V) (key : String) (v : V) (k : String) :
    (r.set key v).get k = if k = key then some v else r.get k := lookup_assign r.items key v k

theorem get_set_self (r : Record V) (key : String) (v : V) : (r.set key v).get key = some v := by
  rw [get_set, if_pos rfl]

theorem get_set_of_ne (r : Record V) {key k : String} (v : V) (h : k ≠ key) :
    (r.set key v).get k = r.get k := by
  rw [get_set, if_neg h]

theorem mem_assign {key k : String} {v w : V} (h : (k, w) ∈ assign items key v) :
    w = v ∨ (k, w) ∈ items := by
  induction items with
  | nil =>
    cases List.mem_singleton.mp h
    exact .inl rfl
  | cons item rest ih =>
    unfold assign at h
    split at h
    · rcases List.mem_cons.mp h with heq | hrest
      · cases heq
        exact .inl rfl
      · exact .inr (List.mem_cons_of_mem _ hrest)
    · rcases List.mem_cons.mp h with rfl | hrest
      · exact .inr List.mem_cons_self
      · exact (ih hrest).imp_right (List.mem_cons_of_mem _)

/-- What is read off the values stays without repetitions when the new value adds nothing that is
there. -/
theorem nodup_filterMap_assign (f : V → Option W) (key : String) {v : V}
    (h : (items.filterMap fun item => f item.2).Nodup)
    (hfresh : ∀ w, f v = some w → w ∉ items.filterMap fun item => f item.2) :
    ((assign items key v).filterMap fun item => f item.2).Nodup := by
  induction items with
  | nil => cases hv : f v <;> simp [assign, hv]
  | cons item rest ih =>
    have hrest : (rest.filterMap fun item => f item.2).Nodup :=
      h.sublist ((List.sublist_cons_self item rest).filterMap _)
    have hmem : ∀ w ∈ rest.filterMap fun item => f item.2,
        w ∈ (item :: rest).filterMap fun item => f item.2 :=
      ((List.sublist_cons_self item rest).filterMap _).subset
    unfold assign
    split
    · rw [List.filterMap_cons]
      cases hv : f v with
      | none => exact hrest
      | some w => exact List.nodup_cons.mpr ⟨fun hw => hfresh w hv (hmem w hw), hrest⟩
    · have htail := ih hrest fun w hw hmem' => hfresh w hw (hmem w hmem')
      rw [List.filterMap_cons] at h hfresh ⊢
      cases hitem : f item.2 with
      | none => exact htail
      | some w =>
        rw [hitem] at h hfresh
        refine List.nodup_cons.mpr ⟨fun hw => ?_, htail⟩
        -- an item of the new list is an old one, or the new value
        obtain ⟨⟨k, u⟩, hassigned, hu⟩ := List.mem_filterMap.mp hw
        rcases mem_assign hassigned with rfl | hold
        · exact hfresh w hu List.mem_cons_self
        · exact (List.nodup_cons.mp h).1 (List.mem_filterMap.mpr ⟨_, hold, hu⟩)

/-- The record of a list of pairs, the last one of a key winning. -/
def ofPairs (pairs : List (String × V)) : Record V :=
  pairs.foldl (fun r pair => ⟨assign r.items pair.1 pair.2, nodup_assign r.nodup _ _⟩)
    ⟨[], List.nodup_nil⟩

/-- With every key once, the pairs are the items. -/
theorem items_ofPairs {pairs : List (String × V)} (h : (pairs.map Prod.fst).Nodup) :
    (ofPairs pairs).items = pairs := by
  have hfrom : ∀ r : Record V, (r.items.map Prod.fst ++ pairs.map Prod.fst).Nodup →
      (pairs.foldl (fun r pair => (⟨assign r.items pair.1 pair.2, nodup_assign r.nodup _ _⟩ :
        Record V)) r).items = r.items ++ pairs := by
    clear h
    induction pairs with
    | nil =>
      intro r _
      simp
    | cons pair rest ih =>
      intro r hr
      have hfresh : pair.1 ∉ r.items.map Prod.fst := by
        intro hmem
        exact (List.nodup_append.mp hr).2.2 _ hmem _ (by simp) rfl
      rw [List.foldl_cons, ih]
      · show assign r.items pair.1 pair.2 ++ rest = _
        rw [assign_fresh _ hfresh]
        simp
      · show ((assign r.items pair.1 pair.2).map Prod.fst ++ _).Nodup
        rw [assign_fresh _ hfresh]
        simpa using hr
  exact hfrom ⟨[], List.nodup_nil⟩ (by simpa using h)

end Record
end IotSaas.Lib
