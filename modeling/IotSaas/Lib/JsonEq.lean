import IotSaas.Lib.Json
import Mathlib.Data.List.Forall2

/-!
# `Lib/JsonEq.lean` — when two documents are equal

`Json.eqBy` compares two documents: lists item by item, objects key by key in whatever order they
are written. Numbers are compared by `same`, and `cross` says what becomes of a boolean that faces
a number. Two readings of it matter. `Json.strictEq` tells the two apart, and is an equivalence
where the equality of numbers is; `Json.looseEq` is the equality of a language whose booleans are
numbers. It is the strict one of the documents with every boolean written as the number it counts
as (`looseEq_counted`).
-/

set_option autoImplicit false

namespace IotSaas.Lib

variable {F : Type}

/-! ## Induction -/

/-- A property of the values in a document is one of the document. -/
@[elab_as_elim]
theorem Json.inductionOn {motive : Json F → Prop} (doc : Json F) (null : motive .null)
    (bool : ∀ b, motive (.bool b)) (num : ∀ n, motive (.num n)) (str : ∀ s, motive (.str s))
    (arr : ∀ items, (∀ item ∈ items, motive item) → motive (.arr items))
    (obj : ∀ members, (∀ entry ∈ members, motive entry.2) → motive (.obj members)) :
    motive doc := by
  refine @Json.rec F motive (fun items => ∀ item ∈ items, motive item)
    (fun members => ∀ entry ∈ members, motive entry.2) (fun entry => motive entry.2) null bool num
    str arr obj ?_ ?_ ?_ ?_ ?_ doc
  · simp
  · intro first rest hfirst hrest item hitem
    rcases List.mem_cons.mp hitem with rfl | hitem
    · exact hfirst
    · exact hrest item hitem
  · simp
  · intro first rest hfirst hrest entry hentry
    rcases List.mem_cons.mp hentry with rfl | hentry
    · exact hfirst
    · exact hrest entry hentry
  · intro key value hvalue
    exact hvalue

/-! ## Comparing -/

section

variable (same : F → F → Bool) (cross : Bool → F → Bool)

mutual

def Json.eqBy : Json F → Json F → Bool
  | .null, .null => true
  | .bool a, .bool b => a == b
  | .bool b, .num n => cross b n
  | .num n, .bool b => cross b n
  | .num m, .num n => same m n
  | .str s, .str t => s == t
  | .arr items, .arr items' => Json.eqItems items items'
  | .obj members, .obj members' =>
      Json.within members members' && members'.all fun entry => Json.partner members entry
  | _, _ => false
termination_by structural doc => doc

def Json.eqItems : List (Json F) → List (Json F) → Bool
  | [], [] => true
  | item :: rest, item' :: rest' => Json.eqBy item item' && Json.eqItems rest rest'
  | _, _ => false
termination_by structural items => items

/-- Every member has one like it. -/
def Json.within : List (String × Json F) → List (String × Json F) → Bool
  | [], _ => true
  | entry :: rest, members =>
      (members.any fun entry' => Json.eqEntry entry entry') && Json.within rest members
termination_by structural members => members

/-- There is a member like this one. -/
def Json.partner : List (String × Json F) → String × Json F → Bool
  | [], _ => false
  | entry :: rest, entry' => Json.eqEntry entry entry' || Json.partner rest entry'
termination_by structural members => members

def Json.eqEntry : String × Json F → String × Json F → Bool
  | (key, value), entry' => key == entry'.1 && Json.eqBy value entry'.2
termination_by structural entry => entry

end

example (items : List (Json F)) (members : List (String × Json F)) :
    Json.eqBy same cross (.arr items) (.obj members) = false := by
  simp [Json.eqBy]

theorem Json.eqItems_iff {items items' : List (Json F)} :
    Json.eqItems same cross items items' = true ↔
      List.Forall₂ (fun a b => Json.eqBy same cross a b = true) items items' := by
  induction items generalizing items' with
  | nil =>
    cases items' with
    | nil => simp [Json.eqItems]
    | cons item' rest' => simp [Json.eqItems]
  | cons item rest ih =>
    cases items' with
    | nil => simp [Json.eqItems]
    | cons item' rest' => simp [Json.eqItems, ih]

/-- Two lists are equal item by item. -/
theorem Json.eqBy_arr {items items' : List (Json F)} :
    Json.eqBy same cross (.arr items) (.arr items') = true ↔
      items.length = items'.length ∧ ∀ i h h',
        Json.eqBy same cross (items.get ⟨i, h⟩) (items'.get ⟨i, h'⟩) = true := by
  rw [Json.eqBy, Json.eqItems_iff, List.forall₂_iff_get]

theorem Json.within_iff {members members' : List (String × Json F)} :
    Json.within same cross members members' = true ↔
      ∀ entry ∈ members, ∃ entry' ∈ members',
        entry.1 = entry'.1 ∧ Json.eqBy same cross entry.2 entry'.2 = true := by
  induction members with
  | nil => simp [Json.within]
  | cons entry rest ih =>
    obtain ⟨key, value⟩ := entry
    simp [Json.within, Json.eqEntry, ih]

theorem Json.partner_iff {members : List (String × Json F)} {entry' : String × Json F} :
    Json.partner same cross members entry' = true ↔
      ∃ entry ∈ members, entry.1 = entry'.1 ∧ Json.eqBy same cross entry.2 entry'.2 = true := by
  induction members with
  | nil => simp [Json.partner]
  | cons entry rest ih =>
    obtain ⟨key, value⟩ := entry
    simp [Json.partner, Json.eqEntry, ih]

/-- Two objects have each other's members. -/
theorem Json.eqBy_obj {members members' : List (String × Json F)} :
    Json.eqBy same cross (.obj members) (.obj members') = true ↔
      (∀ entry ∈ members, ∃ entry' ∈ members',
        entry.1 = entry'.1 ∧ Json.eqBy same cross entry.2 entry'.2 = true) ∧
      ∀ entry' ∈ members', ∃ entry ∈ members,
        entry.1 = entry'.1 ∧ Json.eqBy same cross entry.2 entry'.2 = true := by
  rw [Json.eqBy, Bool.and_eq_true, Json.within_iff, List.all_eq_true]
  simp only [Json.partner_iff]

end

/-- Where more booleans may face numbers, more documents are equal. -/
theorem Json.eqBy_mono {same : F → F → Bool} {cross cross' : Bool → F → Bool}
    (hcross : ∀ b n, cross b n = true → cross' b n = true) {a b : Json F}
    (h : Json.eqBy same cross a b = true) : Json.eqBy same cross' a b = true := by
  induction a using Json.inductionOn generalizing b with
  | null =>
    cases b with
    | null => exact h
    | _ => simp [Json.eqBy] at h
  | bool v =>
    cases b with
    | bool w => exact h
    | num n => exact hcross v n h
    | _ => simp [Json.eqBy] at h
  | num n =>
    cases b with
    | bool v => exact hcross v n h
    | num m => exact h
    | _ => simp [Json.eqBy] at h
  | str s =>
    cases b with
    | str t => exact h
    | _ => simp [Json.eqBy] at h
  | arr items ih =>
    cases b with
    | arr items' =>
      rw [Json.eqBy_arr] at h ⊢
      exact ⟨h.1, fun i hi hi' => ih _ (List.get_mem items ⟨i, hi⟩) (h.2 i hi hi')⟩
    | _ => simp [Json.eqBy] at h
  | obj members ih =>
    cases b with
    | obj members' =>
      rw [Json.eqBy_obj] at h ⊢
      constructor
      · intro entry hentry
        obtain ⟨entry', hentry', hkey, hvalue⟩ := h.1 entry hentry
        exact ⟨entry', hentry', hkey, ih entry hentry hvalue⟩
      · intro entry' hentry'
        obtain ⟨entry, hentry, hkey, hvalue⟩ := h.2 entry' hentry'
        exact ⟨entry, hentry, hkey, ih entry hentry hvalue⟩
    | _ => simp [Json.eqBy] at h

/-! ## Equal documents -/

/-- The same document. -/
def Json.strictEq (eq : F → F → Bool) (a b : Json F) : Bool := Json.eqBy eq (fun _ _ => false) a b

section

variable {eq : F → F → Bool}

theorem Json.strictEq_refl (hrefl : ∀ n, eq n n = true) (a : Json F) :
    Json.strictEq eq a a = true := by
  unfold Json.strictEq
  induction a using Json.inductionOn with
  | null => rfl
  | bool b => simp [Json.eqBy]
  | num n => exact hrefl n
  | str s => simp [Json.eqBy]
  | arr items ih =>
    rw [Json.eqBy_arr]
    exact ⟨rfl, fun i h _ => ih _ (List.get_mem items ⟨i, h⟩)⟩
  | obj members ih =>
    rw [Json.eqBy_obj]
    exact ⟨fun entry h => ⟨entry, h, rfl, ih entry h⟩, fun entry h => ⟨entry, h, rfl, ih entry h⟩⟩

theorem Json.strictEq_symm (hsymm : ∀ m n, eq m n = true → eq n m = true) {a b : Json F}
    (h : Json.strictEq eq a b = true) : Json.strictEq eq b a = true := by
  unfold Json.strictEq at h ⊢
  induction a using Json.inductionOn generalizing b with
  | null => cases b <;> simp_all [Json.eqBy]
  | bool v => cases b <;> simp_all [Json.eqBy]
  | num n => cases b <;> simp_all [Json.eqBy]
  | str s => cases b <;> simp_all [Json.eqBy]
  | arr items ih =>
    cases b with
    | arr items' =>
      rw [Json.eqBy_arr] at h ⊢
      exact ⟨h.1.symm, fun i hi hi' => ih _ (List.get_mem items ⟨i, hi'⟩) (h.2 i hi' hi)⟩
    | _ => simp [Json.eqBy] at h
  | obj members ih =>
    cases b with
    | obj members' =>
      rw [Json.eqBy_obj] at h ⊢
      constructor
      · intro entry' hentry'
        obtain ⟨entry, hentry, hkey, hvalue⟩ := h.2 entry' hentry'
        exact ⟨entry, hentry, hkey.symm, ih entry hentry hvalue⟩
      · intro entry hentry
        obtain ⟨entry', hentry', hkey, hvalue⟩ := h.1 entry hentry
        exact ⟨entry', hentry', hkey.symm, ih entry hentry hvalue⟩
    | _ => simp [Json.eqBy] at h

theorem Json.strictEq_trans (htrans : ∀ l m n, eq l m = true → eq m n = true → eq l n = true)
    {a b c : Json F} (hab : Json.strictEq eq a b = true) (hbc : Json.strictEq eq b c = true) :
    Json.strictEq eq a c = true := by
  unfold Json.strictEq at hab hbc ⊢
  induction a using Json.inductionOn generalizing b c with
  | null =>
    cases b with
    | null => exact hbc
    | _ => simp [Json.eqBy] at hab
  | bool v => cases b <;> cases c <;> simp_all [Json.eqBy]
  | num n =>
    cases b with
    | num m =>
      cases c with
      | num l => exact htrans n m l hab hbc
      | _ => simp [Json.eqBy] at hbc
    | _ => simp [Json.eqBy] at hab
  | str s => cases b <;> cases c <;> simp_all [Json.eqBy]
  | arr items ih =>
    cases b with
    | arr items' =>
      cases c with
      | arr items'' =>
        rw [Json.eqBy_arr] at hab hbc ⊢
        refine ⟨hab.1.trans hbc.1, ?_⟩
        intro i hi hi''
        have hi' : i < items'.length := hab.1 ▸ hi
        exact ih _ (List.get_mem items ⟨i, hi⟩) (hab.2 i hi hi') (hbc.2 i hi' hi'')
      | _ => simp [Json.eqBy] at hbc
    | _ => simp [Json.eqBy] at hab
  | obj members ih =>
    cases b with
    | obj members' =>
      cases c with
      | obj members'' =>
        rw [Json.eqBy_obj] at hab hbc ⊢
        constructor
        · intro entry hentry
          obtain ⟨entry', hentry', hkey, hvalue⟩ := hab.1 entry hentry
          obtain ⟨entry'', hentry'', hkey', hvalue'⟩ := hbc.1 entry' hentry'
          exact ⟨entry'', hentry'', hkey.trans hkey', ih entry hentry hvalue hvalue'⟩
        · intro entry'' hentry''
          obtain ⟨entry', hentry', hkey', hvalue'⟩ := hbc.2 entry'' hentry''
          obtain ⟨entry, hentry, hkey, hvalue⟩ := hab.2 entry' hentry'
          exact ⟨entry, hentry, hkey.trans hkey', ih entry hentry hvalue hvalue'⟩
      | _ => simp [Json.eqBy] at hbc
    | _ => simp [Json.eqBy] at hab

end

/-! ## Booleans that are numbers -/

/-- The equality of a language where a boolean is the number it counts as. -/
def Json.looseEq (eq : F → F → Bool) (counts : Bool → F) (a b : Json F) : Bool :=
  Json.eqBy eq (fun b n => eq (counts b) n) a b

section

variable (counts : Bool → F)

mutual

/-- The document with its booleans written as numbers. -/
def Json.counted : Json F → Json F
  | .null => .null
  | .bool b => .num (counts b)
  | .num n => .num n
  | .str s => .str s
  | .arr items => .arr (Json.countedItems items)
  | .obj members => .obj (Json.countedMembers members)

def Json.countedItems : List (Json F) → List (Json F)
  | [] => []
  | item :: rest => Json.counted item :: Json.countedItems rest

def Json.countedMembers : List (String × Json F) → List (String × Json F)
  | [] => []
  | entry :: rest => Json.countedEntry entry :: Json.countedMembers rest

def Json.countedEntry : String × Json F → String × Json F
  | (key, value) => (key, Json.counted value)

end

theorem Json.countedItems_eq (items : List (Json F)) :
    Json.countedItems counts items = items.map (Json.counted counts) := by
  induction items with
  | nil => rfl
  | cons item rest ih => rw [Json.countedItems, List.map_cons, ih]

theorem Json.countedMembers_eq (members : List (String × Json F)) :
    Json.countedMembers counts members =
      members.map fun entry => (entry.1, Json.counted counts entry.2) := by
  induction members with
  | nil => rfl
  | cons entry rest ih => rw [Json.countedMembers, List.map_cons, ih, Json.countedEntry]

end

/-- What the two booleans count as is told apart by an equality of numbers. -/
structure Json.Counts (eq : F → F → Bool) (counts : Bool → F) : Prop where
  refl : ∀ n, eq n n = true
  symm : ∀ m n, eq m n = true → eq n m = true
  trans : ∀ l m n, eq l m = true → eq m n = true → eq l n = true
  apart : eq (counts false) (counts true) = false

section

variable {eq : F → F → Bool} {counts : Bool → F}

theorem Json.Counts.eq_comm (h : Json.Counts eq counts) (m n : F) : eq m n = eq n m := by
  rw [Bool.eq_iff_iff]
  exact ⟨h.symm m n, h.symm n m⟩

theorem Json.Counts.eq_bool (h : Json.Counts eq counts) (a b : Bool) :
    eq (counts a) (counts b) = (a == b) := by
  cases a <;> cases b <;> simp [h.refl, h.apart, h.eq_comm (counts true)]

/-- **The loose equality is the equality of the documents with their booleans as numbers.** -/
theorem Json.looseEq_counted (h : Json.Counts eq counts) (a b : Json F) :
    Json.looseEq eq counts a b = Json.strictEq eq (a.counted counts) (b.counted counts) := by
  unfold Json.looseEq Json.strictEq
  induction a using Json.inductionOn generalizing b with
  | null => cases b <;> simp [Json.eqBy, Json.counted]
  | bool v => cases b <;> simp [Json.eqBy, Json.counted, h.eq_bool]
  | num n => cases b <;> simp [Json.eqBy, Json.counted, h.eq_comm n]
  | str s => cases b <;> simp [Json.eqBy, Json.counted]
  | arr items ih =>
    cases b with
    | arr items' =>
      rw [Bool.eq_iff_iff, Json.counted, Json.counted, Json.eqBy_arr, Json.eqBy_arr]
      simp only [Json.countedItems_eq, List.length_map, List.get_eq_getElem, List.getElem_map]
      refine and_congr_right fun _ => forall_congr' fun i => forall_congr' fun hi => ?_
      refine forall_congr' fun hi' => ?_
      rw [ih _ (List.getElem_mem hi)]
    | _ => simp [Json.eqBy, Json.counted]
  | obj members ih =>
    cases b with
    | obj members' =>
      rw [Bool.eq_iff_iff, Json.counted, Json.counted, Json.eqBy_obj, Json.eqBy_obj]
      simp only [Json.countedMembers_eq, List.forall_mem_map]
      simp only [List.mem_map, exists_exists_and_eq_and]
      refine and_congr (forall₂_congr fun entry hentry => ?_) (forall₂_congr fun entry' _ => ?_)
      · simp only [ih entry hentry]
      · refine exists_congr fun entry => and_congr_right fun hentry => ?_
        rw [ih entry hentry]
    | _ => simp [Json.eqBy, Json.counted]

/-- Equal documents are loosely equal. -/
theorem Json.looseEq_of_strictEq {a b : Json F} (h : Json.strictEq eq a b = true) :
    Json.looseEq eq counts a b = true := by
  refine Json.eqBy_mono ?_ h
  intro b n hfalse
  cases hfalse

end
end IotSaas.Lib
