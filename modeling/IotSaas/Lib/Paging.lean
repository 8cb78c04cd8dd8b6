import Mathlib.Data.List.Sort
import Mathlib.Data.List.Nodup

/-!
# `Lib/Paging.lean` — pages of a sorted list

A query that sorts by a key may return items of one key in any order, and each page is a query of
its own. The pages together are every item once exactly when no page ends between two items of one
key (`pages_exact_iff`): otherwise one of the two can be on both pages and the other on none.
-/

set_option autoImplicit false

namespace IotSaas.Lib

section

variable {α κ : Type} [LinearOrder κ] {key : α → κ} {items : List α}

/-- `found` is an answer to a query for `items` in the order of their keys. -/
structure Arranged (key : α → κ) (items found : List α) : Prop where
  perm : found.Perm items
  sorted : found.Pairwise fun a b => key a ≤ key b

/-- `LIMIT limit OFFSET offset`. -/
def window (limit offset : Nat) (found : List α) : List α := (found.drop offset).take limit

/-- The first `n` pages, one after the other. -/
def collect (page : Nat → List α) : Nat → List α
  | 0 => []
  | n + 1 => collect page n ++ page n

/-- The first `n` pages of `limit` items, each from its own answer. -/
def pages (limit : Nat) (found : Nat → List α) (n : Nat) : List α :=
  collect (fun page => window limit (page * limit) (found page)) n

@[simp] theorem pages_zero (limit : Nat) (found : Nat → List α) : pages limit found 0 = [] := rfl

theorem pages_succ (limit : Nat) (found : Nat → List α) (n : Nat) :
    pages limit found (n + 1) = pages limit found n ++ window limit (n * limit) (found n) := rfl

/-- How many pages it takes. -/
def pageCount (total limit : Nat) : Nat := (total + limit - 1) / limit

variable {limit : Nat}

theorem le_pageCount_mul (total : Nat) (h : 0 < limit) :
    total ≤ pageCount total limit * limit := by
  have hdiv := Nat.div_add_mod (total + limit - 1) limit
  have hmod := Nat.mod_lt (total + limit - 1) h
  rw [Nat.mul_comm] at hdiv
  unfold pageCount
  omega

/-- The keys in order. -/
def sortedKeys (key : α → κ) (items : List α) : List κ :=
  (items.map key).mergeSort fun a b => decide (a ≤ b)

/-- No page ends between two items of one key. -/
def Separated (key : α → κ) (items : List α) (limit : Nat) : Prop :=
  ∀ page, 0 < page → page * limit < items.length →
    (sortedKeys key items)[page * limit - 1]? ≠ (sortedKeys key items)[page * limit]?

theorem sortedKeys_perm : (sortedKeys key items).Perm (items.map key) :=
  List.mergeSort_perm _ _

theorem sortedKeys_sorted : (sortedKeys key items).Pairwise (· ≤ ·) :=
  List.pairwise_mergeSort' (· ≤ ·) (items.map key)

theorem Arranged.length {found : List α} (h : Arranged key items found) :
    found.length = items.length := h.perm.length_eq

/-- The keys of an answer are the keys in order, whichever answer it is. -/
theorem Arranged.keys {found : List α} (h : Arranged key items found) :
    found.map key = sortedKeys key items := by
  have hsorted : (found.map key).Pairwise (· ≤ ·) := List.pairwise_map.mpr h.sorted
  refine List.Perm.eq_of_pairwise (fun a b _ _ hab hba => le_antisymm hab hba) hsorted
    sortedKeys_sorted ?_
  exact (h.perm.map key).trans sortedKeys_perm.symm

/-- There is an answer. -/
theorem exists_arranged (key : α → κ) (items : List α) : ∃ found, Arranged key items found := by
  refine ⟨items.mergeSort fun a b => decide (key a ≤ key b), List.mergeSort_perm _ _, ?_⟩
  have hsorted := List.pairwise_mergeSort
    (fun (a b c : α) (hab : decide (key a ≤ key b) = true) (hbc : decide (key b ≤ key c) = true) =>
      by simpa using le_trans (by simpa using hab) (by simpa using hbc : key b ≤ key c))
    (fun a b => by simpa using le_total (key a) (key b)) items
  exact hsorted.imp fun h => by simpa using h

/-- Where the keys before and after position `b` differ, the items before it are those with a
smaller key than the one there. -/
theorem Arranged.take_eq {found : List α} (h : Arranged key items found) {b : Nat} {k : κ}
    (hk : (sortedKeys key items)[b]? = some k) (hpos : 0 < b)
    (hne : (sortedKeys key items)[b - 1]? ≠ (sortedKeys key items)[b]?) :
    found.take b = found.filter fun a => key a < k := by
  rw [← h.keys, List.getElem?_map] at hk hne
  rw [List.getElem?_map, hk] at hne
  obtain ⟨item, hitem, rfl⟩ := Option.map_eq_some_iff.mp hk
  obtain ⟨hlt, hget⟩ := List.getElem?_eq_some_iff.mp hitem
  have hsorted := List.pairwise_iff_getElem.mp h.sorted
  have hbefore : ∀ a ∈ found.take b, key a < key item := by
    intro a ha
    obtain ⟨i, hi, rfl⟩ := List.mem_take_iff_getElem.mp ha
    -- up to the item just before `b`, whose key is another one
    have hlast : key found[b - 1] < key item := by
      refine lt_of_le_of_ne ?_ ?_
      · rw [← hget]
        exact hsorted (b - 1) b (by omega) hlt (by omega)
      · intro heq
        apply hne
        rw [List.getElem?_eq_getElem (by omega), Option.map_some, heq]
    rcases Nat.lt_or_ge i (b - 1) with hlow | hhigh
    · exact lt_of_le_of_lt (hsorted i (b - 1) (by omega) (by omega) hlow) hlast
    · have hi' : i = b - 1 := by omega
      simpa only [hi'] using hlast
  have hafter : ∀ a ∈ found.drop b, ¬ key a < key item := by
    intro a ha
    obtain ⟨i, hi, rfl⟩ := List.mem_drop_iff_getElem.mp ha
    rw [not_lt, ← hget]
    rcases Nat.eq_zero_or_pos i with rfl | hpos'
    · exact le_rfl
    · exact hsorted b (b + i) hlt (by omega) (by omega)
  conv_rhs => rw [← List.take_append_drop b found]
  rw [List.filter_append, List.filter_eq_self.mpr (by simpa using hbefore),
    List.filter_eq_nil_iff.mpr (by simpa using hafter), List.append_nil]

/-- What comes before a border that separates is the same, whichever the answer. -/
theorem Arranged.take_perm {found found' : List α} (h : Arranged key items found)
    (h' : Arranged key items found') {limit page : Nat} (hsep : Separated key items limit) :
    (found.take (page * limit)).Perm (found'.take (page * limit)) := by
  rcases Nat.eq_zero_or_pos (page * limit) with hzero | hpos
  · rw [hzero]
    exact .refl _
  · by_cases hlt : page * limit < items.length
    · obtain ⟨k, hk⟩ : ∃ k, (sortedKeys key items)[page * limit]? = some k := by
        rw [← h.keys, List.getElem?_map,
          List.getElem?_eq_getElem (h.length ▸ hlt : page * limit < found.length)]
        exact ⟨_, rfl⟩
      have hne := hsep page (Nat.pos_of_mul_pos_right hpos) hlt
      rw [h.take_eq hk hpos hne, h'.take_eq hk hpos hne]
      exact (h.perm.trans h'.perm.symm).filter _
    · rw [List.take_of_length_le (by rw [h.length]; omega),
        List.take_of_length_le (by rw [h'.length]; omega)]
      exact h.perm.trans h'.perm.symm

variable {found : Nat → List α}

/-- **With every border separating, the pages are the beginning of any answer.** -/
theorem pages_perm (hsep : Separated key items limit)
    (hfound : ∀ page, Arranged key items (found page)) :
    ∀ (n : Nat) {whole : List α}, Arranged key items whole →
      (pages limit found n).Perm (whole.take (n * limit)) := by
  intro n
  induction n with
  | zero =>
    intro whole _
    simp
  | succ n ih =>
    intro whole hwhole
    have hpage : (found n).take (n * limit) ++ window limit (n * limit) (found n) =
        (found n).take ((n + 1) * limit) := by
      rw [window, Nat.succ_mul, List.take_add]
    rw [pages_succ]
    refine ((ih (hfound n)).append_right _).trans ?_
    rw [hpage]
    exact (hfound n).take_perm hwhole hsep

/-- Two neighbours of one key change places. -/
theorem Arranged.swap {before after : List α} {a b : α}
    (h : Arranged key items (before ++ a :: b :: after)) (heq : key a = key b) :
    Arranged key items (before ++ b :: a :: after) := by
  refine ⟨?_, ?_⟩
  · exact ((List.Perm.swap a b after).append_left before).trans h.perm
  · have hkeys : (before ++ b :: a :: after).map key = (before ++ a :: b :: after).map key := by
      simp [heq]
    have hsorted : ((before ++ a :: b :: after).map key).Pairwise (· ≤ ·) :=
      List.pairwise_map.mpr h.sorted
    rw [← hkeys] at hsorted
    exact List.pairwise_map.mp hsorted

/-- A page's items are in the answer it is cut from. -/
theorem mem_pages_of_mem_window {page n : Nat} (hn : page < n) {a : α}
    (h : a ∈ window limit (page * limit) (found page)) :
    a ∈ pages limit found n := by
  induction n with
  | zero => exact absurd hn (Nat.not_lt_zero _)
  | succ n ih =>
    rw [pages_succ, List.mem_append]
    rcases Nat.lt_succ_iff_lt_or_eq.mp hn with hlt | heq
    · exact .inl (ih hlt)
    · exact .inr (heq ▸ h)

/-- An item on two pages is twice in the pages. -/
theorem not_nodup_of_two_pages {page page' n : Nat} (hlt : page < page') (hn : page' < n) {a : α}
    (h : a ∈ window limit (page * limit) (found page))
    (h' : a ∈ window limit (page' * limit) (found page')) : ¬ (pages limit found n).Nodup := by
  induction n with
  | zero => exact absurd hn (Nat.not_lt_zero _)
  | succ n ih =>
    intro hnodup
    rw [pages_succ] at hnodup
    obtain ⟨hbefore, _, hdisjoint⟩ := List.nodup_append.mp hnodup
    rcases Nat.lt_succ_iff_lt_or_eq.mp hn with hlt' | heq
    · exact ih hlt' hbefore
    · subst heq
      exact hdisjoint a (mem_pages_of_mem_window hlt h) a h' rfl

/-- **The pages are every item once, whatever the database answers, exactly when every border
separates.** -/
theorem pages_exact_iff (hlimit : 0 < limit) (hnodup : items.Nodup) {n : Nat}
    (hn : items.length ≤ n * limit) :
    (∀ found : Nat → List α, (∀ page, Arranged key items (found page)) →
      (pages limit found n).Perm items) ↔ Separated key items limit := by
  constructor
  · intro h page hpos hlt heq
    obtain ⟨whole, hwhole⟩ := exists_arranged key items
    -- the two items at the border
    have hlt' : page * limit < whole.length := hwhole.length ▸ hlt
    have hborder : 0 < page * limit := Nat.mul_pos hpos hlimit
    obtain ⟨before, a, b, after, hshape, hlength⟩ : ∃ before a b after,
        whole = before ++ a :: b :: after ∧ before.length + 1 = page * limit := by
      refine ⟨whole.take (page * limit - 1), whole[page * limit - 1], whole[page * limit],
        whole.drop (page * limit + 1), ?_, ?_⟩
      · conv_lhs => rw [← List.take_append_drop (page * limit - 1) whole]
        rw [List.drop_eq_getElem_cons (by omega)]
        congr 2
        have hnext : page * limit - 1 + 1 = page * limit := by omega
        rw [hnext, List.drop_eq_getElem_cons hlt']
      · rw [List.length_take]
        omega
    subst hshape
    have hkeys : key a = key b := by
      rw [← hwhole.keys] at heq
      have hprev : page * limit - 1 = before.length := by omega
      have hnext : page * limit = before.length + 1 := by omega
      rw [hprev, hnext] at heq
      simpa using heq
    -- the page before ends with `a`, the page after begins with `a` as well
    obtain ⟨found, hfound⟩ : ∃ found : Nat → List α, found = fun i =>
        if i = page then before ++ b :: a :: after else before ++ a :: b :: after := ⟨_, rfl⟩
    have hall : ∀ i, Arranged key items (found i) := by
      intro i
      rw [hfound]
      dsimp only
      split
      · exact hwhole.swap hkeys
      · exact hwhole
    have hfirst : a ∈ window limit ((page - 1) * limit) (found (page - 1)) := by
      have hshift : (page - 1) * limit + limit = page * limit := by
        rw [← Nat.succ_mul]
        congr 1
        omega
      rw [hfound]
      dsimp only
      rw [if_neg (by omega), window]
      refine List.mem_take_iff_getElem.mpr ⟨limit - 1, ?_, ?_⟩
      · simp only [List.length_drop, List.length_append, List.length_cons]
        omega
      · have hat : (page - 1) * limit + (limit - 1) = before.length := by omega
        simp only [List.getElem_drop, hat]
        simp
    have hsecond : a ∈ window limit (page * limit) (found page) := by
      rw [hfound]
      dsimp only
      rw [if_pos rfl, window, ← hlength]
      have hdrop : (before ++ b :: a :: after).drop (before.length + 1) = a :: after := by
        simp
      rw [hdrop]
      cases limit with
      | zero => exact absurd hlimit (Nat.lt_irrefl _)
      | succ limit => simp
    have hperm := h found hall
    refine not_nodup_of_two_pages (by omega : page - 1 < page) ?_ hfirst hsecond
      (hperm.nodup_iff.mpr hnodup)
    by_contra hge
    have hle : n * limit ≤ page * limit := Nat.mul_le_mul_right limit (by omega)
    omega
  · intro hsep found hfound
    obtain ⟨whole, hwhole⟩ := exists_arranged key items
    refine (pages_perm hsep hfound n hwhole).trans ?_
    rw [List.take_of_length_le (by rw [hwhole.length]; exact hn)]
    exact hwhole.perm

/-- Keys that are all different separate everywhere. -/
theorem separated_of_nodup (h : (items.map key).Nodup) (hlimit : 0 < limit) :
    Separated key items limit := by
  intro page hpos hlt heq
  have hnodup : (sortedKeys key items).Nodup := sortedKeys_perm.nodup_iff.mpr h
  have hlength : (sortedKeys key items).length = items.length := by
    rw [sortedKeys_perm.length_eq, List.length_map]
  have hborder := Nat.mul_pos hpos hlimit
  have hbefore : page * limit - 1 < (sortedKeys key items).length := by omega
  have hindex := (List.getElem?_inj hbefore hnodup).mp heq
  omega

omit [LinearOrder κ] in
theorem mem_of_mem_pages (hfound : ∀ page, ∀ a ∈ found page, a ∈ items) {n : Nat} {a : α}
    (h : a ∈ pages limit found n) : a ∈ items := by
  induction n with
  | zero => exact absurd h List.not_mem_nil
  | succ n ih =>
    rw [pages_succ, List.mem_append] at h
    rcases h with h | h
    · exact ih h
    · exact hfound n a (List.mem_of_mem_drop (List.mem_of_mem_take h))

omit [LinearOrder κ] in
/-- Where a value tells the items apart, lists of them are alike if their values are. -/
theorem perm_of_map_perm {γ : Type} {f : α → γ} {found : List α} (hnodup : (items.map f).Nodup)
    (hfound : ∀ a ∈ found, a ∈ items) (h : (found.map f).Perm (items.map f)) :
    found.Perm items := by
  have hfoundNodup : found.Nodup := (h.nodup_iff.mpr hnodup).of_map
  refine (List.perm_ext_iff_of_nodup hfoundNodup hnodup.of_map).mpr ?_
  intro a
  constructor
  · exact hfound a
  · intro ha
    obtain ⟨b, hb, heq⟩ := List.mem_map.mp (h.symm.subset (List.mem_map_of_mem ha))
    exact List.inj_on_of_nodup_map hnodup (hfound b hb) ha heq ▸ hb

end

end IotSaas.Lib
