import Mathlib.Data.List.Basic
import Mathlib.Data.List.Induction
import Mathlib.Logic.Function.Basic

/-!
# `Lib/Allocation.lean` — handing out what there is one of each

Places that ask for something, each with what it has now, what fits it and what it would rather
have. A first pass lets a place keep what it has (`keepAll`), a second one gives the others the
first free thing of their preference (`fillAll`). Nothing is handed out twice (`Sound`); who keeps
what (`keepAll_kept`), and when a place is left without (`fillAll_empty`), depends on the places
before it only.
-/

set_option autoImplicit false

namespace IotSaas.Lib

/-- What each place was given, `none` where its turn has not come, and what is gone. -/
structure Allocation (S P : Type) where
  placed : S → Option (Option P)
  taken : List P

/-- A place that asks. -/
structure Request (S P : Type) where
  slot : S
  wish : Option P
  fits : P → Bool
  prefer : List P

namespace Allocation

variable {S P : Type} {reserved : List P}

/-- Nothing handed out, some of it held back. -/
def start (reserved : List P) : Allocation S P := ⟨fun _ => none, reserved⟩

/-- What is gone is held back or in one place, and nothing held back is in any. -/
structure Sound (reserved : List P) (a : Allocation S P) : Prop where
  taken_iff : ∀ p, p ∈ a.taken ↔ p ∈ reserved ∨ ∃ s, a.placed s = some (some p)
  apart : ∀ s p, a.placed s = some (some p) → p ∉ reserved
  distinct : ∀ s t p, a.placed s = some (some p) → a.placed t = some (some p) → s = t

theorem sound_start : Sound reserved (start reserved : Allocation S P) where
  taken_iff p := by simp [start]
  apart s p h := by cases h
  distinct s t p h := by cases h

variable [DecidableEq S]

def put (a : Allocation S P) (s : S) (v : Option P) : Allocation S P :=
  ⟨Function.update a.placed s (some v), v.toList ++ a.taken⟩

@[simp] theorem placed_put (a : Allocation S P) (s : S) (v : Option P) :
    (a.put s v).placed s = some v := Function.update_self ..

theorem placed_put_of_ne (a : Allocation S P) {s t : S} (v : Option P) (h : t ≠ s) :
    (a.put s v).placed t = a.placed t := Function.update_of_ne h ..

variable {a : Allocation S P} {v : Option P}

theorem Sound.put (h : a.Sound reserved) {s : S} (hs : a.placed s = none)
    (hv : ∀ p, v = some p → p ∉ a.taken) : (a.put s v).Sound reserved := by
  have hfree : ∀ t p, a.placed t = some (some p) → v ≠ some p := fun t p ht hvp =>
    hv p hvp ((h.taken_iff p).mpr (.inr ⟨t, ht⟩))
  have hplaced : ∀ t p, (a.put s v).placed t = some (some p) →
      t = s ∧ v = some p ∨ t ≠ s ∧ a.placed t = some (some p) := by
    intro t p ht
    by_cases hts : t = s
    · subst hts
      rw [placed_put] at ht
      exact .inl ⟨rfl, Option.some.inj ht⟩
    · rw [placed_put_of_ne a v hts] at ht
      exact .inr ⟨hts, ht⟩
  refine ⟨fun p => ?_, fun t p ht => ?_, fun t u p ht hu => ?_⟩
  · have htaken : p ∈ (a.put s v).taken ↔ v = some p ∨ p ∈ a.taken := by
      simp [Allocation.put]
    rw [htaken, h.taken_iff p]
    constructor
    · rintro (rfl | hreserved | ⟨t, ht⟩)
      · exact .inr ⟨s, placed_put a s _⟩
      · exact .inl hreserved
      · have hts : t ≠ s := by
          rintro rfl
          rw [hs] at ht
          cases ht
        exact .inr ⟨t, by rw [placed_put_of_ne a v hts, ht]⟩
    · rintro (hreserved | ⟨t, ht⟩)
      · exact .inr (.inl hreserved)
      · rcases hplaced t p ht with ⟨-, hvp⟩ | ⟨-, ht⟩
        · exact .inl hvp
        · exact .inr (.inr ⟨t, ht⟩)
  · rcases hplaced t p ht with ⟨-, hvp⟩ | ⟨-, ht⟩
    · exact fun hreserved => hv p hvp ((h.taken_iff p).mpr (.inl hreserved))
    · exact h.apart t p ht
  · rcases hplaced t p ht with ⟨rfl, hvp⟩ | ⟨-, ht⟩
    · rcases hplaced u p hu with ⟨rfl, -⟩ | ⟨-, hu⟩
      · rfl
      · exact absurd hvp (hfree u p hu)
    · rcases hplaced u p hu with ⟨-, hvp⟩ | ⟨-, hu⟩
      · exact absurd hvp (hfree t p ht)
      · exact h.distinct t u p ht hu

/-! ## The first pass -/

variable [DecidableEq P]

/-- The place keeps what it has, if that fits and is still there. -/
def keep (a : Allocation S P) (r : Request S P) : Allocation S P :=
  match r.wish with
  | some p => if p ∉ a.taken ∧ r.fits p = true then a.put r.slot (some p) else a
  | none => a

def keepAll (a : Allocation S P) (rs : List (Request S P)) : Allocation S P := rs.foldl keep a

theorem keep_cases (a : Allocation S P) (r : Request S P) :
    (∃ p, r.wish = some p ∧ p ∉ a.taken ∧ r.fits p = true ∧ a.keep r = a.put r.slot (some p)) ∨
      (a.keep r = a ∧ ∀ p, r.wish = some p → r.fits p = true → p ∈ a.taken) := by
  unfold keep
  cases hwish : r.wish with
  | none => exact .inr ⟨rfl, fun p hp => by cases hp⟩
  | some p =>
    by_cases hfree : p ∉ a.taken ∧ r.fits p = true
    · exact .inl ⟨p, rfl, hfree.1, hfree.2, if_pos hfree⟩
    · refine .inr ⟨if_neg hfree, fun q hq hfits => ?_⟩
      cases hq
      exact not_not.mp fun hnot => hfree ⟨hnot, hfits⟩

theorem keepAll_concat (a : Allocation S P) (rs : List (Request S P)) (r : Request S P) :
    a.keepAll (rs ++ [r]) = (a.keepAll rs).keep r := List.foldl_concat ..

theorem keepAll_append (a : Allocation S P) (rs ts : List (Request S P)) :
    a.keepAll (rs ++ ts) = (a.keepAll rs).keepAll ts := List.foldl_append

variable {rs : List (Request S P)}

/-- A place that does not ask is left as it is. -/
theorem keepAll_placed_of_not_mem (a : Allocation S P) {s : S} (h : s ∉ rs.map Request.slot) :
    (a.keepAll rs).placed s = a.placed s := by
  induction rs generalizing a with
  | nil => rfl
  | cons r rest ih =>
    rw [List.map_cons, List.mem_cons, not_or] at h
    refine (ih (a.keep r) h.2).trans ?_
    rcases keep_cases a r with ⟨p, -, -, -, hkeep⟩ | ⟨hkeep, -⟩
    · rw [hkeep, placed_put_of_ne a _ h.1]
    · rw [hkeep]

/-- What is in a place after the first pass was there before. -/
theorem keepAll_wish {s : S} (h : ((start reserved).keepAll rs).placed s = some v) :
    ∃ r ∈ rs, r.slot = s ∧ ∃ p, v = some p ∧ r.wish = some p ∧ r.fits p = true := by
  induction rs using List.reverseRecOn with
  | nil => cases h
  | append_singleton rs r ih =>
    rw [keepAll_concat] at h
    have hearlier : ((start reserved).keepAll rs).placed s = some v →
        ∃ r' ∈ rs ++ [r], r'.slot = s ∧ ∃ p, v = some p ∧ r'.wish = some p ∧ r'.fits p = true :=
      fun h => (ih h).imp fun r' hr' => ⟨List.mem_append_left _ hr'.1, hr'.2⟩
    rcases keep_cases ((start reserved).keepAll rs) r with ⟨p, hwish, -, hfits, hkeep⟩ | ⟨hkeep, -⟩
    · rw [hkeep] at h
      by_cases hs : s = r.slot
      · subst hs
        rw [placed_put] at h
        exact ⟨r, by simp, rfl, p, (Option.some.inj h).symm, hwish, hfits⟩
      · rw [placed_put_of_ne _ _ hs] at h
        exact hearlier h
    · rw [hkeep] at h
      exact hearlier h

variable {r : Request S P}

/-- What fits a place that has it is gone after its turn. -/
theorem mem_taken_keepAll {a : Allocation S P} {rs : List (Request S P)} {r : Request S P}
    (hr : r ∈ rs) {p : P} (hwish : r.wish = some p) (hfits : r.fits p = true) :
    p ∈ (a.keepAll rs).taken := by
  have hmono : ∀ (rs : List (Request S P)) (a : Allocation S P), p ∈ a.taken →
      p ∈ (a.keepAll rs).taken := by
    intro rs
    induction rs with
    | nil => exact fun a h => h
    | cons t rest ih =>
      intro a h
      refine ih (a.keep t) ?_
      rcases keep_cases a t with ⟨q, -, -, -, hkeep⟩ | ⟨hkeep, -⟩
      · rw [hkeep]
        exact List.mem_append_right _ h
      · rwa [hkeep]
  induction rs generalizing a with
  | nil => cases hr
  | cons t rest ih =>
    rcases List.mem_cons.mp hr with rfl | hr
    · refine hmono rest (a.keep r) ?_
      rcases keep_cases a r with ⟨q, hq, -, -, hkeep⟩ | ⟨hkeep, htaken⟩
      · cases hwish.symm.trans hq
        rw [hkeep]
        exact List.mem_append_left _ (by simp)
      · rw [hkeep]
        exact htaken p hwish hfits
    · exact ih hr

theorem keepAll_sound (h : (rs.map Request.slot).Nodup) :
    ((start reserved : Allocation S P).keepAll rs).Sound reserved := by
  induction rs using List.reverseRecOn with
  | nil => exact sound_start
  | append_singleton rs r ih =>
    rw [List.map_append, List.map_singleton] at h
    obtain ⟨hrest, -, hfresh⟩ := List.nodup_append.mp h
    have hnone : ((start reserved : Allocation S P).keepAll rs).placed r.slot = none := by
      rw [keepAll_placed_of_not_mem _ fun hmem =>
        hfresh _ hmem _ (List.mem_singleton.mpr rfl) rfl]
      rfl
    rw [keepAll_concat]
    rcases keep_cases ((start reserved).keepAll rs) r with ⟨p, -, hfree, -, hkeep⟩ | ⟨hkeep, -⟩
    · rw [hkeep]
      exact (ih hrest).put hnone fun q hq => by
        cases hq
        exact hfree
    · rw [hkeep]
      exact ih hrest

/-- **A place keeps what fits it**, unless that is held back or fits a place before it that has it
too. -/
theorem keepAll_kept {before after : List (Request S P)}
    (hslots : ((before ++ r :: after).map Request.slot).Nodup) {p : P} (hwish : r.wish = some p)
    (hfits : r.fits p = true) (hreserved : p ∉ reserved) :
    ((start reserved).keepAll (before ++ r :: after)).placed r.slot = some (some p) ∨
      ∃ r' ∈ before, r'.wish = some p ∧ r'.fits p = true := by
  have hsplit : before ++ r :: after = before ++ [r] ++ after := by simp
  rw [hsplit, List.map_append, List.map_append, List.map_singleton] at hslots
  obtain ⟨hslots, -, hafter⟩ := List.nodup_append.mp hslots
  obtain ⟨hbefore, -, -⟩ := List.nodup_append.mp hslots
  have hstay : r.slot ∉ after.map Request.slot := fun hmem => hafter _ (by simp) _ hmem rfl
  rw [hsplit, keepAll_append, keepAll_placed_of_not_mem _ hstay, keepAll_concat]
  rcases keep_cases ((start reserved).keepAll before) r with ⟨q, hq, -, -, hkeep⟩ | ⟨-, htaken⟩
  · cases hwish.symm.trans hq
    rw [hkeep, placed_put]
    exact .inl rfl
  · have hsound : ((start reserved).keepAll before).Sound reserved := keepAll_sound hbefore
    rcases (hsound.taken_iff p).mp (htaken p hwish hfits) with hmem | ⟨s, hs⟩
    · exact absurd hmem hreserved
    · obtain ⟨r', hr', -, q, hq, hwish', hfits'⟩ := keepAll_wish hs
      cases hq
      exact .inr ⟨r', hr', hwish', hfits'⟩

/-! ## The second pass -/

/-- A place that has nothing yet is given the first of its preference that is free. -/
def fill (a : Allocation S P) (r : Request S P) : Allocation S P :=
  if (a.placed r.slot).isSome then a
  else a.put r.slot (r.prefer.find? fun p => decide (p ∉ a.taken))

def fillAll (a : Allocation S P) (rs : List (Request S P)) : Allocation S P := rs.foldl fill a

theorem fill_of_placed (h : a.placed r.slot = some v) : a.fill r = a := by
  rw [fill, h]
  rfl

theorem fill_of_none (h : a.placed r.slot = none) :
    a.fill r = a.put r.slot (r.prefer.find? fun p => decide (p ∉ a.taken)) := by
  rw [fill, h]
  rfl

theorem fillAll_append (a : Allocation S P) (rs ts : List (Request S P)) :
    a.fillAll (rs ++ ts) = (a.fillAll rs).fillAll ts := List.foldl_append

/-- What has been given is not taken away. -/
theorem fillAll_placed {s : S} (h : a.placed s = some v) : (a.fillAll rs).placed s = some v := by
  induction rs generalizing a with
  | nil => exact h
  | cons r rest ih =>
    refine ih (a := a.fill r) ?_
    cases hr : a.placed r.slot with
    | some w => rwa [fill_of_placed hr]
    | none =>
      have hs : s ≠ r.slot := by
        rintro rfl
        rw [hr] at h
        cases h
      rwa [fill_of_none hr, placed_put_of_ne _ _ hs]

theorem fillAll_sound (h : a.Sound reserved) (rs : List (Request S P)) :
    (a.fillAll rs).Sound reserved := by
  induction rs generalizing a with
  | nil => exact h
  | cons r rest ih =>
    refine ih (a := a.fill r) ?_
    cases hr : a.placed r.slot with
    | some w => rwa [fill_of_placed hr]
    | none =>
      rw [fill_of_none hr]
      exact h.put hr fun p hp => by simpa using List.find?_some hp

/-- Every place has had its turn. -/
theorem fillAll_isSome (h : r ∈ rs) : ∃ v, (a.fillAll rs).placed r.slot = some v := by
  induction rs generalizing a with
  | nil => cases h
  | cons r' rest ih =>
    rcases List.mem_cons.mp h with rfl | h
    · cases hr : a.placed r.slot with
      | some v => exact ⟨v, fillAll_placed hr⟩
      | none =>
        have hturn : (a.fill r).placed r.slot =
            some (r.prefer.find? fun p => decide (p ∉ a.taken)) := by
          rw [fill_of_none hr, placed_put]
        have hstay : ((a.fill r).fillAll rest).placed r.slot = _ := fillAll_placed hturn
        exact ⟨_, hstay⟩
    · exact ih h

/-- What the second pass gives is of the place's preference. -/
theorem fillAll_prefer {s : S} (h : (a.fillAll rs).placed s = some v) :
    a.placed s = some v ∨
      a.placed s = none ∧ ∃ r ∈ rs, r.slot = s ∧ ∀ p, v = some p → p ∈ r.prefer := by
  induction rs generalizing a with
  | nil => exact .inl h
  | cons r rest ih =>
    rcases ih (a := a.fill r) h with hfill | ⟨hnone, r', hr', hslot, hprefer⟩
    · cases hr : a.placed r.slot with
      | some w =>
        rw [fill_of_placed hr] at hfill
        exact .inl hfill
      | none =>
        rw [fill_of_none hr] at hfill
        by_cases hs : s = r.slot
        · subst hs
          rw [placed_put] at hfill
          refine .inr ⟨hr, r, List.mem_cons_self, rfl, fun p hp => ?_⟩
          rw [← Option.some.inj hfill] at hp
          exact List.mem_of_find?_eq_some hp
        · rw [placed_put_of_ne _ _ hs] at hfill
          exact .inl hfill
    · refine .inr ⟨?_, r', List.mem_cons_of_mem _ hr', hslot, hprefer⟩
      cases hs : a.placed s with
      | none => rfl
      | some w =>
        have hkept : (a.fillAll [r]).placed s = some w := fillAll_placed hs
        rw [fillAll, List.foldl_cons, List.foldl_nil, hnone] at hkept
        cases hkept

/-- **A place is left without** if all of its preference was gone when its turn came. -/
theorem fillAll_empty {before after : List (Request S P)} (hr : a.placed r.slot = none)
    (hbefore : r.slot ∉ before.map Request.slot)
    (h : (a.fillAll (before ++ r :: after)).placed r.slot = some none) :
    ∀ p ∈ r.prefer, p ∈ (a.fillAll before).taken := by
  have hnone : (a.fillAll before).placed r.slot = none := by
    cases hturn : (a.fillAll before).placed r.slot with
    | none => rfl
    | some v =>
      rcases fillAll_prefer hturn with hgiven | ⟨-, r', hr', hslot, -⟩
      · rw [hr] at hgiven
        cases hgiven
      · exact absurd (hslot ▸ List.mem_map_of_mem hr') hbefore
  rw [fillAll_append] at h
  have hgiven : ((a.fillAll before).fill r).placed r.slot =
      some (r.prefer.find? fun p => decide (p ∉ (a.fillAll before).taken)) := by
    rw [fill_of_none hnone, placed_put]
  have hstay : (((a.fillAll before).fill r).fillAll after).placed r.slot = _ :=
    fillAll_placed hgiven
  have hfind := Option.some.inj (hstay.symm.trans h)
  intro p hp
  simpa using List.find?_eq_none.mp hfind p hp

end Allocation
end IotSaas.Lib
