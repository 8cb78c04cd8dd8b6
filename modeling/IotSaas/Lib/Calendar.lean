import Mathlib.Algebra.GroupWithZero.Nat
import Mathlib.Data.List.Basic
import Mathlib.Data.List.GetD
import Mathlib.Tactic.ByContra

/-!
# `Lib/Calendar.lean` — the Gregorian calendar and its day numbers

Days numbered from 1 January 1970, for every year before and after: which number a date has
(`Date.number`), which date a number is (`dateOfDay`), and its weekday. The numbering is one to one
(`dateOfDay_number`, `number_dateOfDay`) and follows the order of the dates (`number_lt_iff`).
-/

set_option autoImplicit false

namespace IotSaas.Lib

/-! ## Years -/

def isLeap (year : Int) : Bool := year % 4 = 0 && (year % 100 ≠ 0 || year % 400 = 0)

/-- The number of 1 January. -/
def dayFromYear (year : Int) : Int :=
  365 * (year - 1970) + (year - 1969) / 4 - (year - 1901) / 100 + (year - 1601) / 400

def yearLength (leap : Bool) : Nat := if leap then 366 else 365

theorem dayFromYear_succ (year : Int) :
    dayFromYear (year + 1) = dayFromYear year + yearLength (isLeap year) := by
  unfold dayFromYear yearLength isLeap
  split
  · rename_i h
    simp at h
    omega
  · rename_i h
    simp at h
    omega

theorem dayFromYear_lt {a b : Int} (h : a < b) : dayFromYear (a + 1) ≤ dayFromYear b := by
  unfold dayFromYear
  omega

/-- The year a day is in: four hundred years have 146097 days, so the guess is one year off at
most. -/
def yearFromDay (day : Int) : Int :=
  let year := 1970 + day * 400 / 146097
  if day < dayFromYear year then year - 1
  else if dayFromYear (year + 1) ≤ day then year + 1
  else year

theorem yearFromDay_spec (day : Int) :
    dayFromYear (yearFromDay day) ≤ day ∧ day < dayFromYear (yearFromDay day + 1) := by
  unfold yearFromDay
  dsimp only
  generalize hyear : 1970 + day * 400 / 146097 = year
  have hlo : dayFromYear (year - 1) ≤ day := by
    unfold dayFromYear
    omega
  have hhi : day < dayFromYear (year + 1 + 1) := by
    unfold dayFromYear
    omega
  split
  · rename_i h
    exact ⟨hlo, by rwa [Int.sub_add_cancel]⟩
  · split
    · exact ⟨by assumption, hhi⟩
    · exact ⟨by omega, by omega⟩

theorem yearFromDay_eq {day year : Int} (hlo : dayFromYear year ≤ day)
    (hhi : day < dayFromYear (year + 1)) : yearFromDay day = year := by
  obtain ⟨hlo', hhi'⟩ := yearFromDay_spec day
  by_contra hne
  rcases Int.lt_or_gt_of_ne hne with hlt | hlt
  · have := dayFromYear_lt hlt
    omega
  · have := dayFromYear_lt hlt
    omega

/-! ## Months -/

def monthLengths (leap : Bool) : List Nat :=
  [31, if leap then 29 else 28, 31, 30, 31, 30, 31, 31, 30, 31, 30, 31]

theorem sum_monthLengths (leap : Bool) : (monthLengths leap).sum = yearLength leap := by
  cases leap <;> rfl

/-- In which of the stretches a day is, counted from 0, and the how manieth of it. -/
def splitDays : List Nat → Nat → Nat × Nat
  | [], d => (0, d)
  | len :: rest, d =>
      if d < len then (0, d) else ((splitDays rest (d - len)).1 + 1, (splitDays rest (d - len)).2)

theorem splitDays_spec {lengths : List Nat} {d : Nat} (h : d < lengths.sum) :
    (splitDays lengths d).1 < lengths.length ∧
      (splitDays lengths d).2 < lengths.getD (splitDays lengths d).1 0 ∧
      (lengths.take (splitDays lengths d).1).sum + (splitDays lengths d).2 = d := by
  induction lengths generalizing d with
  | nil => cases h
  | cons len rest ih =>
    rw [List.sum_cons] at h
    unfold splitDays
    by_cases hd : d < len
    · rw [if_pos hd]
      exact ⟨Nat.succ_pos _, hd, by simp⟩
    · rw [if_neg hd]
      obtain ⟨h1, h2, h3⟩ := ih (d := d - len) (by omega)
      refine ⟨Nat.succ_lt_succ h1, by simpa using h2, ?_⟩
      rw [List.take_succ_cons, List.sum_cons]
      omega

theorem splitDays_eq {lengths : List Nat} {m r : Nat} (hr : r < lengths.getD m 0) :
    splitDays lengths ((lengths.take m).sum + r) = (m, r) := by
  induction lengths generalizing m with
  | nil => cases hr
  | cons len rest ih =>
    unfold splitDays
    cases m with
    | zero =>
      have hr : r < len := hr
      simp [hr]
    | succ m =>
      rw [List.take_succ_cons, List.sum_cons]
      have hge : ¬ len + (rest.take m).sum + r < len := by omega
      have hsub : len + (rest.take m).sum + r - len = (rest.take m).sum + r := by omega
      rw [if_neg hge, hsub, ih (m := m) hr]

/-- A stretch ends before a later one begins. -/
theorem sum_take_le {lengths : List Nat} {m n r : Nat} (hr : r < lengths.getD m 0) (h : m < n) :
    (lengths.take m).sum + r < (lengths.take n).sum := by
  induction lengths generalizing m n with
  | nil => cases hr
  | cons len rest ih =>
    cases n with
    | zero => cases h
    | succ n =>
      rw [List.take_succ_cons, List.sum_cons]
      cases m with
      | zero =>
        have hr : r < len := hr
        rw [List.take_zero, List.sum_nil]
        omega
      | succ m =>
        rw [List.take_succ_cons, List.sum_cons]
        have := ih (m := m) (n := n) hr (by omega)
        omega

/-! ## Dates -/

structure Date where
  year : Int
  /-- 1 to 12. -/
  month : Nat
  day : Nat
  deriving DecidableEq

namespace Date

def lengths (d : Date) : List Nat := monthLengths (isLeap d.year)

/-- How long the date's month is. -/
def monthLength (d : Date) : Nat := d.lengths.getD (d.month - 1) 0

structure Valid (d : Date) : Prop where
  month : 1 ≤ d.month
  day : 1 ≤ d.day
  last : d.day ≤ d.monthLength

instance (d : Date) : Decidable d.Valid :=
  decidable_of_iff (1 ≤ d.month ∧ 1 ≤ d.day ∧ d.day ≤ d.monthLength)
    ⟨fun h => ⟨h.1, h.2.1, h.2.2⟩, fun h => ⟨h.month, h.day, h.last⟩⟩

/-- Days of the year before the date. -/
def before (d : Date) : Nat := (d.lengths.take (d.month - 1)).sum

/-- The number of a date; past the end of a month the numbers go on. -/
def number (d : Date) : Int := dayFromYear d.year + d.before + d.day - 1

end Date

def dateOfDay (day : Int) : Date :=
  let year := yearFromDay day
  let split := splitDays (monthLengths (isLeap year)) (day - dayFromYear year).toNat
  ⟨year, split.1 + 1, split.2 + 1⟩

/-- 0 is Sunday; 1 January 1970 was a Thursday. -/
def weekdayOf (day : Int) : Nat := ((day + 4) % 7).toNat

/-- A number's date is there, and has the number. -/
theorem number_dateOfDay (day : Int) :
    (dateOfDay day).Valid ∧ (dateOfDay day).number = day := by
  obtain ⟨hlo, hhi⟩ := yearFromDay_spec day
  rw [dayFromYear_succ] at hhi
  have hlt : (day - dayFromYear (yearFromDay day)).toNat <
      (monthLengths (isLeap (yearFromDay day))).sum := by
    rw [sum_monthLengths]
    omega
  obtain ⟨-, hday, hsum⟩ := splitDays_spec hlt
  constructor
  · exact ⟨Nat.le_add_left _ _, Nat.le_add_left _ _, hday⟩
  · have hbefore : ((dateOfDay day).before : Int) + ((dateOfDay day).day : Int) - 1 =
        ((day - dayFromYear (yearFromDay day)).toNat : Int) := by
      have hbefore : (dateOfDay day).before = ((monthLengths (isLeap (yearFromDay day))).take
          (splitDays (monthLengths (isLeap (yearFromDay day)))
            (day - dayFromYear (yearFromDay day)).toNat).1).sum := rfl
      have hday : (dateOfDay day).day = (splitDays (monthLengths (isLeap (yearFromDay day)))
          (day - dayFromYear (yearFromDay day)).toNat).2 + 1 := rfl
      omega
    have hyear : (dateOfDay day).year = yearFromDay day := rfl
    unfold Date.number
    rw [hyear]
    omega

namespace Date

variable {a b d : Date}

theorem Valid.bounds (h : d.Valid) :
    dayFromYear d.year ≤ d.number ∧ d.number < dayFromYear (d.year + 1) := by
  have hlt := @sum_take_le d.lengths (d.month - 1) d.lengths.length (d.day - 1)
    (Nat.lt_of_lt_of_le (Nat.sub_lt h.day Nat.one_pos) h.last) ?_
  · rw [List.take_length, lengths, sum_monthLengths] at hlt
    rw [dayFromYear_succ]
    have hday := h.day
    unfold number before lengths
    omega
  · by_contra hlong
    have hnone : d.monthLength = 0 := List.getD_eq_default _ _ (by omega)
    have := h.last
    have := h.day
    omega

theorem before_le (d : Date) : d.before ≤ 366 := by
  have hsplit := congrArg List.sum (List.take_append_drop (d.month - 1) d.lengths)
  rw [List.sum_append, lengths, sum_monthLengths] at hsplit
  have hyear : yearLength (isLeap d.year) ≤ 366 := by
    unfold yearLength
    split <;> omega
  unfold before lengths
  omega

/-- A date is the date of its number. -/
theorem dateOfDay_number (h : d.Valid) : dateOfDay d.number = d := by
  obtain ⟨hlo, hhi⟩ := h.bounds
  have hyear := yearFromDay_eq hlo hhi
  have hday := h.day
  have hrest : (d.number - dayFromYear d.year).toNat = d.before + (d.day - 1) := by
    unfold number
    omega
  have hlast : d.day - 1 < (monthLengths (isLeap d.year)).getD (d.month - 1) 0 :=
    Nat.lt_of_lt_of_le (Nat.sub_lt h.day Nat.one_pos) h.last
  have hsplit := splitDays_eq hlast
  unfold dateOfDay
  simp only [hyear, hrest]
  rw [before, lengths, hsplit]
  obtain ⟨year, month, day⟩ := d
  have hmonth := h.month
  simp only [mk.injEq, true_and]
  exact ⟨Nat.sub_add_cancel hmonth, Nat.sub_add_cancel hday⟩

/-- One date is before another. -/
def Before (a b : Date) : Prop :=
  a.year < b.year ∨ a.year = b.year ∧ (a.month < b.month ∨ a.month = b.month ∧ a.day < b.day)

theorem Before.number_lt (ha : a.Valid) (hb : b.Valid) (h : a.Before b) : a.number < b.number := by
  rcases h with hyear | ⟨hyear, hmonth | ⟨hmonth, hday⟩⟩
  · have := dayFromYear_lt hyear
    have := ha.bounds
    have := hb.bounds
    omega
  · have hlast : a.day - 1 < a.lengths.getD (a.month - 1) 0 :=
      Nat.lt_of_lt_of_le (Nat.sub_lt ha.day Nat.one_pos) ha.last
    have hlt := sum_take_le hlast (n := b.month - 1) (by
      have := ha.month
      omega)
    have hlengths : b.lengths = a.lengths := by rw [lengths, lengths, hyear]
    have := ha.day
    have := hb.day
    unfold number before
    rw [hlengths, hyear]
    omega
  · unfold number before lengths
    rw [hyear, hmonth]
    omega

theorem eq_of_number (ha : a.Valid) (hb : b.Valid) (h : a.number = b.number) : a = b := by
  rw [← dateOfDay_number ha, h, dateOfDay_number hb]

/-- The numbers go the way of the dates. -/
theorem number_lt_iff (ha : a.Valid) (hb : b.Valid) : a.number < b.number ↔ a.Before b := by
  constructor
  · intro hlt
    by_contra hnot
    have hother : a = b ∨ b.Before a := by
      clear hlt
      obtain ⟨year, month, day⟩ := a
      obtain ⟨year', month', day'⟩ := b
      simp only [Before, mk.injEq] at hnot ⊢
      omega
    rcases hother with rfl | hba
    · omega
    · have := hba.number_lt hb ha
      omega
  · exact Before.number_lt ha hb

end Date

example : dateOfDay 0 = ⟨1970, 1, 1⟩ := by decide

end IotSaas.Lib
