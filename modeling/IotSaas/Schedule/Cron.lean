import IotSaas.Editor.Draft
import IotSaas.Lib.Decimal
import IotSaas.Lib.Zipped

/-!
# `Schedule/Cron.lean` — five fields, and the minutes they match

`cronField` and `cronParts` of `lib/schedule.ts`: what the schedule picker reads a cron text as. A
number of any length is read as it is; where JavaScript would round it, it is out of every field's
bounds, or a step past every field's end.

Which minutes a reading matches (`CronParts.Matches`) depends on the sets of values and on whether
the two day fields are a plain `*`. A field that is a number, a `*` or a step from `*` is read off
its value alone (`cronField_number`, `cronField_every`), however it is spelled.
-/

set_option autoImplicit false

namespace IotSaas.Schedule

open Lib
open Editor (isJsSpace)

/-! ## One field -/

/-- `\*|\d+(?:-\d+)?`. -/
inductive Span where
  | all
  | one (a : Nat)
  | range (a b : Nat)

def readSpan (chars : List Char) : Option Span :=
  if chars = ['*'] then some .all
  else
    match chars.splitOn '-' with
    | [a] => (readDecimal a).map .one
    | [a, b] => (readDecimal a).bind fun a => (readDecimal b).map (.range a)
    | _ => none

/-- One part of a field, with its step if it has one. -/
def readPart (chars : List Char) : Option (Span × Option Nat) :=
  match chars.splitOn '/' with
  | [span] => (readSpan span).map (·, none)
  | [span, step] => (readSpan span).bind fun span => (readDecimal step).map (span, some ·)
  | _ => none

/-- `a`, `a + step`, … up to `b`. -/
def stepped (a b step : Nat) : List Nat :=
  (List.range ((b - a) / step + 1)).map fun i => a + i * step

/-- Where a span begins, and where it ends if it says so. -/
def Span.bounds (lo hi : Nat) : Span → Nat × Option Nat
  | .all => (lo, some hi)
  | .one a => (a, none)
  | .range a b => (a, some b)

/-- The values from `a` to `b`, unless these are out of the field's bounds. -/
def spanValues (lo hi a b step : Nat) : Option (List Nat) :=
  if a < lo ∨ hi < b ∨ b < a ∨ step < 1 then none
  else some ((stepped a b step).map fun v => if hi = 7 ∧ v = 7 then 0 else v)

/-- The values of one part. -/
def partValues (lo hi : Nat) (part : List Char) : Option (List Nat) :=
  (readPart part).bind fun (span, step) =>
    let (a, b) := span.bounds lo hi
    spanValues lo hi a (b.getD (if step.isSome then hi else a)) (step.getD 1)

/-- `cronField`. -/
def cronField (field : String) (lo hi : Nat) : Option (List Nat) :=
  ((field.toList.splitOn ',').mapM (partValues lo hi)).map fun values => ascending values.flatten

/-! ## Five fields -/

structure RawCron where
  minute : String
  hour : String
  dom : String
  month : String
  dow : String

structure CronParts where
  raw : RawCron
  minutes : List Nat
  hours : List Nat
  dom : List Nat
  months : List Nat
  dow : List Nat

/-- `trim().split(/\s+/)`. A blank text has one empty field there and none here. -/
def cronFields (cron : String) : List String :=
  ((cron.toList.splitOnP isJsSpace).filter fun field => !field.isEmpty).map String.ofList

/-- `cronParts`. -/
def cronParts (cron : String) : Option CronParts :=
  match cronFields cron with
  | [minute, hour, dom, month, dow] =>
      match cronField minute 0 59, cronField hour 0 23, cronField dom 1 31, cronField month 1 12,
          cronField dow 0 7 with
      | some minutes, some hours, some doms, some months, some dows =>
          if [minutes, hours, doms, months, dows].any List.isEmpty then none
          else some ⟨⟨minute, hour, dom, month, dow⟩, minutes, hours, doms, months, dows⟩
      | _, _, _, _, _ => none
  | _ => none

/-- `WallTime`: a wall-clock minute; `dow` is 0 on Sunday. -/
structure WallTime where
  year : Int
  month : Nat
  day : Nat
  hour : Nat
  minute : Nat
  dow : Nat
  deriving DecidableEq

/-- Cron's day rule: when both day fields are restricted, either may match. -/
def CronParts.dayOk (parts : CronParts) (day dow : Nat) : Bool :=
  if parts.raw.dom = "*" ∧ parts.raw.dow = "*" then true
  else if parts.raw.dom = "*" then parts.dow.contains dow
  else if parts.raw.dow = "*" then parts.dom.contains day
  else parts.dom.contains day || parts.dow.contains dow

/-- The minute is one of the cron's. -/
structure CronParts.Matches (parts : CronParts) (w : WallTime) : Prop where
  month : w.month ∈ parts.months
  day : parts.dayOk w.day w.dow = true
  hour : w.hour ∈ parts.hours
  minute : w.minute ∈ parts.minutes

/-- What the five readings are of. -/
structure CronParts.Read (parts : CronParts) : Prop where
  minutes : cronField parts.raw.minute 0 59 = some parts.minutes
  hours : cronField parts.raw.hour 0 23 = some parts.hours
  dom : cronField parts.raw.dom 1 31 = some parts.dom
  months : cronField parts.raw.month 1 12 = some parts.months
  dow : cronField parts.raw.dow 0 7 = some parts.dow
  someMinute : parts.minutes ≠ []
  someHour : parts.hours ≠ []
  someDom : parts.dom ≠ []
  someMonth : parts.months ≠ []
  someDow : parts.dow ≠ []

def RawCron.fields (raw : RawCron) : List String :=
  [raw.minute, raw.hour, raw.dom, raw.month, raw.dow]

theorem cronParts_eq_some {cron : String} {parts : CronParts} :
    cronParts cron = some parts ↔ cronFields cron = parts.raw.fields ∧ parts.Read := by
  constructor
  · intro h
    unfold cronParts at h
    split at h
    · rename_i minute hour dom month dow hfields
      split at h
      · rename_i minutes hours doms months dows hminutes hhours hdoms hmonths hdows
        split at h
        · cases h
        · rename_i hsome
          cases h
          simp only [List.any_cons, List.any_nil, Bool.or_false, Bool.or_eq_true, not_or,
            List.isEmpty_iff] at hsome
          obtain ⟨h1, h2, h3, h4, h5⟩ := hsome
          exact ⟨hfields, hminutes, hhours, hdoms, hmonths, hdows, h1, h2, h3, h4, h5⟩
      · cases h
    · cases h
  · rintro ⟨hfields, hread⟩
    have hsome : [parts.minutes, parts.hours, parts.dom, parts.months, parts.dow].any
        List.isEmpty = false := by
      simp [hread.someMinute, hread.someHour, hread.someDom, hread.someMonth, hread.someDow]
    simp only [cronParts, hfields, RawCron.fields, hread.minutes, hread.hours, hread.dom,
      hread.months, hread.dow, hsome, Bool.false_eq_true, if_false]

/-! ## Reading what is printed -/

theorem mem_stepped {a b step v : Nat} (hab : a ≤ b) (hstep : 0 < step) :
    v ∈ stepped a b step ↔ a ≤ v ∧ v ≤ b ∧ step ∣ v - a := by
  rw [stepped, List.mem_map]
  constructor
  · rintro ⟨i, hi, rfl⟩
    have hi' : i ≤ (b - a) / step := by
      have := List.mem_range.mp hi
      omega
    have hle : i * step ≤ b - a := (Nat.le_div_iff_mul_le hstep).mp hi'
    exact ⟨by omega, by omega, ⟨i, by rw [Nat.mul_comm step i]; omega⟩⟩
  · rintro ⟨hav, hvb, i, hi⟩
    refine ⟨i, List.mem_range.mpr ?_, ?_⟩
    · have hle : i * step ≤ b - a := by
        rw [Nat.mul_comm]
        omega
      have := (Nat.le_div_iff_mul_le hstep).mpr hle
      omega
    · rw [Nat.mul_comm]
      omega

variable {field : String}

theorem cronField_of_part {lo hi : Nat} (h : ',' ∉ field.toList) :
    cronField field lo hi = (partValues lo hi field.toList).map ascending := by
  rw [cronField, List.splitOn_eq_singleton h]
  cases hpart : partValues lo hi field.toList with
  | none => simp [hpart]
  | some values => simp [hpart]

theorem not_mem_of_digits {chars : List Char} {c : Char} (h : ∀ d ∈ chars, d.isDigit = true)
    (hc : c.isDigit = false) : c ∉ chars := by
  intro hmem
  rw [h c hmem] at hc
  cases hc

theorem readPart_number {chars : List Char} {n : Nat} (h : readDecimal chars = some n) :
    readPart chars = some (.one n, none) := by
  obtain ⟨-, hdigits⟩ := isDigit_of_readDecimal h
  have hstar : chars ≠ ['*'] := by
    rintro rfl
    cases hdigits '*' List.mem_cons_self
  rw [readPart, List.splitOn_eq_singleton (not_mem_of_digits hdigits (by decide))]
  simp only [readSpan, if_neg hstar,
    List.splitOn_eq_singleton (not_mem_of_digits hdigits (c := '-') (by decide)), h, Option.map_some]

theorem partValues_number {chars : List Char} {n : Nat} (h : readDecimal chars = some n)
    (lo hi : Nat) : partValues lo hi chars =
      if lo ≤ n ∧ n ≤ hi then some [if hi = 7 ∧ n = 7 then 0 else n] else none := by
  rw [partValues, readPart_number h]
  show spanValues lo hi n n 1 = _
  unfold spanValues
  by_cases hrange : lo ≤ n ∧ n ≤ hi
  · have hok : ¬ (n < lo ∨ hi < n ∨ n < n ∨ 1 < 1) := by omega
    rw [if_neg hok, if_pos hrange]
    simp [stepped]
  · have hbad : n < lo ∨ hi < n ∨ n < n ∨ 1 < 1 := by omega
    rw [if_pos hbad, if_neg hrange]

/-- **A number** is a field of one value. -/
theorem cronField_number {n : Nat} (h : readDecimal field.toList = some n) (lo hi : Nat) :
    cronField field lo hi =
      if lo ≤ n ∧ n ≤ hi then some [if hi = 7 ∧ n = 7 then 0 else n] else none := by
  obtain ⟨-, hdigits⟩ := isDigit_of_readDecimal h
  rw [cronField_of_part (not_mem_of_digits hdigits (by decide)), partValues_number h]
  split
  · rw [Option.map_some, ascending_of_pairwise (List.pairwise_singleton _ _)]
  · rfl

/-- `days.join(",")`. -/
def joinNumbers (numbers : List Nat) : String := ",".intercalate (numbers.map Nat.repr)

theorem splitOn_joinNumbers {numbers : List Nat} (h : numbers ≠ []) :
    (joinNumbers numbers).toList.splitOn ',' = numbers.map fun n => n.repr.toList := by
  rw [joinNumbers, String.toList_intercalate, List.map_map]
  refine List.splitOn_intercalate ',' (fun piece hpiece => ?_) (by simpa using h)
  obtain ⟨n, -, rfl⟩ := List.mem_map.mp hpiece
  exact not_mem_of_digits (fun c hc => isDigit_of_mem_repr hc) (by decide)

theorem joinNumbers_injective {first second : List Nat} (hfirst : first ≠ []) (hsecond : second ≠ [])
    (h : joinNumbers first = joinNumbers second) : first = second := by
  have hsplit := splitOn_joinNumbers hfirst
  rw [h, splitOn_joinNumbers hsecond] at hsplit
  exact (List.map_injective_iff.mpr
    (fun m n hmn => repr_injective (String.toList_inj.mp hmn)) hsplit).symm

/-- A weekday 7 is Sunday. -/
def weekday (d : Nat) : Nat := if d = 7 then 0 else d

/-- The weekdays of a list, in order. -/
def weekdaysOf (days : List Nat) : List Nat := ascending (days.map weekday)

/-- Joined numbers are read back as the set of them. -/
theorem cronField_joinNumbers {days : List Nat} (hne : days ≠ []) (hdays : ∀ d ∈ days, d ≤ 7) :
    cronField (joinNumbers days) 0 7 = some (weekdaysOf days) := by
  have hparts : ∀ days : List Nat, (∀ d ∈ days, d ≤ 7) →
      (days.map fun n => n.repr.toList).mapM (partValues 0 7) =
        some (days.map fun d => [weekday d]) := by
    intro days
    induction days with
    | nil => intro _; rfl
    | cons d rest ih =>
      intro hdays
      have hd := hdays d List.mem_cons_self
      have hvalue : partValues 0 7 d.repr.toList = some [weekday d] := by
        rw [partValues_number (readDecimal_repr d), if_pos (by omega)]
        simp [weekday]
      rw [List.map_cons, List.mapM_cons, hvalue, ih fun e he => hdays e (List.mem_cons_of_mem _ he)]
      rfl
  have hflat : ∀ days : List Nat, (days.map fun d => [weekday d]).flatten = days.map weekday := by
    intro days
    induction days with
    | nil => rfl
    | cons d rest ih =>
      rw [List.map_cons, List.flatten_cons, ih, List.singleton_append, List.map_cons]
  rw [cronField, splitOn_joinNumbers hne, hparts days hdays, Option.map_some, hflat, weekdaysOf]

theorem cronField_joinNumbers_none {days : List Nat} {d : Nat} (hd : d ∈ days) (h : 7 < d) :
    cronField (joinNumbers days) 0 7 = none := by
  have hpart : partValues 0 7 d.repr.toList = none := by
    rw [partValues_number (readDecimal_repr d), if_neg (by omega)]
  rw [cronField, splitOn_joinNumbers (List.ne_nil_of_mem hd), Option.map_eq_none_iff]
  cases hvalues : (days.map fun n => n.repr.toList).mapM (partValues 0 7) with
  | none => rfl
  | some values =>
    have hsome := mapM_isSome.mp ⟨_, hvalues⟩ _ (List.mem_map_of_mem hd)
    rw [hpart] at hsome
    cases hsome

/-- What follows `*/`, where that is a number. -/
def everyStep (field : String) : Option Nat :=
  match field.toList with
  | '*' :: '/' :: rest => readDecimal rest
  | _ => none

/-- The values of `*/step`. -/
def everyValues (lo hi step : Nat) : List Nat :=
  ascending ((stepped lo hi step).map fun v => if hi = 7 ∧ v = 7 then 0 else v)

/-- **A step from `*`** is read off the step. -/
theorem cronField_every {n : Nat} (h : everyStep field = some n) {lo hi : Nat} (hlo : lo ≤ hi) :
    cronField field lo hi =
      if 0 < n then some (everyValues lo hi n) else none := by
  unfold everyStep at h
  split at h
  · rename_i rest hfield
    obtain ⟨-, hdigits⟩ := isDigit_of_readDecimal h
    have hslash : ('*' :: '/' :: rest).splitOn '/' = [['*'], rest] := by
      have hrest := List.splitOn_eq_singleton (not_mem_of_digits hdigits (c := '/') (by decide))
      have hsplit : (['*'] ++ '/' :: rest).splitOn '/' = ['*'] :: rest.splitOn '/' :=
        List.splitOn_append_cons_self_of_not_mem (by decide) _
      rw [hrest] at hsplit
      exact hsplit
    have hpart : readPart ('*' :: '/' :: rest) = some (.all, some n) := by
      rw [readPart, hslash]
      simp [readSpan, h]
    have hcomma : ',' ∉ field.toList := by
      rw [hfield]
      have := not_mem_of_digits hdigits (c := ',') (by decide)
      simp [this]
    rw [cronField_of_part hcomma, hfield, partValues, hpart]
    show (spanValues lo hi lo hi n).map ascending = _
    unfold spanValues
    by_cases hn : 0 < n
    · have hok : ¬ (lo < lo ∨ hi < hi ∨ hi < lo ∨ n < 1) := by omega
      rw [if_neg hok, if_pos hn]
      rfl
    · have hbad : lo < lo ∨ hi < hi ∨ hi < lo ∨ n < 1 := by omega
      rw [if_pos hbad, if_neg hn]
      rfl
  · cases h

theorem everyStep_of_number {n : Nat} (h : readDecimal field.toList = some n) :
    everyStep field = none := by
  obtain ⟨-, hdigits⟩ := isDigit_of_readDecimal h
  unfold everyStep
  split
  · rename_i rest hfield
    rw [hfield] at hdigits
    cases hdigits '*' List.mem_cons_self
  · rfl

theorem cronField_star {lo hi : Nat} (hlo : lo ≤ hi) :
    cronField "*" lo hi = some (everyValues lo hi 1) := by
  have hpart : readPart "*".toList = some (.all, none) := by rfl
  rw [cronField_of_part (by decide), partValues, hpart]
  show (spanValues lo hi lo hi 1).map ascending = _
  have hok : ¬ (lo < lo ∨ hi < hi ∨ hi < lo ∨ 1 < 1) := by omega
  rw [spanValues, if_neg hok]
  rfl

theorem spanValues_bounds {lo hi a b step : Nat} {values : List Nat}
    (h : spanValues lo hi a b step = some values) :
    ∀ v ∈ values, v ≤ hi ∧ (lo ≤ v ∨ hi = 7) ∧ (hi = 7 → v ≤ 6) := by
  unfold spanValues at h
  split at h
  · cases h
  · rename_i hok
    cases h
    intro v hv
    obtain ⟨w, hw, rfl⟩ := List.mem_map.mp hv
    have hbounds := (mem_stepped (by omega) (by omega)).mp hw
    split <;> omega

/-- What a field reads as: values within its bounds, in order; a weekday 7 is 0. -/
theorem cronField_spec {lo hi : Nat} {values : List Nat} (h : cronField field lo hi = some values) :
    values.Pairwise (· < ·) ∧
      ∀ v ∈ values, v ≤ hi ∧ (lo ≤ v ∨ hi = 7) ∧ (hi = 7 → v ≤ 6) := by
  obtain ⟨parts, hparts, rfl⟩ := Option.map_eq_some_iff.mp h
  refine ⟨ascending_pairwise _, fun v hv => ?_⟩
  obtain ⟨part, hpart, hv⟩ := List.mem_flatten.mp (mem_ascending.mp hv)
  obtain ⟨chars, -, hchars⟩ := exists_of_forall₂ (forall₂_of_mapM hparts) hpart
  obtain ⟨⟨span, step⟩, -, hvalues⟩ := Option.bind_eq_some_iff.mp hchars
  exact spanValues_bounds hvalues v hv

/-! ## Five printed fields -/

/-- What crons are printed in. -/
def isCronChar (c : Char) : Bool := c.isDigit || c = '*' || c = '/' || c = ',' || c = '-'

theorem isCronChar_of_isDigit {c : Char} (h : c.isDigit = true) : isCronChar c = true := by
  simp [isCronChar, h]

theorem isCronChar_bounds {c : Char} (h : isCronChar c = true) : 42 ≤ c.toNat ∧ c.toNat ≤ 57 := by
  simp only [isCronChar, Bool.or_eq_true, decide_eq_true_eq] at h
  rcases h with (((hdigit | rfl) | rfl) | rfl) | rfl
  · have := digit_bounds hdigit
    omega
  all_goals decide

/-- A text that stands between blanks as it is. -/
def IsField (field : String) : Prop :=
  field.toList ≠ [] ∧ ∀ c ∈ field.toList, isCronChar c = true

/-- Printed fields are split at the blanks between them, whatever else counts as a blank. -/
theorem fields_joined {space : Char → Bool} (hspace : space ' ' = true)
    (hclean : ∀ c, isCronChar c = true → space c = false) {fields : List String}
    (h : ∀ f ∈ fields, ∀ c ∈ f.toList, isCronChar c = true) :
    (((" ".intercalate fields).toList.splitOnP space).filter fun field => !field.isEmpty).map
      String.ofList = fields.filter fun field => !field.toList.isEmpty := by
  have hpieces : ∀ piece ∈ fields.map String.toList, ∀ c ∈ piece, space c = false := by
    intro piece hpiece
    obtain ⟨f, hf, rfl⟩ := List.mem_map.mp hpiece
    exact fun c hc => hclean c (h f hf c hc)
  rw [String.toList_intercalate]
  show List.map String.ofList (List.filter _ (List.splitOnP space ([' '].intercalate _))) = _
  rw [filter_splitOnP_joined hspace hpieces, List.filter_map, List.map_map]
  exact List.map_id'' (fun f => String.ofList_toList) _

theorem not_jsSpace_of_cronChar {c : Char} (h : isCronChar c = true) : isJsSpace c = false := by
  have hbounds := isCronChar_bounds h
  simp only [isJsSpace, Bool.or_eq_false_iff, Bool.and_eq_false_iff, decide_eq_false_iff_not]
  omega

theorem filter_fields {fields : List String} (h : ∀ f ∈ fields, IsField f) :
    fields.filter (fun field => !field.toList.isEmpty) = fields :=
  List.filter_eq_self.mpr fun f hf => by simpa using (h f hf).1

theorem cronFields_joined {fields : List String} (h : ∀ f ∈ fields, IsField f) :
    cronFields (" ".intercalate fields) = fields := by
  rw [cronFields, fields_joined (by decide) (fun _ => not_jsSpace_of_cronChar)
    fun f hf => (h f hf).2, filter_fields h]

theorem isField_repr (n : Nat) : IsField n.repr :=
  ⟨repr_ne_nil n, fun _ hc => isCronChar_of_isDigit (isDigit_of_mem_repr hc)⟩

theorem isField_star : IsField "*" := ⟨by decide, List.all_eq_true.mp rfl⟩

/-- `*/n`. -/
def everyField (n : Nat) : String := "*/" ++ n.repr

theorem everyStep_everyField (n : Nat) : everyStep (everyField n) = some n := by
  have hchars : (everyField n).toList = '*' :: '/' :: n.repr.toList := by
    rw [everyField, String.toList_append]
    rfl
  rw [everyStep, hchars]
  exact readDecimal_repr n

theorem isField_everyField (n : Nat) : IsField (everyField n) := by
  have hchars : (everyField n).toList = '*' :: '/' :: n.repr.toList := by
    rw [everyField, String.toList_append]
    rfl
  refine ⟨by simp [hchars], fun c hc => ?_⟩
  rw [hchars] at hc
  rcases List.mem_cons.mp hc with rfl | hc
  · decide
  · rcases List.mem_cons.mp hc with rfl | hc
    · decide
    · exact (isField_repr n).2 c hc

theorem mem_joinNumbers {c : Char} : ∀ {numbers : List Nat}, c ∈ (joinNumbers numbers).toList →
    c = ',' ∨ c.isDigit = true
  | [], hc => by
      simp [joinNumbers] at hc
  | [n], hc => by
      rw [joinNumbers, List.map_cons, List.map_nil, String.intercalate_singleton] at hc
      exact .inr (isDigit_of_mem_repr hc)
  | n :: next :: others, hc => by
      rw [joinNumbers, List.map_cons, List.map_cons, String.intercalate_cons_cons,
        String.toList_append, String.toList_append] at hc
      rcases List.mem_append.mp hc with hc | hc
      · rcases List.mem_append.mp hc with hc | hc
        · exact .inr (isDigit_of_mem_repr hc)
        · exact .inl (by simpa using hc)
      · exact @mem_joinNumbers c (next :: others) hc

theorem joinNumbers_ne_nil {numbers : List Nat} (h : numbers ≠ []) :
    (joinNumbers numbers).toList ≠ [] := by
  intro hnil
  have hsplit := splitOn_joinNumbers h
  rw [hnil] at hsplit
  cases numbers with
  | nil => exact h rfl
  | cons n rest =>
    rw [List.map_cons, List.splitOn_nil, List.cons.injEq] at hsplit
    exact repr_ne_nil n hsplit.1.symm

theorem isField_joinNumbers {numbers : List Nat} (h : numbers ≠ []) :
    IsField (joinNumbers numbers) := by
  refine ⟨joinNumbers_ne_nil h, fun c hc => ?_⟩
  rcases mem_joinNumbers hc with rfl | hdigit
  · decide
  · exact isCronChar_of_isDigit hdigit

end IotSaas.Schedule
