import IotSaas.Api.ChangeLines
import IotSaas.Schedule.Picker

/-!
# `Schedule/Wording.lean` — two describers of one schedule

`cronHuman` of `lib/schedule.ts` words a schedule for the editor, `cron_human` of
`rules/versions.py` words it for the change history, and the two are kept in step by hand. The
history reads the weekday field as it is spelled. So it lists all seven days where the editor says
`every day`, has no words for a list of no days, and takes `1-5` and `0,6` for weekdays and weekends
in no other spelling. On everything else the picker prints the two are the same
(`human_agree_iff`).
-/

set_option autoImplicit false

namespace IotSaas.Schedule

open Lib
open Api (Digits numberOf)

/-! ## The editor's words -/

/-- `ordinal`. -/
def ordinal (n : Nat) : String :=
  n.repr ++
    if 11 ≤ n % 100 ∧ n % 100 ≤ 13 then "th" else ["th", "st", "nd", "rd"].getD (n % 10) "th"

/-- `DOW`. -/
def dow : List String := ["Sun", "Mon", "Tue", "Wed", "Thu", "Fri", "Sat"]

/-- `DOW_ORDER`. -/
def dowOrder : List Nat := [1, 2, 3, 4, 5, 6, 0]

def dayList (days : List Nat) : String :=
  ", ".intercalate ((dowOrder.filter fun d => days.contains d).map fun d => dow.getD d "")

/-- `daysText`. -/
def daysText (days : List Nat) : String :=
  let k := joinNumbers (sortDays days)
  if k = "1,2,3,4,5" then "weekdays"
  else if k = "0,6" then "weekends"
  else if days.length = 7 then "every day"
  else dayList days

/-- What a template literal prints for a field that may be missing. -/
def literal {α : Type} (text : α → String) (value : Option α) : String :=
  (value.map text).getD "undefined"

/-- When a schedule of no plain mode runs, if that has words. -/
def customWhen (parts : CronParts) : Option String :=
  if parts.raw.month = "*" then
    if parts.raw.dom = "*" ∧ parts.raw.dow = "*" then some "every day"
    else if parts.raw.dom = "*" then some (daysText parts.dow)
    else
      match parts.dom with
      | [day] =>
          if parts.raw.dow = "*" then some ("on the " ++ ordinal day ++ " of each month") else none
      | _ => none
  else none

/-- The words for a schedule of no plain mode. -/
def customText (parts : CronParts) : String :=
  let times := parts.hours.flatMap fun hour =>
    parts.minutes.map fun minute => ClockTime.text ⟨hour, minute⟩
  match customWhen parts with
  | some text =>
      if parts.minutes.length * parts.hours.length ≤ 4 then
        text ++ " at " ++ ", ".intercalate times.dropLast ++
          (if 1 < times.length then " and " else "") ++ times.getLastD "undefined"
      else "on a custom schedule"
  | none => "on a custom schedule"

/-- `cronHuman`. -/
def cronHuman (cron : String) : String :=
  let s := scheduleFromCron cron
  let time := literal ClockTime.text s.time
  match s.mode with
  | .daily => "every day at " ++ time
  | .days => daysText (s.days.getD []) ++ " at " ++ time
  | .monthly => "on the " ++ ordinal (s.dom.getD 1) ++ " of each month at " ++ time
  | .every =>
      if s.unit = some .min then "every " ++ literal Nat.repr s.n ++ " min"
      else if s.n = some 1 then "every hour at :" ++ pad2 (s.pastHour.getD 0)
      else "every " ++ literal Nat.repr s.n ++ " hours at :" ++ pad2 (s.pastHour.getD 0)
  | .custom =>
      match cronParts cron with
      | none => "invalid schedule"
      | some parts => customText parts

/-! ## Numbers in the history's reading -/

/-- The digits of ASCII are those Python knows, and nothing else there is one. -/
def Digits.Ascii (digits : Digits) : Prop :=
  ∀ c : Char, c.toNat < 128 → digits c = if c.isDigit then some (c.toNat - '0'.toNat) else none

section

variable {digits : Digits} (hdigits : Digits.Ascii digits)

include hdigits

theorem numberOf_eq {text : List Char} (htext : ∀ c ∈ text, isCronChar c = true) :
    numberOf digits text = readDecimal text := by
  have hfold : ∀ {text : List Char}, (∀ c ∈ text, isCronChar c = true) → ∀ n : Nat,
      text.foldl (fun n c => n.bind fun n => (digits c).map fun d => 10 * n + d) (some n) =
        if text.all Char.isDigit = true then some (Nat.ofDigitChars 10 text n) else none := by
    intro text
    induction text with
    | nil => exact fun _ n => by simp
    | cons c rest ih =>
      intro htext n
      have hc := isCronChar_bounds (htext c List.mem_cons_self)
      have hrest := ih fun d hd => htext d (List.mem_cons_of_mem _ hd)
      rw [List.foldl_cons, hdigits c (by omega)]
      cases hdigit : c.isDigit with
      | true =>
        simp only [if_true, Option.map_some, Option.bind_some, hrest, List.all_cons, hdigit,
          Bool.true_and, Nat.ofDigitChars_cons]
      | false =>
        have hnone : ∀ rest : List Char, rest.foldl
            (fun n c => n.bind fun n => (digits c).map fun d => 10 * n + d) none = none := by
          intro rest
          induction rest with
          | nil => rfl
          | cons d rest ih => exact ih
        simpa [hdigit] using hnone rest
  unfold numberOf readDecimal
  rw [hfold htext]
  cases text with
  | nil => simp
  | cons c rest => simp

theorem numberOf_repr (n : Nat) : numberOf digits n.repr.toList = some n := by
  rw [numberOf_eq hdigits (isField_repr n).2, readDecimal_repr]

end

/-! ## Both readings of a printed text -/

theorem not_space_of_cronChar {c : Char} (h : isCronChar c = true) :
    Catalog.isSpace c = false := by
  have hbounds := isCronChar_bounds h
  simp only [Catalog.isSpace, Bool.or_eq_false_iff, Bool.and_eq_false_iff, decide_eq_false_iff_not]
  omega

theorem historyParts_joined {fields : List String}
    (h : ∀ f ∈ fields, ∀ c ∈ f.toList, isCronChar c = true) :
    Api.cronParts (" ".intercalate fields) = fields.filter fun field => !field.toList.isEmpty := by
  rw [Api.cronParts, fields_joined (by decide) (fun _ => not_space_of_cronChar) h]

section

variable {minute hour dom month dow : String}
  (hfields : ∀ f ∈ [minute, hour, dom, month, dow], IsField f)

include hfields

theorem historyParts_cronText :
    Api.cronParts (cronText minute hour dom month dow) = [minute, hour, dom, month, dow] := by
  rw [cronText, historyParts_joined fun f hf => (hfields f hf).2, filter_fields hfields]

theorem cronParts_cronText {minutes hours doms months dows : List Nat}
    (hminute : cronField minute 0 59 = some minutes) (hhour : cronField hour 0 23 = some hours)
    (hdom : cronField dom 1 31 = some doms) (hmonth : cronField month 1 12 = some months)
    (hdow : cronField dow 0 7 = some dows) (hminutes : minutes ≠ []) (hhours : hours ≠ [])
    (hdoms : doms ≠ []) (hmonths : months ≠ []) (hdows : dows ≠ []) :
    cronParts (cronText minute hour dom month dow) =
      some ⟨⟨minute, hour, dom, month, dow⟩, minutes, hours, doms, months, dows⟩ :=
  cronParts_eq_some.mpr ⟨cronFields_joined hfields,
    ⟨hminute, hhour, hdom, hmonth, hdow, hminutes, hhours, hdoms, hmonths, hdows⟩⟩

/-- One field that cannot be read is enough. -/
theorem cronHuman_invalid (h : cronField minute 0 59 = none ∨ cronField hour 0 23 = none ∨
    cronField dom 1 31 = none ∨ cronField dow 0 7 = none) :
    cronHuman (cronText minute hour dom month dow) = "invalid schedule" := by
  have hnone : cronParts (cronText minute hour dom month dow) = none := by
    cases hparts : cronParts (cronText minute hour dom month dow) with
    | none => rfl
    | some parts =>
      obtain ⟨hraw, hread⟩ := cronParts_eq_some.mp hparts
      rw [cronText, cronFields_joined hfields] at hraw
      simp only [RawCron.fields, List.cons.injEq, and_true] at hraw
      obtain ⟨rfl, rfl, rfl, rfl, rfl⟩ := hraw
      simp [hread.minutes, hread.hours, hread.dom, hread.dow] at h
  simp [cronHuman, scheduleFromCron, hnone]

end

variable {digits : Digits}

theorem numberOf_star (hdigits : Digits.Ascii digits) :
    numberOf digits "*".toList = none := by
  rw [numberOf_eq hdigits isField_star.2, readDecimal_star]

theorem everyField_toList (n : Nat) : (everyField n).toList = '*' :: '/' :: n.repr.toList := by
  rw [everyField, String.toList_append]
  rfl

theorem numberOf_everyField (hdigits : Digits.Ascii digits) (n : Nat) :
    numberOf digits (everyField n).toList = none := by
  rw [numberOf_eq hdigits (isField_everyField n).2, everyField_toList]
  simp [readDecimal]

theorem everyPart_everyField (hdigits : Digits.Ascii digits) (n : Nat) :
    Api.everyPart digits (everyField n) = some n.repr := by
  rw [Api.everyPart, everyField_toList]
  simp only [numberOf_repr hdigits, Option.map_some, String.ofList_toList]

/-- The history's words for a time of day. -/
theorem history_timed (hdigits : Digits.Ascii digits) {minute hour : Nat} {dom dow text : String}
    (hdom : IsField dom) (hdow : IsField dow)
    (htext : Api.dailyText digits minute hour dom dow = some text) :
    Api.cronHuman digits (cronText minute.repr hour.repr dom "*" dow) = text := by
  have hfields : ∀ f ∈ [minute.repr, hour.repr, dom, "*", dow], IsField f := by
    simp [isField_repr, isField_star, hdom, hdow]
  rw [Api.cronHuman, historyParts_cronText hfields]
  simp only [numberOf_repr hdigits, if_true, htext, Option.some_or, Option.getD_some]

/-- The history's words for a repeat. -/
theorem history_repeated {minute hour text : String} (hminute : IsField minute)
    (hhour : IsField hour)
    (hnumber : numberOf digits minute.toList = none ∨ numberOf digits hour.toList = none)
    (htext : Api.repeatedText digits minute hour = some text) :
    Api.cronHuman digits (cronText minute hour "*" "*" "*") = text := by
  have hfields : ∀ f ∈ [minute, hour, "*", "*", "*"], IsField f := by
    simp [isField_star, hminute, hhour]
  rw [Api.cronHuman, historyParts_cronText hfields]
  rcases hnumber with hnone | hnone
  · simp [hnone, htext]
  · cases hminutes : numberOf digits minute.toList with
    | none => simp [hnone, htext]
    | some n => simp [hnone, htext]

/-! ## Where one of them has no words -/

/-- The history's words for a readable schedule end in its minute. -/
def EndsInDigit (text : String) : Prop :=
  ∃ before c, text.toList = before ++ [c] ∧ c.isDigit = true

theorem EndsInDigit.append {text : String} (first : String) (h : EndsInDigit text) :
    EndsInDigit (first ++ text) := by
  obtain ⟨before, c, htext, hc⟩ := h
  exact ⟨first.toList ++ before, c, by rw [String.toList_append, htext, List.append_assoc], hc⟩

theorem endsInDigit_repr (n : Nat) : EndsInDigit n.repr := by
  have hlast := List.dropLast_append_getLast (repr_ne_nil n)
  exact ⟨_, _, hlast.symm, isDigit_of_mem_repr (List.getLast_mem (repr_ne_nil n))⟩

theorem endsInDigit_pad2 (n : Nat) : EndsInDigit (pad2 n) := by
  unfold pad2
  split
  · exact (endsInDigit_repr n).append "0"
  · exact endsInDigit_repr n

theorem EndsInDigit.ne_invalid {text : String} (h : EndsInDigit text) :
    text ≠ "invalid schedule" := by
  rintro rfl
  obtain ⟨before, c, htext, hc⟩ := h
  have hlast := congrArg List.getLast? htext
  rw [List.getLast?_append, List.getLast?_singleton, Option.some_or] at hlast
  have hchar : c = 'e' := Option.some.inj (hlast.symm.trans (by decide))
  rw [hchar] at hc
  cases hc

/-! ## Times of day -/

/-- The schedule of a time of day that can be read. -/
theorem scheduleFromCron_timed {minute hour : Nat} {dom dow : String} {doms dows : List Nat}
    (hminute : minute ≤ 59) (hhour : hour ≤ 23) (hdom : IsField dom) (hdow : IsField dow)
    (hdoms : cronField dom 1 31 = some doms) (hdows : cronField dow 0 7 = some dows)
    (hsomeDom : doms ≠ []) (hsomeDow : dows ≠ []) : ∃ months,
      cronParts (cronText minute.repr hour.repr dom "*" dow) =
        some ⟨⟨minute.repr, hour.repr, dom, "*", dow⟩, [minute], [hour], doms, months, dows⟩ ∧
      scheduleFromCron (cronText minute.repr hour.repr dom "*" dow) =
        timedFrom ⟨hour, minute⟩ dom dow dows := by
  have hfields : ∀ f ∈ [minute.repr, hour.repr, dom, "*", dow], IsField f := by
    simp [isField_repr, isField_star, hdom, hdow]
  have hminutes : cronField minute.repr 0 59 = some [minute] := by
    rw [cronField_number (readDecimal_repr minute), if_pos ⟨Nat.zero_le _, hminute⟩]
    simp
  have hhours : cronField hour.repr 0 23 = some [hour] := by
    rw [cronField_number (readDecimal_repr hour), if_pos ⟨Nat.zero_le _, hhour⟩]
    simp
  have hparts := cronParts_cronText hfields hminutes hhours hdoms (cronField_star (by decide)) hdows
    (List.cons_ne_nil _ _) (List.cons_ne_nil _ _) hsomeDom (by decide) hsomeDow
  refine ⟨_, hparts, ?_⟩
  simp only [scheduleFromCron, hparts, ne_eq, not_true_eq_false, if_false, readDecimal_repr]

theorem timed_invalid {minute hour : Nat} {dom dow : String} (hdom : IsField dom)
    (hdow : IsField dow) (h : ¬ (minute ≤ 59 ∧ hour ≤ 23)) :
    cronHuman (cronText minute.repr hour.repr dom "*" dow) = "invalid schedule" := by
  have hfields : ∀ f ∈ [minute.repr, hour.repr, dom, "*", dow], IsField f := by
    simp [isField_repr, isField_star, hdom, hdow]
  refine cronHuman_invalid hfields ?_
  rw [cronField_number (readDecimal_repr minute), cronField_number (readDecimal_repr hour)]
  by_cases hminute : minute ≤ 59
  · exact .inr (.inl (if_neg (by omega)))
  · exact .inl (if_neg (by omega))

/-- A time of the clock. -/
def ClockTime.Valid (time : ClockTime) : Prop := time.minute ≤ 59 ∧ time.hour ≤ 23

theorem ClockTime.endsInDigit (time : ClockTime) : EndsInDigit time.text :=
  (endsInDigit_pad2 time.minute).append _

/-- The picker's cron for a day field and a weekday field. -/
def ClockTime.cron (time : ClockTime) (dom dow : String) : String :=
  cronText time.minute.repr time.hour.repr dom "*" dow

section

variable {digits : Digits} (hdigits : Digits.Ascii digits) {time : ClockTime} {dom dow : String}
  {doms dows : List Nat} {text : String}

include hdigits

/-- The two say the same of a time of day if the editor can read it and finds the same words. -/
theorem timed_agree_iff {P : Prop} (hdom : IsField dom) (hdow : IsField dow)
    (hhistory : Api.dailyText digits time.minute time.hour dom dow = some text)
    (hends : EndsInDigit text)
    (hvalid : time.Valid → (text = cronHuman (time.cron dom dow) ↔ P)) :
    Api.cronHuman digits (time.cron dom dow) = cronHuman (time.cron dom dow) ↔
      time.Valid ∧ P := by
  have hword : Api.cronHuman digits (time.cron dom dow) = text :=
    history_timed hdigits hdom hdow hhistory
  rw [hword]
  by_cases htime : time.Valid
  · rw [hvalid htime]
    exact ⟨fun h => ⟨htime, h⟩, fun h => h.2⟩
  · have hinvalid : cronHuman (time.cron dom dow) = "invalid schedule" :=
      timed_invalid hdom hdow htime
    rw [hinvalid]
    exact ⟨fun h => absurd h hends.ne_invalid, fun h => absurd h.1 htime⟩

end

/-! ## Ordinals and months -/

theorem ordinal_eq (n : Nat) : Api.ordinal n = ordinal n := by
  have hsuffix : ∀ m < 100,
      (if 10 ≤ m ∧ m ≤ 20 then "th" else if m % 10 = 1 then "st" else if m % 10 = 2 then "nd"
        else if m % 10 = 3 then "rd" else "th") =
      if 11 ≤ m ∧ m ≤ 13 then "th" else ["th", "st", "nd", "rd"].getD (m % 10) "th" := by
    decide
  have hmod : n % 10 = n % 100 % 10 := (Nat.mod_mod_of_dvd n (by decide)).symm
  unfold Api.ordinal ordinal
  rw [hmod, hsuffix (n % 100) (Nat.mod_lt n (by decide))]
  rfl

/-- A monthly schedule, in one of the plain modes or not. -/
theorem cronHuman_monthly {time : ClockTime} {day : Nat} (htime : time.Valid) (hlo : 1 ≤ day)
    (hhi : day ≤ 31) : cronHuman (time.cron day.repr "*") =
      "on the " ++ ordinal day ++ " of each month at " ++ time.text := by
  have hday : cronField day.repr 1 31 = some [day] := by
    rw [cronField_number (readDecimal_repr day), if_pos ⟨hlo, hhi⟩]
    simp
  have hne : day.repr ≠ "*" := fun h => by
    have hread := readDecimal_repr day
    rw [h, readDecimal_star] at hread
    cases hread
  obtain ⟨months, hparts, hschedule⟩ := scheduleFromCron_timed htime.1 htime.2 (isField_repr day)
    isField_star hday (cronField_star (by decide)) (List.cons_ne_nil _ _) (by decide)
  have hmonthly : timedFrom ⟨time.hour, time.minute⟩ day.repr "*" (everyValues 0 7 1) =
      if day ≤ 28 then { mode := .monthly, time := some time, dom := some day }
      else { mode := .custom } := by
    simp only [timedFrom, if_neg hne, readDecimal_repr, true_and]
  unfold ClockTime.cron cronHuman
  rw [hschedule, hparts, hmonthly]
  by_cases hplain : day ≤ 28
  · rw [if_pos hplain]
    rfl
  · rw [if_neg hplain]
    simp [customText, customWhen, hne, String.append_assoc]

/-! ## Lists of days -/

theorem dayList_congr {first second : List Nat} (h : ∀ d, d ∈ first ↔ d ∈ second) :
    dayList first = dayList second := by
  have hcontains : ∀ d, first.contains d = second.contains d := fun d => by
    rw [Bool.eq_iff_iff, List.contains_iff_mem, List.contains_iff_mem, h]
  simp only [dayList, hcontains]

/-- The history's words for a list of days. -/
def historyDays (days : List Nat) : String :=
  if sortDays days = [1, 2, 3, 4, 5] then "weekdays"
  else if sortDays days = [0, 6] then "weekends"
  else dayList (days.map (· % 7))

theorem joinNumbers_weekends : joinNumbers [0, 6] = "0,6" := by decide

variable {days : List Nat}

theorem sortDays_weekends (hne : days ≠ []) :
    joinNumbers (sortDays days) = "0,6" ↔ sortDays days = [0, 6] := by
  rw [← joinNumbers_weekends]
  exact ⟨joinNumbers_injective (sortDays_ne_nil hne) (by decide), fun h => by rw [h]⟩

theorem joinNumbers_sortDays_ne (hne : days ≠ []) :
    joinNumbers (sortDays days) ≠ "6,0" := by
  intro h
  have hbackwards : joinNumbers [6, 0] = "6,0" := by decide
  have hsorted : sortDays days = [6, 0] :=
    joinNumbers_injective (sortDays_ne_nil hne) (by decide) (h.trans hbackwards.symm)
  have hpairwise : (sortDays days).Pairwise (· ≤ ·) := List.pairwise_insertionSort _ _
  rw [hsorted] at hpairwise
  revert hpairwise
  decide

theorem joinNumbers_ne_range {numbers : List Nat} : joinNumbers numbers ≠ "1-5" := by
  intro h
  have hdash : '-' ∈ (joinNumbers numbers).toList := by
    rw [h]
    decide
  rcases mem_joinNumbers hdash with hcomma | hdigit
  · exact absurd hcomma (by decide)
  · cases hdigit

section

variable {digits : Digits} (hdigits : Digits.Ascii digits)

include hdigits

theorem dayNames_joinNumbers {days : List Nat} (hne : days ≠ []) :
    Api.dayNames digits (joinNumbers days) = some (dayList (days.map (· % 7))) := by
  have hnumbers : (days.map fun n => n.repr.toList).filterMap (numberOf digits) = days := by
    rw [List.filterMap_map]
    exact (List.filterMap_congr fun n _ => numberOf_repr hdigits n).trans List.filterMap_some
  unfold Api.dayNames
  dsimp only
  rw [splitOn_joinNumbers hne, hnumbers, if_pos (by simpa using hne)]
  rfl

theorem dailyText_daysField {days : List Nat} (hne : days ≠ []) (time : ClockTime) :
    Api.dailyText digits time.minute time.hour "*" (daysField days) =
      some (historyDays days ++ " at " ++ time.text) := by
  have hstar := daysField_ne_star hne
  unfold daysField at hstar ⊢
  dsimp only at hstar ⊢
  unfold Api.dailyText historyDays
  by_cases hweek : joinNumbers (sortDays days) = "1,2,3,4,5"
  · rw [if_pos hweek, if_pos ((sortDays_weekdays hne).mp hweek)]
    rfl
  · rw [if_neg hweek] at hstar
    rw [if_neg hweek, if_neg (mt (sortDays_weekdays hne).mpr hweek), if_pos rfl, if_neg hstar,
      if_neg joinNumbers_ne_range]
    by_cases hend : joinNumbers (sortDays days) = "0,6"
    · rw [if_pos (.inl hend), if_pos ((sortDays_weekends hne).mp hend)]
      rfl
    · have hnames : dayList ((sortDays days).map (· % 7)) = dayList (days.map (· % 7)) :=
        dayList_congr fun d => by simp only [List.mem_map, mem_sortDays]
      rw [if_neg fun h => h.elim hend (joinNumbers_sortDays_ne hne),
        if_neg (mt (sortDays_weekends hne).mpr hend),
        dayNames_joinNumbers hdigits (sortDays_ne_nil hne), hnames]
      rfl

end

theorem weekdaysOf_pairwise (days : List Nat) : (weekdaysOf days).Pairwise (· < ·) :=
  ascending_pairwise _

theorem mem_weekdaysOf {d : Nat} :
    d ∈ weekdaysOf days ↔ ∃ e ∈ days, weekday e = d := by
  rw [weekdaysOf, mem_ascending, List.mem_map]

theorem weekdaysOf_ne_nil (hne : days ≠ []) : weekdaysOf days ≠ [] := by
  obtain ⟨d, hd⟩ := List.exists_mem_of_ne_nil days hne
  exact List.ne_nil_of_mem (mem_weekdaysOf.mpr ⟨d, hd, rfl⟩)

theorem weekdaysOf_le (hdays : ∀ d ∈ days, d ≤ 7) :
    ∀ d ∈ weekdaysOf days, d ≤ 6 := by
  intro d hd
  obtain ⟨e, he, rfl⟩ := mem_weekdaysOf.mp hd
  have := hdays e he
  unfold weekday
  split <;> omega

theorem dayList_mod (hdays : ∀ d ∈ days, d ≤ 7) :
    dayList (days.map (· % 7)) = dayList (weekdaysOf days) := by
  have hmod : ∀ e ∈ days, e % 7 = weekday e := fun e he => by
    have := hdays e he
    unfold weekday
    split <;> omega
  refine dayList_congr fun d => ?_
  rw [List.mem_map, mem_weekdaysOf]
  exact exists_congr fun e => and_congr_right fun he => by rw [hmod e he]

/-- All seven of them, or not. -/
theorem weekdaysOf_all (hdays : ∀ d ∈ days, d ≤ 7) :
    (weekdaysOf days).length = 7 ↔ weekdaysOf days = [0, 1, 2, 3, 4, 5, 6] := by
  constructor
  · intro hlen
    have hsub : ∀ d ∈ weekdaysOf days, d ∈ List.range 7 := fun d hd =>
      List.mem_range.mpr (Nat.lt_succ_of_le (weekdaysOf_le hdays d hd))
    have hnodup : (weekdaysOf days).Nodup := (weekdaysOf_pairwise days).imp Nat.ne_of_lt
    have hperm : (weekdaysOf days).Perm (List.range 7) :=
      (List.subperm_of_subset hnodup hsub).perm_of_length_le (by simp [hlen])
    exact eq_of_ascending (weekdaysOf_pairwise days) (by decide) fun n => hperm.mem_iff
  · intro h
    rw [h]
    rfl

theorem daysText_ascending (hne : days ≠ []) (hordered : days.Pairwise (· < ·)) :
    daysText days = if days = [1, 2, 3, 4, 5] then "weekdays" else if days = [0, 6] then "weekends"
      else if days.length = 7 then "every day" else dayList days := by
  have hsort : sortDays days = days := (hordered.imp Nat.le_of_lt).insertionSort_eq
  unfold daysText
  dsimp only
  rw [hsort, ← joinNumbers_weekdays, ← joinNumbers_weekends]
  have hiff : ∀ {other : List Nat}, other ≠ [] →
      (joinNumbers days = joinNumbers other ↔ days = other) := fun hother =>
    ⟨joinNumbers_injective hne hother, fun h => by rw [h]⟩
  simp only [hiff (List.cons_ne_nil _ _)]

/-- Days that both describers have the same words for. -/
structure PlainDays (days : List Nat) : Prop where
  some : days ≠ []
  weekdays : ∀ d ∈ days, d ≤ 7
  /-- Not every day of the week. -/
  notAll : ∃ d < 7, d ∉ weekdaysOf days
  /-- Weekdays and weekends are listed day by day, each once and Sunday as 0. -/
  spelled : weekdaysOf days = [1, 2, 3, 4, 5] ∨ weekdaysOf days = [0, 6] →
    sortDays days = weekdaysOf days

theorem notAll_iff (hdays : ∀ d ∈ days, d ≤ 7) :
    (∃ d < 7, d ∉ weekdaysOf days) ↔ (weekdaysOf days).length ≠ 7 := by
  rw [ne_eq, weekdaysOf_all hdays]
  constructor
  · rintro ⟨d, hd, hmem⟩ hall
    rw [hall] at hmem
    exact hmem (by simp; omega)
  · intro hnot
    by_contra hall
    push Not at hall
    refine hnot (eq_of_ascending (weekdaysOf_pairwise days) (by decide) fun n => ?_)
    constructor
    · intro hn
      have := weekdaysOf_le hdays n hn
      simp
      omega
    · intro hn
      exact hall n (by simp at hn; omega)

/-- The same words for a list of days. -/
theorem days_agree_iff (hne : days ≠ []) (hdays : ∀ d ∈ days, d ≤ 7) :
    historyDays days = daysText (weekdaysOf days) ↔ PlainDays days := by
  rw [daysText_ascending (weekdaysOf_ne_nil hne) (weekdaysOf_pairwise days), historyDays,
    dayList_mod hdays]
  have hplain : PlainDays days ↔ (weekdaysOf days).length ≠ 7 ∧
      (weekdaysOf days = [1, 2, 3, 4, 5] ∨ weekdaysOf days = [0, 6] →
        sortDays days = weekdaysOf days) := by
    rw [← notAll_iff hdays]
    exact ⟨fun h => ⟨h.notAll, h.spelled⟩, fun h => ⟨hne, hdays, h.1, h.2⟩⟩
  rw [hplain]
  by_cases hweek : sortDays days = [1, 2, 3, 4, 5]
  · have hsame : weekdaysOf days = [1, 2, 3, 4, 5] := by
      rw [← weekdaysOf_sortDays, hweek]
      decide
    rw [if_pos hweek, if_pos hsame, hsame, hweek]
    simp
  · by_cases hend : sortDays days = [0, 6]
    · have hsame : weekdaysOf days = [0, 6] := by
        rw [← weekdaysOf_sortDays, hend]
        decide
      rw [if_neg hweek, if_pos hend, hsame, hend]
      simp
    · rw [if_neg hweek, if_neg hend]
      -- the history lists the days: the editor must list them too
      by_cases hlisted : weekdaysOf days = [1, 2, 3, 4, 5]
      · have hdiffer : dayList [1, 2, 3, 4, 5] ≠ "weekdays" := by decide
        rw [hlisted]
        simp [hdiffer, hweek]
      · by_cases hboth : weekdaysOf days = [0, 6]
        · have hdiffer : dayList [0, 6] ≠ "weekends" := by decide
          rw [hboth]
          simp [hdiffer, hend]
        · rw [if_neg hlisted, if_neg hboth]
          by_cases hall : (weekdaysOf days).length = 7
          · have hdiffer : dayList [0, 1, 2, 3, 4, 5, 6] ≠ "every day" := by decide
            rw [if_pos hall, (weekdaysOf_all hdays).mp hall]
            simp [hdiffer]
          · rw [if_neg hall]
            simp [hall, hlisted, hboth]

/-! ## Repeats -/

theorem clampRepeat_bounds (n : RepeatCount) (unit : RepeatUnit) :
    1 ≤ clampRepeat n unit ∧ clampRepeat n unit ≤ if unit = .min then 59 else 23 := by
  have hmost : 1 ≤ if unit = .min then 59 else 23 := by split <;> omega
  unfold clampRepeat
  cases n with
  | nan | below => exact ⟨Nat.le_refl 1, hmost⟩
  | above => exact ⟨hmost, Nat.le_refl _⟩
  | finite n =>
    dsimp only
    split
    · exact ⟨Nat.le_refl 1, hmost⟩
    · exact ⟨by omega, Nat.min_le_left _ _⟩

section

variable {minute hour : String} {minutes hours : List Nat}

/-- A repeat that can be read. -/
theorem scheduleFromCron_repeat (hminute : IsField minute) (hhour : IsField hour)
    (hminutes : cronField minute 0 59 = some minutes) (hhours : cronField hour 0 23 = some hours)
    (hsomeMinute : minutes ≠ []) (hsomeHour : hours ≠ [])
    (hrepeat : readDecimal minute.toList = none ∨ readDecimal hour.toList = none) :
    scheduleFromCron (cronText minute hour "*" "*" "*") = repeatFrom minute hour := by
  have hfields : ∀ f ∈ [minute, hour, "*", "*", "*"], IsField f := by
    simp [isField_star, hminute, hhour]
  have hparts := cronParts_cronText hfields hminutes hhours (cronField_star (by decide))
    (cronField_star (by decide)) (cronField_star (by decide)) hsomeMinute hsomeHour
    (by decide) (by decide) (by decide)
  unfold scheduleFromCron
  rw [hparts]
  rcases hrepeat with hnone | hnone
  · simp [hnone]
  · cases hread : readDecimal minute.toList with
    | none => simp [hnone, hread]
    | some n => simp [hnone, hread]

end

theorem readDecimal_everyField (n : Nat) : readDecimal (everyField n).toList = none := by
  rw [everyField_toList]
  simp [readDecimal]

theorem everyMinutes_agree (hdigits : Digits.Ascii digits) {n : Nat} (hn : 0 < n) :
    Api.cronHuman digits (cronText (everyField n) "*" "*" "*" "*") =
      cronHuman (cronText (everyField n) "*" "*" "*" "*") := by
  have hhistory : Api.repeatedText digits (everyField n) "*" =
      some ("every " ++ n.repr ++ " min") := by
    simp [Api.repeatedText, everyPart_everyField hdigits]
  have hschedule := scheduleFromCron_repeat (isField_everyField n) isField_star
    (cronField_everyField hn) (cronField_star (by decide)) (everyValues_ne_nil 59 hn) (by decide)
    (.inl (readDecimal_everyField n))
  rw [history_repeated (isField_everyField n) isField_star
    (.inl (numberOf_everyField hdigits n)) hhistory, cronHuman, hschedule]
  simp [repeatFrom, everyStep_everyField, literal]

/-- The words of an hourly repeat. -/
def hoursText (n past : Nat) : String :=
  if n = 1 then "every hour at :" ++ pad2 past
  else "every " ++ n.repr ++ " hours at :" ++ pad2 past

theorem hoursText_endsInDigit (n past : Nat) : EndsInDigit (hoursText n past) := by
  unfold hoursText
  split
  · exact (endsInDigit_pad2 past).append _
  · exact (endsInDigit_pad2 past).append _

theorem everyPart_repr (digits : Digits) (n : Nat) : Api.everyPart digits n.repr = none := by
  unfold Api.everyPart
  split
  · rename_i rest hstar
    have hdigit := isDigit_of_mem_repr (n := n) (c := '*')
    rw [hstar] at hdigit
    cases hdigit List.mem_cons_self
  · rfl

section

variable {digits : Digits} (hdigits : Digits.Ascii digits)

include hdigits

theorem history_hours (n past : Nat) :
    Api.cronHuman digits (cronText past.repr (hourField n) "*" "*" "*") = hoursText n past := by
  by_cases hone : n = 1
  · rw [hourField, hoursText, if_pos hone, if_pos hone]
    refine history_repeated (isField_repr past) isField_star (.inr (numberOf_star hdigits)) ?_
    rw [Api.repeatedText, everyPart_repr digits, numberOf_repr hdigits]
    rfl
  · have hstar : everyField n ≠ "*" := fun h => by
      have hstep := everyStep_everyField n
      rw [h, everyStep_star] at hstep
      cases hstep
    rw [hourField, hoursText, if_neg hone, if_neg hone]
    refine history_repeated (isField_repr past) (isField_everyField n)
      (.inr (numberOf_everyField hdigits n)) ?_
    rw [Api.repeatedText, everyPart_repr digits, numberOf_repr hdigits,
      everyPart_everyField hdigits]
    exact if_neg hstar

end

theorem cronHuman_hours {n past : Nat} (hn : 0 < n) (hpast : past ≤ 59) :
    cronHuman (cronText past.repr (hourField n) "*" "*" "*") = hoursText n past := by
  obtain ⟨hfield, hhours⟩ := hourField_spec hn
  have hminutes : cronField past.repr 0 59 = some [past] := by
    rw [cronField_number (readDecimal_repr past), if_pos ⟨Nat.zero_le _, hpast⟩]
    simp
  have hnumber : readDecimal (hourField n).toList = none := by
    unfold hourField
    split
    · exact readDecimal_star
    · exact readDecimal_everyField n
  have hschedule := scheduleFromCron_repeat (isField_repr past) hfield hminutes hhours
    (List.cons_ne_nil _ _) (everyValues_ne_nil 23 hn) (.inr hnumber)
  have hrepeat : repeatFrom past.repr (hourField n) =
      { mode := .every, n := some n, unit := some .h, pastHour := some past } := by
    unfold repeatFrom hourField
    rw [everyStep_of_number (readDecimal_repr past), readDecimal_repr]
    by_cases hone : n = 1
    · simp [hone, everyStep_star]
    · simp [hone, everyStep_everyField]
  rw [cronHuman, hschedule, hrepeat]
  by_cases hone : n = 1
  · simp [hone, hoursText]
  · simp [hone, hoursText, literal]

theorem hours_invalid {n past : Nat} (hn : 0 < n) (hpast : ¬ past ≤ 59) :
    cronHuman (cronText past.repr (hourField n) "*" "*" "*") = "invalid schedule" := by
  have hfields : ∀ f ∈ [past.repr, hourField n, "*", "*", "*"], IsField f := by
    simp [isField_repr, isField_star, (hourField_spec hn).1]
  refine cronHuman_invalid hfields (.inl ?_)
  rw [cronField_number (readDecimal_repr past), if_neg (by omega)]

/-! ## Agreement -/

/-- The schedules that the two describe alike. -/
def SameWords (s : ScheduleModel) : Prop :=
  match s.mode with
  | .daily => s.time.Valid
  | .days => s.time.Valid ∧ PlainDays s.days
  | .monthly => s.time.Valid ∧ 1 ≤ s.dom ∧ s.dom ≤ 31
  | .every => s.unit = .min ∨ s.pastHour ≤ 59
  | .custom => True

theorem cronFromSchedule_hours {s : ScheduleModel} {cron : String} (hmode : s.mode = .every)
    (hunit : s.unit = .h) (hcron : cronFromSchedule s = some cron) :
    cron = cronText s.pastHour.repr (hourField (clampRepeat s.n .h)) "*" "*" "*" := by
  unfold cronFromSchedule at hcron
  simp only [hmode, hunit] at hcron
  unfold hourField
  split at hcron
  · rename_i hone
    rw [if_pos hone]
    exact (Option.some.inj hcron).symm
  · rename_i hone
    rw [if_neg hone]
    exact (Option.some.inj hcron).symm

/-- With no day at all the text is short of a field. -/
theorem noDays_differ (digits : Digits) (time : ClockTime) :
    Api.cronHuman digits (time.cron "*" (daysField [])) ≠
      cronHuman (time.cron "*" (daysField [])) := by
  have hclean : ∀ f ∈ [time.minute.repr, time.hour.repr, "*", "*", ""], ∀ c ∈ f.toList,
      isCronChar c = true := by
    intro f hf
    simp only [List.mem_cons, List.not_mem_nil, or_false] at hf
    rcases hf with rfl | rfl | rfl | rfl | rfl
    · exact (isField_repr time.minute).2
    · exact (isField_repr time.hour).2
    · exact isField_star.2
    · exact isField_star.2
    · exact fun c hc => absurd hc (by simp)
  have hfilter : [time.minute.repr, time.hour.repr, "*", "*", ""].filter
      (fun field => !field.toList.isEmpty) = [time.minute.repr, time.hour.repr, "*", "*"] := by
    have hfields : ∀ f ∈ [time.minute.repr, time.hour.repr, "*", "*"], IsField f := by
      simp [isField_repr, isField_star]
    exact (List.filter_append [time.minute.repr, time.hour.repr, "*", "*"] [""]).trans
      (by rw [filter_fields hfields]; rfl)
  have hshort : time.cron "*" (daysField []) =
      " ".intercalate [time.minute.repr, time.hour.repr, "*", "*", ""] := rfl
  have hhistory : Api.cronHuman digits (time.cron "*" (daysField [])) =
      time.cron "*" (daysField []) := by
    rw [Api.cronHuman, hshort, historyParts_joined hclean, hfilter]
  have hnone : cronParts (time.cron "*" (daysField [])) = none := by
    rw [cronParts, hshort, cronFields, fields_joined (by decide)
      (fun _ => not_jsSpace_of_cronChar) hclean, hfilter]
  have hinvalid : cronHuman (time.cron "*" (daysField [])) = "invalid schedule" := by
    simp [cronHuman, scheduleFromCron, hnone]
  have hmem : '*' ∈ (time.cron "*" (daysField [])).toList := by
    rw [hshort, String.toList_intercalate]
    simp
  rw [hhistory, hinvalid]
  intro heq
  rw [heq] at hmem
  revert hmem
  decide

section

variable {digits : Digits} (hdigits : Digits.Ascii digits)

include hdigits

theorem daily_agree_iff (time : ClockTime) :
    Api.cronHuman digits (time.cron "*" "*") = cronHuman (time.cron "*" "*") ↔ time.Valid := by
  have hends : EndsInDigit ("every day at " ++ time.text) := time.endsInDigit.append _
  refine (timed_agree_iff hdigits (P := True) isField_star isField_star rfl hends ?_).trans
    (iff_of_eq (and_true _))
  intro htime
  obtain ⟨months, hparts, hschedule⟩ := scheduleFromCron_timed htime.1 htime.2 isField_star
    isField_star (cronField_star (by decide)) (cronField_star (by decide)) (by decide) (by decide)
  refine iff_true_intro ?_
  unfold ClockTime.cron cronHuman
  rw [hschedule]
  rfl

theorem monthly_agree_iff (time : ClockTime) (day : Nat) :
    Api.cronHuman digits (time.cron day.repr "*") = cronHuman (time.cron day.repr "*") ↔
      time.Valid ∧ 1 ≤ day ∧ day ≤ 31 := by
  have hne : day.repr ≠ "*" := fun h => by
    have hread := readDecimal_repr day
    rw [h, readDecimal_star] at hread
    cases hread
  have hhistory : Api.dailyText digits time.minute time.hour day.repr "*" =
      some ("on the " ++ ordinal day ++ " of each month at " ++ time.text) := by
    rw [Api.dailyText, if_neg hne, if_pos rfl, numberOf_repr hdigits, Option.map_some, ordinal_eq]
    rfl
  refine timed_agree_iff hdigits (isField_repr day) isField_star hhistory
    (time.endsInDigit.append _) fun htime => ?_
  by_cases hday : 1 ≤ day ∧ day ≤ 31
  · rw [cronHuman_monthly htime hday.1 hday.2]
    exact iff_of_true rfl hday
  · have hfields : ∀ f ∈ [time.minute.repr, time.hour.repr, day.repr, "*", "*"], IsField f := by
      simp [isField_repr, isField_star]
    have hinvalid : cronHuman (time.cron day.repr "*") = "invalid schedule" := by
      refine cronHuman_invalid hfields (.inr (.inr (.inl ?_)))
      rw [cronField_number (readDecimal_repr day), if_neg hday]
    rw [hinvalid]
    exact iff_of_false (time.endsInDigit.append _).ne_invalid hday

theorem listed_agree_iff (time : ClockTime) (days : List Nat) :
    Api.cronHuman digits (time.cron "*" (daysField days)) =
      cronHuman (time.cron "*" (daysField days)) ↔ time.Valid ∧ PlainDays days := by
  by_cases hne : days = []
  · subst hne
    exact iff_of_false (noDays_differ digits time) fun h => h.2.some rfl
  have hends : EndsInDigit (historyDays days ++ " at " ++ time.text) := time.endsInDigit.append _
  refine timed_agree_iff hdigits isField_star (isField_daysField hne)
    (dailyText_daysField hdigits hne time) hends fun htime => ?_
  by_cases hdays : ∀ d ∈ days, d ≤ 7
  · obtain ⟨months, hparts, hschedule⟩ := scheduleFromCron_timed htime.1 htime.2 isField_star
      (isField_daysField hne) (cronField_star (by decide)) (cronField_daysField hne hdays)
      (by decide) (weekdaysOf_ne_nil hne)
    have hplain : timedFrom ⟨time.hour, time.minute⟩ "*" (daysField days) (weekdaysOf days) =
        { mode := .days, time := some time, days := some (weekdaysOf days) } := by
      rw [timedFrom, if_pos rfl, if_neg (daysField_ne_star hne)]
    have heditor : cronHuman (time.cron "*" (daysField days)) =
        daysText (weekdaysOf days) ++ " at " ++ time.text := by
      unfold ClockTime.cron cronHuman
      rw [hschedule, hplain]
      rfl
    rw [heditor, String.append_left_inj, String.append_left_inj, days_agree_iff hne hdays]
  · push Not at hdays
    obtain ⟨d, hd, hbig⟩ := hdays
    have hnone : cronField (daysField days) 0 7 = none := by
      have hweek : joinNumbers (sortDays days) ≠ "1,2,3,4,5" := fun h => by
        have hmem := mem_sortDays.mpr hd
        rw [(sortDays_weekdays hne).mp h] at hmem
        simp at hmem
        omega
      unfold daysField
      dsimp only
      rw [if_neg hweek, cronField_joinNumbers_none (mem_sortDays.mpr hd) hbig]
    have hfields : ∀ f ∈ [time.minute.repr, time.hour.repr, "*", "*", daysField days],
        IsField f := by
      simp [isField_repr, isField_star, isField_daysField hne]
    have hinvalid : cronHuman (time.cron "*" (daysField days)) = "invalid schedule" :=
      cronHuman_invalid hfields (.inr (.inr (.inr hnone)))
    rw [hinvalid]
    exact iff_of_false hends.ne_invalid fun h => absurd (h.weekdays d hd) (Nat.not_le_of_lt hbig)

theorem hours_agree_iff {n : Nat} (hn : 0 < n) (past : Nat) :
    Api.cronHuman digits (cronText past.repr (hourField n) "*" "*" "*") =
      cronHuman (cronText past.repr (hourField n) "*" "*" "*") ↔ past ≤ 59 := by
  rw [history_hours hdigits]
  by_cases hpast : past ≤ 59
  · rw [cronHuman_hours hn hpast]
    exact iff_of_true rfl hpast
  · rw [hours_invalid hn hpast]
    exact iff_of_false (hoursText_endsInDigit n past).ne_invalid hpast

/-- **The history and the editor word a schedule of the picker alike** just where its numbers can be
read and its days are plain. -/
theorem human_agree_iff {s : ScheduleModel} {cron : String}
    (hcron : cronFromSchedule s = some cron) :
    Api.cronHuman digits cron = cronHuman cron ↔ SameWords s := by
  unfold SameWords
  cases hmode : s.mode with
  | daily =>
    simp only [cronFromSchedule, hmode, Option.some.injEq] at hcron
    rw [← hcron]
    exact daily_agree_iff hdigits s.time
  | days =>
    simp only [cronFromSchedule, hmode, Option.some.injEq] at hcron
    rw [← hcron]
    exact listed_agree_iff hdigits s.time s.days
  | monthly =>
    simp only [cronFromSchedule, hmode, Option.some.injEq] at hcron
    rw [← hcron]
    exact monthly_agree_iff hdigits s.time s.dom
  | every =>
    cases hunit : s.unit with
    | min =>
      simp only [cronFromSchedule, hmode, hunit, Option.some.injEq] at hcron
      rw [← hcron]
      exact iff_of_true (everyMinutes_agree hdigits (clampRepeat_bounds s.n .min).1) (.inl rfl)
    | h =>
      rw [cronFromSchedule_hours hmode hunit hcron,
        hours_agree_iff hdigits (clampRepeat_bounds s.n .h).1]
      simp
  | custom =>
    simp only [cronFromSchedule, hmode] at hcron
    cases hcron

end

/-- The digits of ASCII, and no other. -/
def asciiDigits : Digits := fun c => if c.isDigit then some (c.toNat - '0'.toNat) else none

/-- Weekdays at eight. -/
theorem human_agree_weekdays : cronFromSchedule { defaultSchedule with mode := .days } =
      some "0 8 * * 1-5" ∧
    (Api.cronHuman asciiDigits "0 8 * * 1-5" = cronHuman "0 8 * * 1-5" ↔
      SameWords { defaultSchedule with mode := .days }) :=
  ⟨by decide, human_agree_iff (fun _ _ => rfl) (by decide)⟩

/-- Every day of the week, ticked one by one. -/
theorem seven_days : ∃ cron,
    cronFromSchedule { defaultSchedule with mode := .days, days := [0, 1, 2, 3, 4, 5, 6] } =
      some cron ∧
    cronHuman cron = "every day at 08:00" ∧
    Api.cronHuman asciiDigits cron = "Mon, Tue, Wed, Thu, Fri, Sat, Sun at 08:00" ∧
    Api.cronHuman asciiDigits cron ≠ cronHuman cron := by
  have heditor : cronHuman "0 8 * * 0,1,2,3,4,5,6" = "every day at 08:00" := by decide +kernel
  have hhistory : Api.cronHuman asciiDigits "0 8 * * 0,1,2,3,4,5,6" =
      "Mon, Tue, Wed, Thu, Fri, Sat, Sun at 08:00" := by decide +kernel
  refine ⟨_, by decide, heditor, hhistory, ?_⟩
  rw [heditor, hhistory]
  decide

end IotSaas.Schedule
