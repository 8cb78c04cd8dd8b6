import IotSaas.Schedule.Cron
import Mathlib.Data.Rat.Floor

/-!
# `Schedule/Picker.lean` — a cron text in the picker's plain modes, and back

`scheduleFromCron` and `cronFromSchedule` of `lib/schedule.ts`. Opening a schedule reads its cron
into the picker's model, saving prints the model again, and what runs must not change by that.
`clampRepeat` holds a repeat to 59 minutes or 23 hours, but a longer step is read all the same:
`*/90` runs once an hour and is printed as `*/59`, which runs twice. Everything else comes back
with the same minutes (`round_trip_iff`).

A time of day is its two numbers; `ClockTime.text` is the `"HH:MM"` the source holds.
-/

set_option autoImplicit false

namespace IotSaas.Schedule

open Lib

/-! ## The model -/

inductive ScheduleMode where
  | daily | days | every | monthly | custom
  deriving DecidableEq

inductive RepeatUnit where
  | min | h
  deriving DecidableEq

/-- `pad2`. -/
def pad2 (n : Nat) : String := if n < 10 then "0" ++ n.repr else n.repr

/-- `"HH:MM"`, 24-hour. -/
structure ClockTime where
  hour : Nat
  minute : Nat
  deriving DecidableEq

def ClockTime.text (time : ClockTime) : String := pad2 time.hour ++ ":" ++ pad2 time.minute

/-- A JavaScript number, as an input gives one. -/
inductive RepeatCount where
  | nan | below | above
  | finite (n : ℚ)

structure ScheduleModel where
  mode : ScheduleMode
  time : ClockTime
  /-- 0 is Sunday. -/
  days : List Nat
  dom : Nat
  n : RepeatCount
  unit : RepeatUnit
  /-- `at`: minute past the hour for hourly repeats. -/
  pastHour : Nat

/-- `DEFAULT_SCHEDULE`. -/
def defaultSchedule : ScheduleModel where
  mode := .daily
  time := ⟨8, 0⟩
  days := [1, 2, 3, 4, 5]
  dom := 1
  n := .finite 15
  unit := .min
  pastHour := 0

/-- `Partial<ScheduleModel> & { mode }`. -/
structure PartialSchedule where
  mode : ScheduleMode
  time : Option ClockTime := none
  days : Option (List Nat) := none
  dom : Option Nat := none
  n : Option Nat := none
  unit : Option RepeatUnit := none
  pastHour : Option Nat := none

/-- `{ ...DEFAULT_SCHEDULE, ...s }`. -/
def PartialSchedule.withDefaults (s : PartialSchedule) : ScheduleModel where
  mode := s.mode
  time := s.time.getD defaultSchedule.time
  days := s.days.getD defaultSchedule.days
  dom := s.dom.getD defaultSchedule.dom
  n := (s.n.map fun n => RepeatCount.finite n).getD defaultSchedule.n
  unit := s.unit.getD defaultSchedule.unit
  pastHour := s.pastHour.getD defaultSchedule.pastHour

/-! ## From a cron -/

/-- The repeats: every `n` minutes, every `n` hours, every hour. -/
def repeatFrom (minute hour : String) : PartialSchedule :=
  match everyStep minute with
  | some n =>
      if hour = "*" then { mode := .every, n := some n, unit := some .min } else { mode := .custom }
  | none =>
      match readDecimal minute.toList with
      | none => { mode := .custom }
      | some past =>
          match everyStep hour with
          | some n => { mode := .every, n := some n, unit := some .h, pastHour := some past }
          | none =>
              if hour = "*" then
                { mode := .every, n := some 1, unit := some .h, pastHour := some past }
              else { mode := .custom }

/-- The schedules with one time of day. -/
def timedFrom (time : ClockTime) (dom dow : String) (days : List Nat) : PartialSchedule :=
  if dom = "*" then
    if dow = "*" then { mode := .daily, time := some time }
    else { mode := .days, time := some time, days := some days }
  else
    match readDecimal dom.toList with
    | some day =>
        if dow = "*" ∧ day ≤ 28 then { mode := .monthly, time := some time, dom := some day }
        else { mode := .custom }
    | none => { mode := .custom }

/-- `scheduleFromCron`. -/
def scheduleFromCron (cron : String) : PartialSchedule :=
  match cronParts cron with
  | none => { mode := .custom }
  | some parts =>
      let raw := parts.raw
      if raw.month ≠ "*" then { mode := .custom }
      else
        match readDecimal raw.minute.toList, readDecimal raw.hour.toList with
        | some minute, some hour => timedFrom ⟨hour, minute⟩ raw.dom raw.dow parts.dow
        | _, _ =>
            if raw.dom = "*" ∧ raw.dow = "*" then repeatFrom raw.minute raw.hour
            else { mode := .custom }

/-! ## To a cron -/

/-- `clampRepeat`: `Math.round` rounds a half up, and `|| 1` is for what is not a number and for
zero. -/
def clampRepeat (n : RepeatCount) (unit : RepeatUnit) : Nat :=
  let most : Nat := if unit = .min then 59 else 23
  match n with
  | .nan | .below => 1
  | .above => most
  | .finite n =>
      let rounded := ⌊n + 1 / 2⌋
      if rounded < 1 then 1 else min most rounded.toNat

/-- `[...days].sort((a, b) => a - b)`. -/
def sortDays (days : List Nat) : List Nat := days.insertionSort (· ≤ ·)

/-- The weekday field. -/
def daysField (days : List Nat) : String :=
  let d := joinNumbers (sortDays days)
  if d = "1,2,3,4,5" then "1-5" else d

/-- The five fields of a text. -/
def cronText (minute hour dom month dow : String) : String :=
  " ".intercalate [minute, hour, dom, month, dow]

/-- `cronFromSchedule`. -/
def cronFromSchedule (s : ScheduleModel) : Option String :=
  let mm := s.time.minute.repr
  let hh := s.time.hour.repr
  match s.mode with
  | .daily => some (cronText mm hh "*" "*" "*")
  | .days => some (cronText mm hh "*" "*" (daysField s.days))
  | .monthly => some (cronText mm hh s.dom.repr "*" "*")
  | .every =>
      let n := clampRepeat s.n s.unit
      match s.unit with
      | .min => some (cronText (everyField n) "*" "*" "*" "*")
      | .h =>
          if n = 1 then some (cronText s.pastHour.repr "*" "*" "*" "*")
          else some (cronText s.pastHour.repr (everyField n) "*" "*" "*")
  | .custom => none

/-! ## What is read and what is printed -/

/-- A cron and its reading; `none` where a mode reads nothing else. -/
inductive Shape (parts : CronParts) : PartialSchedule → Prop where
  | daily {minute hour : Nat} (hminute : readDecimal parts.raw.minute.toList = some minute)
      (hhour : readDecimal parts.raw.hour.toList = some hour) (hdom : parts.raw.dom = "*")
      (hmonth : parts.raw.month = "*") (hdow : parts.raw.dow = "*") :
      Shape parts { mode := .daily, time := some ⟨hour, minute⟩ }
  | days {minute hour : Nat} (hminute : readDecimal parts.raw.minute.toList = some minute)
      (hhour : readDecimal parts.raw.hour.toList = some hour) (hdom : parts.raw.dom = "*")
      (hmonth : parts.raw.month = "*") (hdow : parts.raw.dow ≠ "*") :
      Shape parts { mode := .days, time := some ⟨hour, minute⟩, days := some parts.dow }
  | monthly {minute hour day : Nat} (hminute : readDecimal parts.raw.minute.toList = some minute)
      (hhour : readDecimal parts.raw.hour.toList = some hour)
      (hdom : readDecimal parts.raw.dom.toList = some day) (hmonth : parts.raw.month = "*")
      (hdow : parts.raw.dow = "*") :
      Shape parts { mode := .monthly, time := some ⟨hour, minute⟩, dom := some day }
  | everyMinutes {n : Nat} (hminute : everyStep parts.raw.minute = some n)
      (hhour : parts.raw.hour = "*") (hdom : parts.raw.dom = "*") (hmonth : parts.raw.month = "*")
      (hdow : parts.raw.dow = "*") :
      Shape parts { mode := .every, n := some n, unit := some .min }
  | everyHours {n minute : Nat} (hminute : readDecimal parts.raw.minute.toList = some minute)
      (hhour : everyStep parts.raw.hour = some n) (hdom : parts.raw.dom = "*")
      (hmonth : parts.raw.month = "*") (hdow : parts.raw.dow = "*") :
      Shape parts { mode := .every, n := some n, unit := some .h, pastHour := some minute }
  | everyHour {minute : Nat} (hminute : readDecimal parts.raw.minute.toList = some minute)
      (hhour : parts.raw.hour = "*") (hdom : parts.raw.dom = "*") (hmonth : parts.raw.month = "*")
      (hdow : parts.raw.dow = "*") :
      Shape parts { mode := .every, n := some 1, unit := some .h, pastHour := some minute }

variable {parts : CronParts}

theorem shape_repeatFrom (hdom : parts.raw.dom = "*") (hmonth : parts.raw.month = "*")
    (hdow : parts.raw.dow = "*") (h : (repeatFrom parts.raw.minute parts.raw.hour).mode ≠ .custom) :
    Shape parts (repeatFrom parts.raw.minute parts.raw.hour) := by
  unfold repeatFrom at h ⊢
  cases hstep : everyStep parts.raw.minute with
  | some n =>
    simp only [hstep] at h ⊢
    by_cases hhour : parts.raw.hour = "*"
    · rw [if_pos hhour]
      exact .everyMinutes hstep hhour hdom hmonth hdow
    · rw [if_neg hhour] at h
      exact absurd rfl h
  | none =>
    simp only [hstep] at h ⊢
    cases hminute : readDecimal parts.raw.minute.toList with
    | none =>
      simp only [hminute] at h
      exact absurd rfl h
    | some minute =>
      simp only [hminute] at h ⊢
      cases hhours : everyStep parts.raw.hour with
      | some n =>
        exact .everyHours hminute hhours hdom hmonth hdow
      | none =>
        simp only [hhours] at h ⊢
        by_cases hhour : parts.raw.hour = "*"
        · rw [if_pos hhour]
          exact .everyHour hminute hhour hdom hmonth hdow
        · rw [if_neg hhour] at h
          exact absurd rfl h

theorem shape_timedFrom {minute hour : Nat}
    (hminute : readDecimal parts.raw.minute.toList = some minute)
    (hhour : readDecimal parts.raw.hour.toList = some hour) (hmonth : parts.raw.month = "*")
    (h : (timedFrom ⟨hour, minute⟩ parts.raw.dom parts.raw.dow parts.dow).mode ≠ .custom) :
    Shape parts (timedFrom ⟨hour, minute⟩ parts.raw.dom parts.raw.dow parts.dow) := by
  unfold timedFrom at h ⊢
  by_cases hdom : parts.raw.dom = "*"
  · rw [if_pos hdom]
    by_cases hdow : parts.raw.dow = "*"
    · rw [if_pos hdow]
      exact .daily hminute hhour hdom hmonth hdow
    · rw [if_neg hdow]
      exact .days hminute hhour hdom hmonth hdow
  · rw [if_neg hdom] at h ⊢
    cases hday : readDecimal parts.raw.dom.toList with
    | none =>
      simp only [hday] at h
      exact absurd rfl h
    | some day =>
      simp only [hday] at h ⊢
      by_cases hdow : parts.raw.dow = "*" ∧ day ≤ 28
      · rw [if_pos hdow]
        exact .monthly hminute hhour hday hmonth hdow.1
      · rw [if_neg hdow] at h
        exact absurd rfl h

/-- Every mode but `custom` is one of the shapes. -/
theorem shape_of_mode {cron : String} (hparts : cronParts cron = some parts)
    (h : (scheduleFromCron cron).mode ≠ .custom) : Shape parts (scheduleFromCron cron) := by
  unfold scheduleFromCron at h ⊢
  simp only [hparts] at h ⊢
  by_cases hmonth : parts.raw.month = "*"
  · rw [if_neg (not_not_intro hmonth)] at h ⊢
    cases hminute : readDecimal parts.raw.minute.toList with
    | none =>
      simp only [hminute] at h ⊢
      by_cases hdays : parts.raw.dom = "*" ∧ parts.raw.dow = "*"
      · rw [if_pos hdays] at h ⊢
        exact shape_repeatFrom hdays.1 hmonth hdays.2 h
      · rw [if_neg hdays] at h
        exact absurd rfl h
    | some minute =>
      cases hhour : readDecimal parts.raw.hour.toList with
      | none =>
        simp only [hminute, hhour] at h ⊢
        by_cases hdays : parts.raw.dom = "*" ∧ parts.raw.dow = "*"
        · rw [if_pos hdays] at h ⊢
          exact shape_repeatFrom hdays.1 hmonth hdays.2 h
        · rw [if_neg hdays] at h
          exact absurd rfl h
      | some hour =>
        simp only [hminute, hhour] at h ⊢
        exact shape_timedFrom hminute hhour hmonth h
  · rw [if_pos hmonth] at h
    exact absurd rfl h

/-! ## The weekday field -/

variable {days : List Nat}

theorem mem_sortDays {d : Nat} : d ∈ sortDays days ↔ d ∈ days :=
  List.mem_insertionSort _

theorem sortDays_ne_nil (h : days ≠ []) : sortDays days ≠ [] := by
  intro hnil
  obtain ⟨d, hd⟩ := List.exists_mem_of_ne_nil days h
  have hmem := mem_sortDays.mpr hd
  rw [hnil] at hmem
  cases hmem

theorem joinNumbers_weekdays : joinNumbers [1, 2, 3, 4, 5] = "1,2,3,4,5" := by decide

theorem sortDays_weekdays (hne : days ≠ []) :
    joinNumbers (sortDays days) = "1,2,3,4,5" ↔ sortDays days = [1, 2, 3, 4, 5] := by
  rw [← joinNumbers_weekdays]
  exact ⟨joinNumbers_injective (sortDays_ne_nil hne) (by decide), fun h => by rw [h]⟩

theorem weekdaysOf_sortDays (days : List Nat) : weekdaysOf (sortDays days) = weekdaysOf days :=
  ascending_congr fun _ => by simp only [List.mem_map, mem_sortDays]

/-- The weekday field reads as the days it was printed for. -/
theorem cronField_daysField (hne : days ≠ []) (hdays : ∀ d ∈ days, d ≤ 7) :
    cronField (daysField days) 0 7 = some (weekdaysOf days) := by
  unfold daysField
  by_cases hweek : joinNumbers (sortDays days) = "1,2,3,4,5"
  · rw [if_pos hweek, ← weekdaysOf_sortDays, (sortDays_weekdays hne).mp hweek]
    decide
  · rw [if_neg hweek, cronField_joinNumbers (sortDays_ne_nil hne)
      fun d hd => hdays d (mem_sortDays.mp hd), weekdaysOf_sortDays]

theorem weekdaysOf_of_ascending (hordered : days.Pairwise (· < ·)) (hdays : ∀ d ∈ days, d ≤ 6) :
    weekdaysOf days = days := by
  have hsame : days.map weekday = days.map id := List.map_congr_left fun d hd => by
    have := hdays d hd
    rw [weekday, if_neg (by omega), id]
  rw [weekdaysOf, hsame, List.map_id, ascending_of_pairwise hordered]

theorem isField_daysField (hne : days ≠ []) : IsField (daysField days) := by
  unfold daysField
  dsimp only
  split
  · exact ⟨by decide, List.all_eq_true.mp rfl⟩
  · exact isField_joinNumbers (sortDays_ne_nil hne)

theorem daysField_ne_star (hne : days ≠ []) :
    daysField days ≠ "*" := by
  intro hstar
  unfold daysField at hstar
  dsimp only at hstar
  split at hstar
  · exact absurd hstar (by decide)
  · have hsplit := splitOn_joinNumbers (sortDays_ne_nil hne)
    rw [hstar] at hsplit
    obtain ⟨d, rest, hcons⟩ := List.exists_cons_of_ne_nil (sortDays_ne_nil hne)
    rw [hcons, List.map_cons] at hsplit
    have hd := isDigit_of_mem_repr (n := d) (c := '*')
    rw [← (List.cons.inj hsplit).1] at hd
    exact absurd (hd List.mem_cons_self) (by decide)

/-! ## The round trip -/

/-- The two crons run at the same minutes. -/
structure SameTimes (parts parts' : CronParts) : Prop where
  minutes : parts'.minutes = parts.minutes
  hours : parts'.hours = parts.hours
  dom : parts'.dom = parts.dom
  months : parts'.months = parts.months
  dow : parts'.dow = parts.dow
  runs : ∀ w, parts'.Matches w ↔ parts.Matches w

/-- A repeat longer than the picker goes. -/
def Overlong (raw : RawCron) : Prop :=
  (∃ n, everyStep raw.minute = some n ∧ 59 < n) ∨ ∃ n, everyStep raw.hour = some n ∧ 23 < n

/-- A text whose day fields read as those of a cron is a cron too, and the same one if its minutes
and hours are the same. -/
theorem read_again (hread : parts.Read) {minute hour dom dow : String} {minutes hours : List Nat}
    (hfields : ∀ f ∈ [minute, hour, dom, "*", dow], IsField f) (hmonth : parts.raw.month = "*")
    (hminute : cronField minute 0 59 = some minutes) (hsomeMinute : minutes ≠ [])
    (hhour : cronField hour 0 23 = some hours) (hsomeHour : hours ≠ [])
    (hdom : cronField dom 1 31 = cronField parts.raw.dom 1 31)
    (hdow : cronField dow 0 7 = cronField parts.raw.dow 0 7)
    (hanyDom : dom = "*" ↔ parts.raw.dom = "*") (hanyDow : dow = "*" ↔ parts.raw.dow = "*") :
    ∃ parts', cronParts (cronText minute hour dom "*" dow) = some parts' ∧
      (SameTimes parts parts' ↔ minutes = parts.minutes ∧ hours = parts.hours) := by
  have hmonths : cronField "*" 1 12 = some parts.months := hmonth ▸ hread.months
  refine ⟨{ parts with raw := ⟨minute, hour, dom, "*", dow⟩, minutes, hours }, ?_, ?_⟩
  · refine cronParts_eq_some.mpr ⟨cronFields_joined hfields, ?_⟩
    exact ⟨hminute, hhour, hdom.trans hread.dom, hmonths, hdow.trans hread.dow, hsomeMinute,
      hsomeHour, hread.someDom, hread.someMonth, hread.someDow⟩
  · constructor
    · intro h
      exact ⟨h.minutes, h.hours⟩
    · rintro ⟨rfl, rfl⟩
      refine ⟨rfl, rfl, rfl, rfl, rfl, fun w => ?_⟩
      have hday : CronParts.dayOk { parts with raw := ⟨minute, hour, dom, "*", dow⟩ } w.day w.dow =
          parts.dayOk w.day w.dow := by
        unfold CronParts.dayOk
        simp only [hanyDom, hanyDow]
      exact ⟨fun h => ⟨h.month, hday ▸ h.day, h.hour, h.minute⟩,
        fun h => ⟨h.month, hday ▸ h.day, h.hour, h.minute⟩⟩

theorem cronField_repr {field : String} {n : Nat} (h : readDecimal field.toList = some n)
    (lo hi : Nat) : cronField n.repr lo hi = cronField field lo hi := by
  rw [cronField_number h, cronField_number (readDecimal_repr n)]

theorem clampRepeat_nat {n : Nat} (hn : 0 < n) (unit : RepeatUnit) :
    clampRepeat (.finite n) unit = min (if unit = .min then 59 else 23) n := by
  have hfloor : ⌊(n : ℚ) + 1 / 2⌋ = (n : Int) := by
    rw [Int.floor_eq_iff]
    constructor
    · push_cast
      linarith
    · push_cast
      linarith
  have hpos : ¬ ((n : Int) < 1) := by omega
  unfold clampRepeat
  simp only [hfloor, if_neg hpos, Int.toNat_natCast]

theorem readDecimal_star : readDecimal "*".toList = none := by decide

/-- A number is never a `*`. -/
theorem repr_star {field : String} {n : Nat} (h : readDecimal field.toList = some n) :
    n.repr = "*" ↔ field = "*" := by
  constructor
  · intro hstar
    have hread := readDecimal_repr n
    rw [hstar, readDecimal_star] at hread
    cases hread
  · intro hstar
    rw [hstar, readDecimal_star] at h
    cases h

/-- A step as long as the field, and one that is longer. -/
theorem everyValues_overlong {hi n : Nat} (hhi : hi ≠ 7) (hpos : 0 < hi) (hn : hi < n) :
    everyValues 0 hi hi ≠ everyValues 0 hi n := by
  have hmem : ∀ step, 0 < step → (hi ∈ everyValues 0 hi step ↔ step ∣ hi) := by
    intro step hstep
    rw [everyValues, mem_ascending, List.mem_map]
    constructor
    · rintro ⟨v, hv, hveq⟩
      rw [if_neg fun h => hhi h.1] at hveq
      have hstepped := (mem_stepped (Nat.zero_le hi) hstep).mp hv
      rw [hveq] at hstepped
      simpa using hstepped.2.2
    · intro hdvd
      exact ⟨hi, (mem_stepped (Nat.zero_le hi) hstep).mpr ⟨Nat.zero_le _, Nat.le_refl _, by simpa⟩,
        if_neg fun h => hhi h.1⟩
  intro heq
  have hboth := hmem hi hpos
  rw [heq, hmem n (by omega)] at hboth
  exact absurd (Nat.le_of_dvd hpos (hboth.mpr (Nat.dvd_refl hi))) (by omega)

theorem everyStep_star : everyStep "*" = none := by rfl

/-- A step that is read is positive, and its values are those of the step. -/
theorem everyStep_spec {field : String} {n hi : Nat} {values : List Nat}
    (hstep : everyStep field = some n) (hread : cronField field 0 hi = some values) :
    0 < n ∧ values = everyValues 0 hi n := by
  rw [cronField_every hstep (Nat.zero_le hi)] at hread
  split at hread
  · rename_i hn
    exact ⟨hn, (Option.some.inj hread).symm⟩
  · cases hread

theorem cronField_everyField {n hi : Nat} (hn : 0 < n) :
    cronField (everyField n) 0 hi = some (everyValues 0 hi n) := by
  rw [cronField_every (everyStep_everyField n) (Nat.zero_le hi), if_pos hn]

theorem everyValues_ne_nil (hi : Nat) {n : Nat} (hn : 0 < n) : everyValues 0 hi n ≠ [] := by
  have hzero : (if hi = 7 ∧ 0 = 7 then 0 else 0) ∈ everyValues 0 hi n := by
    rw [everyValues, mem_ascending]
    exact List.mem_map_of_mem
      ((mem_stepped (Nat.zero_le hi) hn).mpr ⟨Nat.le_refl 0, Nat.zero_le hi, Nat.dvd_zero n⟩)
  intro hnil
  rw [hnil] at hzero
  cases hzero

/-- A printed step has the values of the one that was read, if that was not too long. -/
theorem everyValues_clamped {n hi : Nat} (hhi : hi ≠ 7) (hpos : 0 < hi) :
    everyValues 0 hi (min hi n) = everyValues 0 hi n ↔ ¬ hi < n := by
  by_cases hn : hi < n
  · rw [Nat.min_eq_left (Nat.le_of_lt hn)]
    exact ⟨fun h => absurd h (everyValues_overlong hhi hpos hn), fun h => absurd hn h⟩
  · rw [Nat.min_eq_right (Nat.le_of_not_lt hn)]
    exact ⟨fun _ => hn, fun _ => rfl⟩

/-- The hour field of an hourly repeat. -/
def hourField (n : Nat) : String := if n = 1 then "*" else everyField n

theorem hourField_spec {n : Nat} (hn : 0 < n) :
    IsField (hourField n) ∧ cronField (hourField n) 0 23 = some (everyValues 0 23 n) := by
  unfold hourField
  by_cases hone : n = 1
  · rw [if_pos hone, hone]
    exact ⟨isField_star, cronField_star (by omega)⟩
  · rw [if_neg hone]
    exact ⟨isField_everyField n, cronField_everyField hn⟩

/-- What is printed for the model of a cron, and what it is read as. -/
theorem reads_again {s : PartialSchedule} (hread : parts.Read) (hshape : Shape parts s) :
    ∃ cron' parts', cronFromSchedule s.withDefaults = some cron' ∧
      cronParts cron' = some parts' ∧ (SameTimes parts parts' ↔ ¬ Overlong parts.raw) := by
  cases hshape with
  | @daily minute hour hminute hhour hdom hmonth hdow =>
    -- Numbers only: each is printed so that it reads as before.
    have hfields : ∀ f ∈ [minute.repr, hour.repr, "*", "*", "*"], IsField f := by
      simp [isField_repr, isField_star]
    obtain ⟨parts', hparts', hsame⟩ := read_again hread hfields hmonth
      ((cronField_repr hminute 0 59).trans hread.minutes) hread.someMinute
      ((cronField_repr hhour 0 23).trans hread.hours) hread.someHour (by rw [hdom]) (by rw [hdow])
      (by simp [hdom]) (by simp [hdow])
    refine ⟨_, parts', rfl, hparts', hsame.trans ?_⟩
    simp [Overlong, everyStep_of_number hminute, everyStep_of_number hhour]
  | @days minute hour hminute hhour hdom hmonth hdow =>
    obtain ⟨hordered, hbounds⟩ := cronField_spec hread.dow
    have hdays : ∀ d ∈ parts.dow, d ≤ 6 := fun d hd => (hbounds d hd).2.2 rfl
    have hfields : ∀ f ∈ [minute.repr, hour.repr, "*", "*", daysField parts.dow], IsField f := by
      simp [isField_repr, isField_star, isField_daysField hread.someDow]
    -- 7 was read as Sunday and is printed as 0, the same day.
    have hagain : cronField (daysField parts.dow) 0 7 = cronField parts.raw.dow 0 7 := by
      rw [cronField_daysField hread.someDow fun d hd => Nat.le_succ_of_le (hdays d hd),
        weekdaysOf_of_ascending hordered hdays, hread.dow]
    obtain ⟨parts', hparts', hsame⟩ := read_again hread hfields hmonth
      ((cronField_repr hminute 0 59).trans hread.minutes) hread.someMinute
      ((cronField_repr hhour 0 23).trans hread.hours) hread.someHour (by rw [hdom]) hagain
      (by simp [hdom]) (by simp [hdow, daysField_ne_star hread.someDow])
    refine ⟨_, parts', rfl, hparts', hsame.trans ?_⟩
    simp [Overlong, everyStep_of_number hminute, everyStep_of_number hhour]
  | @monthly minute hour day hminute hhour hdom hmonth hdow =>
    have hfields : ∀ f ∈ [minute.repr, hour.repr, day.repr, "*", "*"], IsField f := by
      simp [isField_repr, isField_star]
    obtain ⟨parts', hparts', hsame⟩ := read_again hread hfields hmonth
      ((cronField_repr hminute 0 59).trans hread.minutes) hread.someMinute
      ((cronField_repr hhour 0 23).trans hread.hours) hread.someHour (cronField_repr hdom 1 31)
      (by rw [hdow]) (repr_star hdom) (by simp [hdow])
    refine ⟨_, parts', rfl, hparts', hsame.trans ?_⟩
    simp [Overlong, everyStep_of_number hminute, everyStep_of_number hhour]
  | @everyMinutes n hminute hhour hdom hmonth hdow =>
    obtain ⟨hn, hvalues⟩ := everyStep_spec hminute hread.minutes
    have hprinted : cronFromSchedule (PartialSchedule.withDefaults
        { mode := .every, n := some n, unit := some .min }) =
        some (cronText (everyField (min 59 n)) "*" "*" "*" "*") := by
      show some (cronText (everyField (clampRepeat (.finite n) .min)) "*" "*" "*" "*") = _
      -- A step over 59 is printed as 59, and minute 59 is then new.
      rw [clampRepeat_nat hn, if_pos rfl]
    have hfields : ∀ f ∈ [everyField (min 59 n), "*", "*", "*", "*"], IsField f := by
      simp [isField_everyField, isField_star]
    have hmin : 0 < min 59 n := by omega
    obtain ⟨parts', hparts', hsame⟩ := read_again hread hfields hmonth
      (cronField_everyField hmin) (everyValues_ne_nil 59 hmin) (hhour ▸ hread.hours)
      hread.someHour (by rw [hdom]) (by rw [hdow]) (by simp [hdom]) (by simp [hdow])
    refine ⟨_, parts', hprinted, hparts', hsame.trans ?_⟩
    rw [hvalues, everyValues_clamped (by decide) (by decide)]
    simp [Overlong, hminute, hhour, everyStep_star]
  | @everyHours n minute hminute hhour hdom hmonth hdow =>
    obtain ⟨hn, hvalues⟩ := everyStep_spec hhour hread.hours
    have hprinted : cronFromSchedule (PartialSchedule.withDefaults
        { mode := .every, n := some n, unit := some .h, pastHour := some minute }) =
        some (cronText minute.repr (hourField (min 23 n)) "*" "*" "*") := by
      -- Every hour is printed as `*`, any other number as a step.
      have hclamp : clampRepeat (.finite n) .h = min 23 n := clampRepeat_nat hn .h
      show (if clampRepeat (.finite n) .h = 1 then some (cronText minute.repr "*" "*" "*" "*")
        else some (cronText minute.repr (everyField (clampRepeat (.finite n) .h)) "*" "*" "*")) = _
      rw [hclamp, hourField]
      split <;> rfl
    have hmin : 0 < min 23 n := by omega
    obtain ⟨hfield, hhours⟩ := hourField_spec hmin
    have hfields : ∀ f ∈ [minute.repr, hourField (min 23 n), "*", "*", "*"], IsField f := by
      simp [isField_repr, isField_star, hfield]
    obtain ⟨parts', hparts', hsame⟩ := read_again hread hfields hmonth
      ((cronField_repr hminute 0 59).trans hread.minutes) hread.someMinute hhours
      (everyValues_ne_nil 23 hmin) (by rw [hdom]) (by rw [hdow]) (by simp [hdom]) (by simp [hdow])
    refine ⟨_, parts', hprinted, hparts', hsame.trans ?_⟩
    rw [hvalues, everyValues_clamped (by decide) (by decide)]
    simp [Overlong, hhour, everyStep_of_number hminute]
  | @everyHour minute hminute hhour hdom hmonth hdow =>
    have hprinted : cronFromSchedule (PartialSchedule.withDefaults
        { mode := .every, n := some 1, unit := some .h, pastHour := some minute }) =
        some (cronText minute.repr "*" "*" "*" "*") := by
      have hclamp : clampRepeat (.finite (1 : Nat)) .h = 1 := clampRepeat_nat (by decide) .h
      show (if clampRepeat (.finite (1 : Nat)) .h = 1 then _ else _) = _
      rw [if_pos hclamp]
      rfl
    have hfields : ∀ f ∈ [minute.repr, "*", "*", "*", "*"], IsField f := by
      simp [isField_repr, isField_star]
    obtain ⟨parts', hparts', hsame⟩ := read_again hread hfields hmonth
      ((cronField_repr hminute 0 59).trans hread.minutes) hread.someMinute (hhour ▸ hread.hours)
      hread.someHour (by rw [hdom]) (by rw [hdow]) (by simp [hdom]) (by simp [hdow])
    refine ⟨_, parts', hprinted, hparts', hsame.trans ?_⟩
    simp [Overlong, everyStep_of_number hminute, hhour, everyStep_star]

/-- **Opening a schedule and saving it changes nothing, unless it repeats at longer steps than the
picker has.** -/
theorem round_trip_iff {cron : String} {parts : CronParts} (hparts : cronParts cron = some parts)
    (hmode : (scheduleFromCron cron).mode ≠ .custom) :
    (∃ cron' parts', cronFromSchedule (scheduleFromCron cron).withDefaults = some cron' ∧
      cronParts cron' = some parts' ∧ SameTimes parts parts') ↔ ¬ Overlong parts.raw := by
  obtain ⟨cron', parts', hcron', hparts', hiff⟩ :=
    reads_again (cronParts_eq_some.mp hparts).2 (shape_of_mode hparts hmode)
  rw [← hiff]
  constructor
  · rintro ⟨cron'', parts'', hcron'', hparts'', hsame⟩
    cases hcron'.symm.trans hcron''
    cases hparts'.symm.trans hparts''
    exact hsame
  · intro hsame
    exact ⟨cron', parts', hcron', hparts', hsame⟩

/-- Weekdays, spelled by their numbers. -/
theorem round_trip_weekdays : ∃ parts, cronParts "05 8 * * 1,2,3,4,5" = some parts ∧
    ((∃ cron' parts', cronFromSchedule (scheduleFromCron "05 8 * * 1,2,3,4,5").withDefaults =
      some cron' ∧ cronParts cron' = some parts' ∧ SameTimes parts parts') ↔
        ¬ Overlong parts.raw) :=
  ⟨_, rfl, round_trip_iff rfl (by decide)⟩

/-- Once an hour becomes twice an hour. -/
theorem ninety_minutes : ∃ parts parts',
    cronParts "*/90 * * * *" = some parts ∧ (scheduleFromCron "*/90 * * * *").mode = .every ∧
    cronFromSchedule (scheduleFromCron "*/90 * * * *").withDefaults = some "*/59 * * * *" ∧
    cronParts "*/59 * * * *" = some parts' ∧ parts.minutes = [0] ∧ parts'.minutes = [0, 59] := by
  have hclamp : clampRepeat (.finite (90 : Nat)) .min = 59 := clampRepeat_nat (by decide) .min
  have hprinted : cronFromSchedule (scheduleFromCron "*/90 * * * *").withDefaults =
      some "*/59 * * * *" := by
    show some (cronText (everyField (clampRepeat (.finite (90 : Nat)) .min)) "*" "*" "*" "*") = _
    rw [hclamp]
    rfl
  exact ⟨_, _, rfl, by decide, hprinted, rfl, by decide, by decide⟩

end IotSaas.Schedule
