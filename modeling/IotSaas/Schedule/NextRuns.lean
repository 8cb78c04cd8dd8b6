import IotSaas.Lib.Calendar
import IotSaas.Lib.Except
import IotSaas.Schedule.Cron

/-!
# `Schedule/NextRuns.lean` — the next runs are the next matches

`nextRuns` of `lib/schedule.ts`: a search over 400 days, the hours and the minutes of a cron, that
returns as soon as it has `n`. The dates come from `Date.UTC`, which takes the years 0 to 99 for
those of the twentieth century, and which has no day further than a hundred million from 1970.

What it finds from a day on is what is due from there (`mem_dueFrom`), in order. So it returns the
next matches, unless it starts in one of those hundred years, where it finds its matches nineteen
centuries off, or one of them is beyond the last day there is (`nextRuns_iff`).
-/

set_option autoImplicit false

namespace IotSaas.Schedule

open Lib

/-! ## Wall-clock minutes -/

def WallTime.date (w : WallTime) : Date := ⟨w.year, w.month, w.day⟩

/-- A minute on the clock, with the weekday of its date. -/
structure WallTime.Valid (w : WallTime) : Prop where
  date : w.date.Valid
  hour : w.hour ≤ 23
  minute : w.minute ≤ 59
  dow : w.dow = weekdayOf w.date.number

instance (w : WallTime) : Decidable w.Valid :=
  decidable_of_iff (w.date.Valid ∧ w.hour ≤ 23 ∧ w.minute ≤ 59 ∧ w.dow = weekdayOf w.date.number)
    ⟨fun h => ⟨h.1, h.2.1, h.2.2.1, h.2.2.2⟩, fun h => ⟨h.date, h.hour, h.minute, h.dow⟩⟩

/-- Later on the same day. -/
def LaterThan (hour minute : Nat) (w : WallTime) : Prop :=
  hour < w.hour ∨ hour = w.hour ∧ minute < w.minute

def WallTime.Before (a b : WallTime) : Prop :=
  a.date.Before b.date ∨ a.date = b.date ∧ LaterThan a.hour a.minute b

/-! ## The search -/

/-- `Date.UTC`'s reading of a year. -/
def fullYear (year : Int) : Int := if 0 ≤ year ∧ year ≤ 99 then 1900 + year else year

/-- The days that a `Date` can have. -/
def InRange (day : Int) : Prop := -100000000 ≤ day ∧ day ≤ 100000000

instance (day : Int) : Decidable (InRange day) :=
  inferInstanceAs (Decidable (-100000000 ≤ day ∧ day ≤ 100000000))

/-- The day that `Date.UTC` starts from. -/
def utcDay (w : WallTime) : Int := Date.number ⟨fullYear w.year, w.month, w.day⟩

/-- `addDays`: `none` where its fields are `NaN`. -/
def addDays (w : WallTime) (n : Nat) : Option (Date × Nat) :=
  if InRange (utcDay w + n) then some (dateOfDay (utcDay w + n), weekdayOf (utcDay w + n)) else none

section

variable (parts : CronParts) (now : WallTime) (n : Nat)

/-- The innermost step. -/
def minuteStep (i : Nat) (day : Date × Nat) (hour : Nat) (out : List WallTime) (minute : Nat) :
    Except (List WallTime) (List WallTime) :=
  if i = 0 ∧ (hour < now.hour ∨ hour = now.hour ∧ minute ≤ now.minute) then .ok out
  else
    let out := out ++ [⟨day.1.year, day.1.month, day.1.day, hour, minute, day.2⟩]
    if n ≤ out.length then .error out else .ok out

/-- One day; what is no number is in no field. -/
def dayStep (out : List WallTime) (i : Nat) : Except (List WallTime) (List WallTime) :=
  if out.length < n then
    match addDays now i with
    | none => .ok out
    | some day =>
        if ¬ parts.months.contains day.1.month then .ok out
        else if ¬ parts.dayOk day.1.day day.2 then .ok out
        else
          parts.hours.foldlM
            (fun out hour => parts.minutes.foldlM (minuteStep now n i day hour) out) out
  else .error out

/-- `nextRuns`, of a cron that can be read. -/
def nextRunsOf : List WallTime :=
  match (List.range 400).foldlM (dayStep parts now n) [] with
  | .ok out | .error out => out

end

/-- `nextRuns`. -/
def nextRuns (cron : String) (now : WallTime) (n : Nat) : List WallTime :=
  match cronParts cron with
  | none => []
  | some parts => nextRunsOf parts now n

/-! ## What is due from a day on -/

/-- A matching minute of the 400 days from `base` on, on the first of them after `hour:minute`. -/
structure DueFrom (parts : CronParts) (base : Int) (hour minute : Nat) (w : WallTime) : Prop where
  valid : w.Valid
  hits : parts.Matches w
  lo : base ≤ w.date.number
  hi : w.date.number < base + 400
  first : w.date.number = base → LaterThan hour minute w

/-- The minute `h:m` of the `i`th day, if it is not too early on the first one. -/
def dueAt (hour minute i : Nat) (day : Date × Nat) (h m : Nat) : List WallTime :=
  if i = 0 ∧ (h < hour ∨ h = hour ∧ m ≤ minute) then []
  else [⟨day.1.year, day.1.month, day.1.day, h, m, day.2⟩]

theorem mem_dueAt {hour minute i : Nat} {day : Date × Nat} {h m : Nat} {w : WallTime} :
    w ∈ dueAt hour minute i day h m ↔ w = ⟨day.1.year, day.1.month, day.1.day, h, m, day.2⟩ ∧
      (i = 0 → LaterThan hour minute w) := by
  unfold dueAt
  split
  · rename_i hearly
    refine iff_of_false List.not_mem_nil ?_
    rintro ⟨rfl, hlater⟩
    have : hour < h ∨ hour = h ∧ minute < m := hlater hearly.1
    omega
  · rename_i hlater
    rw [List.mem_singleton, iff_self_and]
    rintro rfl hi
    show hour < h ∨ hour = h ∧ minute < m
    omega

theorem dueAt_pairwise (hour minute i : Nat) (day : Date × Nat) (h m : Nat) :
    (dueAt hour minute i day h m).Pairwise WallTime.Before := by
  unfold dueAt
  split
  · exact List.Pairwise.nil
  · exact List.pairwise_singleton _ _

section

variable (parts : CronParts) (base : Int) (hour minute : Nat)

/-- The matching minutes of one day. -/
def dueOn (i : Nat) : List WallTime :=
  let date := dateOfDay (base + i)
  let dow := weekdayOf (base + i)
  if parts.months.contains date.month ∧ parts.dayOk date.day dow then
    parts.hours.flatMap fun h => parts.minutes.flatMap (dueAt hour minute i (date, dow) h)
  else []

def dueFrom : List WallTime := (List.range 400).flatMap (dueOn parts base hour minute)

end

section

variable {parts : CronParts} {base : Int} {hour minute : Nat}

theorem mem_dueOn {i : Nat} {w : WallTime} : w ∈ dueOn parts base hour minute i ↔
    w.date = dateOfDay (base + i) ∧ w.dow = weekdayOf (base + i) ∧ parts.Matches w ∧
      (i = 0 → LaterThan hour minute w) := by
  unfold dueOn
  dsimp only
  split
  · rename_i hday
    simp only [List.mem_flatMap, mem_dueAt]
    constructor
    · rintro ⟨h, hh, m, hm, rfl, hlater⟩
      exact ⟨rfl, rfl, ⟨List.contains_iff_mem.mp hday.1, hday.2, hh, hm⟩, hlater⟩
    · rintro ⟨hdate, hdow, hmatches, hlater⟩
      refine ⟨w.hour, hmatches.hour, w.minute, hmatches.minute, ?_, hlater⟩
      rw [← hdate, ← hdow]
      rfl
  · rename_i hday
    constructor
    · intro hw
      cases hw
    · rintro ⟨hdate, hdow, hmatches, -⟩
      refine absurd ⟨List.contains_iff_mem.mpr ?_, ?_⟩ hday
      · rw [← hdate]
        exact hmatches.month
      · rw [← hdate, ← hdow]
        exact hmatches.day

/-- **The search finds what is due**, all of it and nothing else. -/
theorem mem_dueFrom (hread : parts.Read) {w : WallTime} :
    w ∈ dueFrom parts base hour minute ↔ DueFrom parts base hour minute w := by
  rw [dueFrom, List.mem_flatMap]
  constructor
  · rintro ⟨i, hi, hw⟩
    have hi := List.mem_range.mp hi
    obtain ⟨hdate, hdow, hmatches, hfirst⟩ := mem_dueOn.mp hw
    obtain ⟨hvalid, hnumber⟩ := number_dateOfDay (base + i)
    rw [← hdate] at hvalid hnumber
    have hhour := ((cronField_spec hread.hours).2 _ hmatches.hour).1
    have hminute := ((cronField_spec hread.minutes).2 _ hmatches.minute).1
    refine ⟨⟨hvalid, hhour, hminute, hnumber ▸ hdow⟩, hmatches, by omega, by omega, fun hbase => ?_⟩
    exact hfirst (by omega)
  · intro hdue
    have hlo := hdue.lo
    have hhi := hdue.hi
    have hday : base + ((w.date.number - base).toNat : Int) = w.date.number := by omega
    refine ⟨(w.date.number - base).toNat, List.mem_range.mpr (by omega), mem_dueOn.mpr ?_⟩
    rw [hday]
    refine ⟨(Date.dateOfDay_number hdue.valid.date).symm, hdue.valid.dow, hdue.hits, fun hi => ?_⟩
    exact hdue.first (by omega)

/-- They are found in order. -/
theorem dueFrom_pairwise (hread : parts.Read) :
    (dueFrom parts base hour minute).Pairwise WallTime.Before := by
  refine List.pairwise_flatMap.mpr ⟨fun i _ => ?_, ?_⟩
  · unfold dueOn
    dsimp only
    split
    · refine List.pairwise_flatMap.mpr ⟨fun h _ => ?_, ?_⟩
      · refine List.pairwise_flatMap.mpr ⟨fun m _ => dueAt_pairwise .., ?_⟩
        refine (cronField_spec hread.minutes).1.imp fun hlt a ha b hb => ?_
        rw [(mem_dueAt.mp ha).1, (mem_dueAt.mp hb).1]
        exact .inr ⟨rfl, .inr ⟨rfl, hlt⟩⟩
      · refine (cronField_spec hread.hours).1.imp fun hlt a ha b hb => ?_
        obtain ⟨m, -, ha⟩ := List.mem_flatMap.mp ha
        obtain ⟨m', -, hb⟩ := List.mem_flatMap.mp hb
        rw [(mem_dueAt.mp ha).1, (mem_dueAt.mp hb).1]
        exact .inr ⟨rfl, .inl hlt⟩
    · exact List.Pairwise.nil
  · refine List.pairwise_lt_range.imp fun {i j} hlt a ha b hb => .inl ?_
    obtain ⟨hadate, -⟩ := mem_dueOn.mp ha
    obtain ⟨hbdate, -⟩ := mem_dueOn.mp hb
    obtain ⟨havalid, hanumber⟩ := number_dateOfDay (base + i)
    obtain ⟨hbvalid, hbnumber⟩ := number_dateOfDay (base + j)
    rw [hadate, hbdate, ← Date.number_lt_iff havalid hbvalid, hanumber, hbnumber]
    omega

end

/-! ## The search finds it -/

section

variable {parts : CronParts} {now : WallTime} {n : Nat}

theorem minuteStep_eq {i : Nat} {day : Date × Nat} {h m : Nat} {out : List WallTime}
    (hout : out.length < n) : minuteStep now n i day h out m =
      gathered n (out ++ dueAt now.hour now.minute i day h m) := by
  unfold minuteStep gathered dueAt
  split
  · rw [List.append_nil, if_neg (Nat.not_le_of_lt hout)]
  · dsimp only
    split
    · rename_i hfull
      rw [List.take_of_length_le]
      rw [List.length_append, List.length_singleton]
      omega
    · rfl

theorem hourStep_eq {out : List WallTime} (hout : out.length < n) (i : Nat) (day : Date × Nat)
    (h : Nat) : parts.minutes.foldlM (minuteStep now n i day h) out =
      gathered n (out ++ parts.minutes.flatMap (dueAt now.hour now.minute i day h)) :=
  foldlM_gathered (f := minuteStep now n i day h) (fun _ _ hout => minuteStep_eq hout) hout

/-- What is due on a day, if there is that day. -/
theorem dayStep_eq {out : List WallTime} (hout : out.length < n) (i : Nat) :
    dayStep parts now n out i = gathered n (out ++
      if InRange (utcDay now + i) then dueOn parts (utcDay now) now.hour now.minute i else []) := by
  have hnothing : gathered n (out ++ []) = .ok out := by
    rw [List.append_nil, gathered, if_neg (Nat.not_le_of_lt hout)]
  unfold dayStep
  rw [if_pos hout]
  by_cases hrange : InRange (utcDay now + i)
  · have hadd : addDays now i =
        some (dateOfDay (utcDay now + i), weekdayOf (utcDay now + i)) := if_pos hrange
    rw [hadd, if_pos hrange]
    unfold dueOn
    dsimp only
    by_cases hmonth : parts.months.contains (dateOfDay (utcDay now + i)).month = true
    · by_cases hday : parts.dayOk (dateOfDay (utcDay now + i)).day
          (weekdayOf (utcDay now + i)) = true
      · rw [if_neg (not_not_intro hmonth), if_neg (not_not_intro hday), if_pos ⟨hmonth, hday⟩]
        exact foldlM_gathered (fun h out hout => hourStep_eq hout i _ h) hout
      · rw [if_neg (not_not_intro hmonth), if_pos hday, if_neg fun hboth => hday hboth.2, hnothing]
    · rw [if_pos hmonth, if_neg fun hboth => hmonth hboth.1, hnothing]
  · have hadd : addDays now i = none := if_neg hrange
    rw [hadd, if_neg hrange, hnothing]

/-- **The runs that are found**: of what is due from the day that `Date.UTC` starts from, the first
`n` on days that a `Date` can have. -/
theorem nextRunsOf_eq (parts : CronParts) (now : WallTime) (n : Nat) : nextRunsOf parts now n =
    ((dueFrom parts (utcDay now) now.hour now.minute).filter fun w =>
      decide (InRange w.date.number)).take n := by
  have hdays : (dueFrom parts (utcDay now) now.hour now.minute).filter
      (fun w => decide (InRange w.date.number)) = (List.range 400).flatMap fun (i : Nat) =>
        if InRange (utcDay now + i) then dueOn parts (utcDay now) now.hour now.minute i else [] := by
    rw [dueFrom, List.filter_flatMap]
    refine List.flatMap_congr fun i _ => ?_
    have hnumber : ∀ w ∈ dueOn parts (utcDay now) now.hour now.minute i,
        w.date.number = utcDay now + i := fun w hw => by
      rw [(mem_dueOn.mp hw).1]
      exact (number_dateOfDay _).2
    by_cases hrange : InRange (utcDay now + i)
    · rw [if_pos hrange]
      exact List.filter_eq_self.mpr fun w hw => by rw [hnumber w hw]; exact decide_eq_true hrange
    · rw [if_neg hrange]
      exact List.filter_eq_nil_iff.mpr fun w hw => by
        rw [hnumber w hw]
        simpa using hrange
  rw [hdays]
  unfold nextRunsOf
  cases n with
  | zero =>
    have hstop : (List.range 400).foldlM (dayStep parts now 0) [] = .error [] := rfl
    rw [hstop, List.take_zero]
  | succ n =>
    rw [foldlM_gathered (fun i out hout => dayStep_eq hout i) (Nat.succ_pos n), List.nil_append]
    unfold gathered
    split
    · rename_i out hsplit
      split at hsplit
      · cases hsplit
      · rename_i hfew
        cases hsplit
        exact (List.take_of_length_le (Nat.le_of_not_le hfew)).symm
    · rename_i out hsplit
      split at hsplit
      · exact (Except.error.inj hsplit).symm
      · cases hsplit

end

/-! ## The next matches -/

/-- A matching minute after `start`, not later than on the 400th day. -/
structure Due (parts : CronParts) (start w : WallTime) : Prop where
  valid : w.Valid
  hits : parts.Matches w
  after : start.Before w
  horizon : w.date.number < start.date.number + 400

theorem due_iff {parts : CronParts} {start w : WallTime} (hstart : start.date.Valid) :
    Due parts start w ↔ DueFrom parts start.date.number start.hour start.minute w := by
  constructor
  · intro h
    rcases h.after with hdate | ⟨hdate, hlater⟩
    · have hlt := (Date.number_lt_iff hstart h.valid.date).mpr hdate
      exact ⟨h.valid, h.hits, Int.le_of_lt hlt, h.horizon, fun heq => by omega⟩
    · exact ⟨h.valid, h.hits, by rw [hdate], h.horizon, fun _ => hlater⟩
  · intro h
    refine ⟨h.valid, h.hits, ?_, h.hi⟩
    rcases Int.lt_or_eq_of_le h.lo with hlt | heq
    · exact .inl ((Date.number_lt_iff hstart h.valid.date).mp hlt)
    · exact .inr ⟨Date.eq_of_number hstart h.valid.date heq, h.first heq.symm⟩

/-- The first `n` due minutes, in order. -/
def NextMatches (parts : CronParts) (start : WallTime) (n : Nat) (out : List WallTime) : Prop :=
  ∃ all : List WallTime, all.Pairwise WallTime.Before ∧ (∀ w, w ∈ all ↔ Due parts start w) ∧
    out = all.take n

/-- One of the first `n`: fewer than `n` are due before it. -/
def AmongFirst (parts : CronParts) (start : WallTime) (n : Nat) (w : WallTime) : Prop :=
  Due parts start w ∧ ∀ earlier : List WallTime, earlier.Nodup →
    (∀ v ∈ earlier, Due parts start v ∧ v.Before w) → earlier.length < n

/-- Where the search does not go astray: in the first hundred years nothing may be due, then or
nineteen centuries on, and elsewhere the first `n` are on days that a `Date` can have. -/
def OnCourse (parts : CronParts) (start : WallTime) (n : Nat) : Prop :=
  n = 0 ∨
    if 0 ≤ start.year ∧ start.year ≤ 99 then
      (∀ w, ¬ Due parts start w) ∧ ∀ w, ¬ DueFrom parts (utcDay start) start.hour start.minute w
    else ∀ w, AmongFirst parts start n w → InRange w.date.number

theorem not_before_self (w : WallTime) : ¬ w.Before w := by
  unfold WallTime.Before Date.Before LaterThan
  omega

theorem before_trans {a b c : WallTime} (hab : a.Before b) (hbc : b.Before c) : a.Before c := by
  obtain ⟨y, mo, d, h, mi, w⟩ := a
  obtain ⟨y', mo', d', h', mi', w'⟩ := b
  obtain ⟨y'', mo'', d'', h'', mi'', w''⟩ := c
  simp only [WallTime.Before, Date.Before, LaterThan, WallTime.date, Date.mk.injEq] at hab hbc ⊢
  omega

theorem nodup_of_pairwise {all : List WallTime} (h : all.Pairwise WallTime.Before) : all.Nodup :=
  List.Pairwise.imp (by rintro a _ hab rfl; exact not_before_self a hab) h

/-- There is one list of the due minutes in order. -/
theorem eq_of_before {first second : List WallTime} (hfirst : first.Pairwise WallTime.Before)
    (hsecond : second.Pairwise WallTime.Before) (h : ∀ w, w ∈ first ↔ w ∈ second) :
    first = second := by
  have hperm : first.Perm second := (List.perm_ext_iff_of_nodup (nodup_of_pairwise hfirst)
    (nodup_of_pairwise hsecond)).mpr h
  exact hperm.eq_of_pairwise
    (fun _ _ _ _ hab hba => absurd (before_trans hab hba) (not_before_self _)) hfirst hsecond

section

variable {parts : CronParts} {start : WallTime} {n : Nat} {all : List WallTime}
  (hpairwise : all.Pairwise WallTime.Before) (hall : ∀ w, w ∈ all ↔ Due parts start w)

include hpairwise hall

theorem nextMatches_iff {out : List WallTime} : NextMatches parts start n out ↔ out = all.take n := by
  constructor
  · rintro ⟨all', hpairwise', hall', rfl⟩
    rw [eq_of_before hpairwise' hpairwise fun w => (hall' w).trans (hall w).symm]
  · intro h
    exact ⟨all, hpairwise, hall, h⟩

theorem mem_take_iff {w : WallTime} : w ∈ all.take n ↔ AmongFirst parts start n w := by
  constructor
  · intro hw
    obtain ⟨before, after, hsplit⟩ := List.append_of_mem hw
    have hlen : before.length < n := by
      have htake := congrArg List.length hsplit
      rw [List.length_take, List.length_append, List.length_cons] at htake
      omega
    have hfull : all = before ++ w :: (after ++ all.drop n) := by
      conv_lhs => rw [← List.take_append_drop n all, hsplit]
      simp
    refine ⟨(hall w).mp (List.mem_of_mem_take hw), fun earlier hnodup hearlier => ?_⟩
    -- whatever is due before `w` stands before it
    have hsub : earlier ⊆ before := by
      intro v hv
      obtain ⟨hdue, hbefore⟩ := hearlier v hv
      have hmem := (hall v).mpr hdue
      rw [hfull] at hmem hpairwise
      rcases List.mem_append.mp hmem with hmem | hmem
      · exact hmem
      · exfalso
        rcases List.mem_cons.mp hmem with rfl | hmem
        · exact not_before_self _ hbefore
        · have hafter := (List.pairwise_cons.mp (List.pairwise_append.mp hpairwise).2.1).1 v hmem
          exact not_before_self _ (before_trans hbefore hafter)
    exact Nat.lt_of_le_of_lt (List.subperm_of_subset hnodup hsub).length_le hlen
  · rintro ⟨hdue, hfew⟩
    obtain ⟨before, after, hsplit⟩ := List.append_of_mem ((hall w).mpr hdue)
    have hpairs := List.pairwise_append.mp (hsplit ▸ hpairwise)
    have hlen : before.length < n := by
      refine hfew before (nodup_of_pairwise hpairs.1) fun v hv => ⟨(hall v).mp ?_, ?_⟩
      · rw [hsplit]
        exact List.mem_append_left _ hv
      · exact hpairs.2.2 v hv w List.mem_cons_self
    obtain ⟨k, rfl⟩ : ∃ k, n = before.length + (k + 1) := ⟨n - before.length - 1, by omega⟩
    rw [hsplit, List.take_length_add_append, List.take_succ_cons]
    simp

end

theorem mem_dueFrom_due {parts : CronParts} {start : WallTime} (hread : parts.Read)
    (hstart : start.date.Valid) (w : WallTime) :
    w ∈ dueFrom parts start.date.number start.hour start.minute ↔ Due parts start w :=
  (mem_dueFrom hread).trans (due_iff hstart).symm

/-- The first hundred years are read as the twentieth century. -/
theorem utcDay_old {start : WallTime} (hyear : 0 ≤ start.year ∧ start.year ≤ 99)
    (hstart : start.date.Valid) :
    start.date.number + 400 ≤ utcDay start ∧ InRange (utcDay start) ∧
      InRange (utcDay start + 400) := by
  have hbounds := hstart.bounds
  have hfull : utcDay start =
      dayFromYear (1900 + start.year) + Date.before ⟨1900 + start.year, start.month, start.day⟩ +
        start.day - 1 := by
    rw [utcDay, fullYear, if_pos hyear]
    rfl
  have hbefore := Date.before_le ⟨1900 + start.year, start.month, start.day⟩
  have hday := hstart.day
  have hnumber : start.date.number =
      dayFromYear start.year + start.date.before + start.date.day - 1 := rfl
  have hyears : start.date.year = start.year := rfl
  have hdays : start.date.day = start.day := rfl
  rw [hfull]
  unfold InRange
  rw [hyears] at hbounds
  unfold dayFromYear at *
  omega

/-- Keeping what the first `n` all are changes none of them. -/
theorem take_filter {p : WallTime → Bool} : ∀ {all : List WallTime} {n : Nat},
    (∀ w ∈ all.take n, p w = true) → (all.filter p).take n = all.take n
  | [], _, _ => rfl
  | _ :: _, 0, _ => rfl
  | w :: rest, n + 1, h => by
      have hw : p w = true := h w (by simp)
      have hrest : ∀ v ∈ rest.take n, p v = true := fun v hv => h v (by simp [hv])
      rw [List.filter_cons_of_pos hw, List.take_succ_cons, List.take_succ_cons, take_filter hrest]

/-- **The next runs are the next matches** exactly where the search stays on course. -/
theorem nextRuns_iff {cron : String} {parts : CronParts} (hparts : cronParts cron = some parts)
    {start : WallTime} (hstart : start.Valid) (n : Nat) :
    NextMatches parts start n (nextRuns cron start n) ↔ OnCourse parts start n := by
  obtain ⟨-, hread⟩ := cronParts_eq_some.mp hparts
  have hruns : nextRuns cron start n = nextRunsOf parts start n := by
    rw [nextRuns, hparts]
  have hpairwise : (dueFrom parts start.date.number start.hour start.minute).Pairwise
      WallTime.Before := dueFrom_pairwise hread
  have hall := mem_dueFrom_due hread hstart.date
  rw [hruns, nextRunsOf_eq, nextMatches_iff hpairwise hall]
  unfold OnCourse
  cases n with
  | zero => simp
  | succ n =>
    rw [or_iff_right (Nat.succ_ne_zero n)]
    split
    · rename_i hyear
      obtain ⟨hfar, hlo, hhi⟩ := utcDay_old hyear hstart.date
      have hfound : ∀ w, w ∈ dueFrom parts (utcDay start) start.hour start.minute ↔
          DueFrom parts (utcDay start) start.hour start.minute w := fun w => mem_dueFrom hread
      have hkept : (dueFrom parts (utcDay start) start.hour start.minute).filter
          (fun w => decide (InRange w.date.number)) =
          dueFrom parts (utcDay start) start.hour start.minute := by
        refine List.filter_eq_self.mpr fun w hw => decide_eq_true ?_
        have hdue := (hfound w).mp hw
        have hwlo := hdue.lo
        have hwhi := hdue.hi
        unfold InRange at hlo hhi ⊢
        omega
      rw [hkept]
      constructor
      · intro hruns
        cases hdue : dueFrom parts start.date.number start.hour start.minute with
        | nil =>
          rw [hdue, List.take_nil, List.take_eq_nil_iff] at hruns
          have hnone := hruns.resolve_left (Nat.succ_ne_zero n)
          refine ⟨fun w hw => ?_, fun w hw => ?_⟩
          · rw [← hall, hdue] at hw
            cases hw
          · rw [← hfound, hnone] at hw
            cases hw
        | cons w rest =>
          -- what is due first would have been found, nineteen centuries on
          have hmem : w ∈ (dueFrom parts (utcDay start) start.hour start.minute).take (n + 1) := by
            rw [hruns, hdue]
            simp
          have hlate := ((hfound w).mp (List.mem_of_mem_take hmem)).lo
          have hearly := ((hall w).mp (by simp [hdue])).horizon
          omega
      · rintro ⟨hnone, hnone'⟩
        have hempty : dueFrom parts start.date.number start.hour start.minute = [] :=
          List.eq_nil_iff_forall_not_mem.mpr fun w hw => hnone w ((hall w).mp hw)
        have hempty' : dueFrom parts (utcDay start) start.hour start.minute = [] :=
          List.eq_nil_iff_forall_not_mem.mpr fun w hw => hnone' w ((hfound w).mp hw)
        rw [hempty, hempty']
    · rename_i hyear
      have hsame : utcDay start = start.date.number := by
        rw [utcDay, fullYear, if_neg hyear]
        rfl
      rw [hsame]
      constructor
      · intro hruns w hw
        have hmem := (mem_take_iff hpairwise hall).mpr hw
        rw [← hruns] at hmem
        exact of_decide_eq_true (List.mem_filter.mp (List.mem_of_mem_take hmem)).2
      · intro hrange
        exact take_filter fun w hw =>
          decide_eq_true (hrange w ((mem_take_iff hpairwise hall).mp hw))

example : nextRuns "0 8 29-31 * *" ⟨2028, 1, 31, 8, 0, 1⟩ 2 =
    [⟨2028, 2, 29, 8, 0, 2⟩, ⟨2028, 3, 29, 8, 0, 3⟩] := by decide +kernel

/-- The next leap day, from the one before. -/
theorem nextRuns_leap : ∃ parts, cronParts "0 8 29 2 *" = some parts ∧
    (NextMatches parts ⟨2028, 2, 29, 8, 0, 2⟩ 1 (nextRuns "0 8 29 2 *" ⟨2028, 2, 29, 8, 0, 2⟩ 1) ↔
      OnCourse parts ⟨2028, 2, 29, 8, 0, 2⟩ 1) :=
  ⟨_, rfl, nextRuns_iff rfl (by decide) 1⟩

/-- In the year 50 the next run is in 1950. -/
theorem year_fifty : ∃ parts, cronParts "0 8 * * *" = some parts ∧
    WallTime.Valid ⟨50, 6, 1, 7, 0, 3⟩ ∧
    nextRuns "0 8 * * *" ⟨50, 6, 1, 7, 0, 3⟩ 1 = [⟨1950, 6, 1, 8, 0, 4⟩] ∧
    ¬ NextMatches parts ⟨50, 6, 1, 7, 0, 3⟩ 1 (nextRuns "0 8 * * *" ⟨50, 6, 1, 7, 0, 3⟩ 1) := by
  have hruns : nextRuns "0 8 * * *" ⟨50, 6, 1, 7, 0, 3⟩ 1 = [⟨1950, 6, 1, 8, 0, 4⟩] := by
    decide +kernel
  refine ⟨_, rfl, by decide, hruns, ?_⟩
  rintro ⟨all, -, hall, htake⟩
  rw [hruns] at htake
  have hmem : (⟨1950, 6, 1, 8, 0, 4⟩ : WallTime) ∈ all.take 1 := by
    rw [← htake]
    exact List.mem_singleton.mpr rfl
  have hhorizon := ((hall _).mp (List.mem_of_mem_take hmem)).horizon
  revert hhorizon
  decide

end IotSaas.Schedule
