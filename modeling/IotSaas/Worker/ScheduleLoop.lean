import IotSaas.Lib.Attempt
import IotSaas.Rules.Cache
import Mathlib.Data.List.Chain
import Mathlib.Data.List.Nodup
import Mathlib.Data.List.TakeWhile

/-!
# `Worker/ScheduleLoop.lean` — `schedule_loop`, over a whole run

Every tick reads the clock, cuts it to the minute, and requests a run of every scheduled rule whose
cron expression matches. Which minutes have been requested is not remembered. What keeps a rule from
being requested twice is the sleep behind a tick: to the next minute if it went well, and three
seconds if a publish raised — and after those the whole list is gone through again.

The rules are those the cache has at the beginning of a tick, so an edit between two ticks changes
the list. `requestedOnce_iff` says when a second tick in a minute is harmless: if it reaches no rule
that the first one has reached, and where the list has not changed, if one of them did not get its
first request out. A loop that is never refused a publish and never wakes early is within that
(`requestedOnce_of_punctual`).
-/

set_option autoImplicit false

namespace IotSaas.Worker.ScheduleLoop

open Lib Rules

variable {F : Type}

/-- croniter and the time zones: whether an expression matches at an instant in a zone. It raises
at a bad expression or zone. -/
structure Calendar where
  isMatch : String → String → Datetime → Option Bool

/-- `schedule_due`: `False` where it cannot be said. -/
def scheduleDue (calendar : Calendar) (rule : Rule F) (now : Datetime) : Bool :=
  match rule.trigger with
  | .schedule cron timezone => (calendar.isMatch cron timezone now).getD false
  | _ => false

/-- What is published for a rule that is due. -/
structure RunRequest where
  tenantId : Uuid
  ruleId : Uuid
  deriving DecidableEq

def runRequest (rule : Rule F) : RunRequest := ⟨rule.tenantId, rule.id⟩

/-- `now.replace(second=0, microsecond=0)`. -/
def toMinute (now : Datetime) : Datetime := now - now % seconds 60

/-- One round of the loop as the world has it: what the clock says at its beginning,
`scheduled_rules_snapshot()` as the rule cache has it then, whose publish raises, and what the clock
says behind it. -/
structure Tick (F : Type) where
  reading : Datetime
  rules : List (Rule F)
  raises : RunRequest → Option String
  finished : Datetime

def Tick.minute (tick : Tick F) : Datetime := toMinute tick.reading

section

variable (calendar : Calendar)

/-- `_tick_schedules`. -/
def tickSchedules (tick : Tick F) : Attempt RunRequest String (List Unit) :=
  Attempt.each
    (fun rule =>
      if scheduleDue calendar rule tick.minute then Attempt.perform (runRequest rule) else pure ())
    tick.rules

/-- The requests that are out after a tick. -/
def published (tick : Tick F) : List RunRequest :=
  (tickSchedules calendar tick).done tick.raises

/-- Every request of a run, under the minute it was for. -/
def requests (ticks : List (Tick F)) : List (Datetime × RunRequest) :=
  ticks.flatMap fun tick => (published calendar tick).map fun request => (tick.minute, request)

/-- `RECONNECT_SECONDS`. -/
def reconnectSeconds : Int := 3

/-- `_seconds_to_next_minute`. -/
def secondsToNextMinute (now : Datetime) : Int := seconds 60 - now % seconds 60

/-- How long the loop sleeps after a tick. -/
def pauseAfter (tick : Tick F) : Int :=
  match (tickSchedules calendar tick).result tick.raises with
  | .ok _ => secondsToNextMinute tick.finished
  | .error _ => seconds reconnectSeconds

/-- The clock does not go backwards. -/
def ClockRuns (ticks : List (Tick F)) : Prop :=
  (∀ tick ∈ ticks, tick.reading ≤ tick.finished) ∧
    ticks.IsChain fun tick next => tick.finished ≤ next.reading

/-- No sleep ends early. -/
def Punctual (ticks : List (Tick F)) : Prop :=
  ticks.IsChain fun tick next => tick.finished + pauseAfter calendar tick ≤ next.reading

/-- **At most one request for each rule and minute.** -/
def RequestedOnce (ticks : List (Tick F)) : Prop :=
  ∀ tick ∈ ticks, ∀ rule ∈ tick.rules, ∀ minute,
    (requests calendar ticks).count (minute, runRequest rule) ≤ 1

/-- The rules of a tick that are due, in the order they are gone through. -/
def Tick.due (tick : Tick F) : List (Rule F) :=
  tick.rules.filter fun rule => scheduleDue calendar rule tick.minute

/-- A due rule is reached: neither its publish raises nor one for a due rule before it. -/
def Tick.Reaches (tick : Tick F) (request : RunRequest) : Prop :=
  ∃ before rest, (tick.due calendar).map runRequest = before ++ request :: rest ∧
    ∀ earlier ∈ before ++ [request], tick.raises earlier = none

/-- Something is due, and the first request gets out. -/
def Tick.Starts (tick : Tick F) : Prop :=
  ∃ rule, (tick.due calendar).head? = some rule ∧ tick.raises (runRequest rule) = none

end

/-! ## One tick -/

/-- What `takeWhile` keeps, by what stands before it. -/
theorem mem_takeWhile_iff {α : Type} {p : α → Bool} {l : List α} {a : α} :
    a ∈ l.takeWhile p ↔
      ∃ before rest, l = before ++ a :: rest ∧ ∀ b ∈ before ++ [a], p b = true := by
  constructor
  · intro ha
    obtain ⟨before, rest, heq⟩ := List.append_of_mem ha
    refine ⟨before, rest ++ l.dropWhile p, ?_, fun b hb => ?_⟩
    · rw [← List.cons_append, ← List.append_assoc, ← heq, List.takeWhile_append_dropWhile]
    · refine List.mem_takeWhile_imp (l := l) ?_
      rw [heq, List.append_cons]
      exact List.mem_append_left rest hb
  · rintro ⟨before, rest, rfl, hall⟩
    rw [List.append_cons, List.takeWhile_append_of_pos hall]
    exact List.mem_append_left _ (List.mem_append_right _ List.mem_cons_self)

section

variable {calendar : Calendar}

/-- **A tick** gets through the due rules up to the first publish that raises. -/
theorem published_eq (tick : Tick F) : published calendar tick =
    ((tick.due calendar).map runRequest).takeWhile fun request => (tick.raises request).isNone :=
  Attempt.done_each_when tick.raises _ runRequest tick.rules

variable {tick : Tick F} {request : RunRequest}

theorem mem_published_iff :
    request ∈ published calendar tick ↔ tick.Reaches calendar request := by
  rw [published_eq, mem_takeWhile_iff]
  simp only [Option.isNone_iff_eq_none]
  rfl

theorem nodup_published (hrules : (tick.rules.map runRequest).Nodup) :
    (published calendar tick).Nodup := by
  rw [published_eq]
  refine List.Nodup.sublist ?_ hrules
  exact (List.takeWhile_sublist _).trans (List.filter_sublist.map runRequest)

theorem rule_of_reaches (h : tick.Reaches calendar request) :
    ∃ rule ∈ tick.rules, runRequest rule = request := by
  obtain ⟨before, rest, heq, -⟩ := h
  have hmem : request ∈ (tick.due calendar).map runRequest := by
    rw [heq]
    exact List.mem_append_right before List.mem_cons_self
  obtain ⟨rule, hrule, hrequest⟩ := List.mem_map.mp hmem
  exact ⟨rule, List.mem_of_mem_filter hrule, hrequest⟩

/-- A tick that starts has reached the first rule that is due. -/
theorem reaches_of_head {rule : Rule F} (hfirst : (tick.due calendar).head? = some rule)
    (hraises : tick.raises (runRequest rule) = none) :
    tick.Reaches calendar (runRequest rule) := by
  obtain ⟨rest, hdue⟩ := List.head?_eq_some_iff.mp hfirst
  refine ⟨[], rest.map runRequest, ?_, ?_⟩
  · rw [hdue]
    rfl
  · simpa using hraises

/-- Any other tick has reached nothing. -/
theorem starts_of_reaches (h : tick.Reaches calendar request) : tick.Starts calendar := by
  obtain ⟨before, rest, heq, hraises⟩ := h
  cases hdue : tick.due calendar with
  | nil =>
    rw [hdue] at heq
    cases before <;> cases heq
  | cons rule others =>
    refine ⟨rule, by rw [hdue]; rfl, hraises _ ?_⟩
    rw [hdue] at heq
    cases before with
    | nil =>
      cases heq
      exact List.mem_cons_self
    | cons first before =>
      rw [← (List.cons.inj heq).1]
      exact List.mem_cons_self

/-! ## A whole run -/

theorem mem_requests {ticks : List (Tick F)} {minute : Datetime} :
    (minute, request) ∈ requests calendar ticks ↔
      ∃ tick ∈ ticks, tick.minute = minute ∧ tick.Reaches calendar request := by
  simp only [requests, List.mem_flatMap, List.mem_map, Prod.mk.injEq]
  constructor
  · rintro ⟨tick, htick, request', hrequest, hminute, rfl⟩
    exact ⟨tick, htick, hminute, mem_published_iff.mp hrequest⟩
  · rintro ⟨tick, htick, hminute, hreaches⟩
    exact ⟨tick, htick, request, mem_published_iff.mpr hreaches, hminute, rfl⟩

/-- Once for each rule and minute is once altogether. -/
theorem requestedOnce_iff_nodup (ticks : List (Tick F)) :
    RequestedOnce calendar ticks ↔ (requests calendar ticks).Nodup := by
  rw [List.nodup_iff_count_le_one]
  constructor
  · intro honce entry
    by_cases hmem : entry ∈ requests calendar ticks
    · obtain ⟨tick, htick, -, hreaches⟩ := mem_requests.mp hmem
      obtain ⟨rule, hrule, heq⟩ := rule_of_reaches hreaches
      have hcount := honce tick htick rule hrule entry.1
      rw [heq] at hcount
      exact hcount
    · rw [List.count_eq_zero_of_not_mem hmem]
      exact Nat.zero_le 1
  · intro hnodup tick _ rule _ minute
    exact hnodup (minute, runRequest rule)

/-- Two ticks request nothing twice exactly if, where they are for one minute, no rule is reached by
both. -/
theorem disjoint_iff (a b : Tick F) :
    List.Disjoint ((published calendar a).map fun request => (a.minute, request))
        ((published calendar b).map fun request => (b.minute, request)) ↔
      (a.minute = b.minute → ∀ request, a.Reaches calendar request →
        ¬ b.Reaches calendar request) := by
  constructor
  · intro hdisjoint hminute request ha hb
    refine hdisjoint (a := (a.minute, request)) ?_ ?_
    · exact List.mem_map_of_mem (mem_published_iff.mpr ha)
    · rw [hminute]
      exact List.mem_map_of_mem (mem_published_iff.mpr hb)
  · intro hnot entry hentry hentry'
    obtain ⟨request, hrequest, rfl⟩ := List.mem_map.mp hentry
    obtain ⟨request', hrequest', heq⟩ := List.mem_map.mp hentry'
    obtain ⟨hminute, rfl⟩ := Prod.mk.inj heq
    exact hnot hminute.symm _ (mem_published_iff.mp hrequest) (mem_published_iff.mp hrequest')

/-- Over one list of rules, two ticks of a minute have the first due rule in common. -/
theorem reaches_apart_iff {a b : Tick F} (hrules : a.rules = b.rules) :
    (a.minute = b.minute → ∀ request, a.Reaches calendar request → ¬ b.Reaches calendar request) ↔
      ¬ (a.minute = b.minute ∧ a.Starts calendar ∧ b.Starts calendar) := by
  constructor
  · intro hapart hboth
    obtain ⟨hminute, ⟨rule, hfirst, ha⟩, rule', hfirst', hb⟩ := hboth
    have hdue : a.due calendar = b.due calendar := by
      unfold Tick.due
      rw [hrules, hminute]
    rw [← hdue, hfirst] at hfirst'
    cases hfirst'
    exact hapart hminute _ (reaches_of_head hfirst ha) (reaches_of_head (hdue ▸ hfirst) hb)
  · intro hnot hminute request ha hb
    exact hnot ⟨hminute, starts_of_reaches ha, starts_of_reaches hb⟩

end

/-- **A run requests every tick once** exactly if two ticks of one minute reach no rule both; and
where the rules stay as they are, exactly if for every minute with something due one tick at most
gets its first request out. -/
theorem requestedOnce_iff (calendar : Calendar) (ticks : List (Tick F))
    (hrules : ∀ tick ∈ ticks, (tick.rules.map runRequest).Nodup) :
    (RequestedOnce calendar ticks ↔
      ticks.Pairwise fun a b => a.minute = b.minute →
        ∀ request, a.Reaches calendar request → ¬ b.Reaches calendar request) ∧
    ∀ rules, (∀ tick ∈ ticks, tick.rules = rules) →
      (RequestedOnce calendar ticks ↔
        ticks.Pairwise fun a b =>
          ¬ (a.minute = b.minute ∧ a.Starts calendar ∧ b.Starts calendar)) := by
  have hiff : RequestedOnce calendar ticks ↔
      ticks.Pairwise fun a b => a.minute = b.minute →
        ∀ request, a.Reaches calendar request → ¬ b.Reaches calendar request := by
    rw [requestedOnce_iff_nodup, requests, List.nodup_flatMap]
    constructor
    · intro hnodup
      exact hnodup.2.imp fun {a b} hdisjoint => (disjoint_iff a b).mp hdisjoint
    · intro hpairwise
      refine ⟨?_, hpairwise.imp fun {a b} hnot => (disjoint_iff a b).mpr hnot⟩
      intro tick htick
      exact (nodup_published (hrules tick htick)).map fun _ _ heq => congrArg Prod.snd heq
  refine ⟨hiff, fun rules hsame => hiff.trans (List.Pairwise.iff_of_mem ?_)⟩
  intro a b ha hb
  exact reaches_apart_iff ((hsame a ha).trans (hsame b hb).symm)

/-! ## A loop that is never refused and never wakes early -/

theorem minute_lt {reading finished next : Int} (hclock : reading ≤ finished)
    (hpause : finished + secondsToNextMinute finished ≤ next) :
    toMinute reading < toMinute next := by
  have hpause' : finished + (60 * 1000000 - finished % (60 * 1000000)) ≤ next := hpause
  show reading - reading % (60 * 1000000) < next - next % (60 * 1000000)
  omega

theorem result_tickSchedules (calendar : Calendar) {tick : Tick F}
    (h : ∀ request, tick.raises request = none) :
    ∃ units, (tickSchedules calendar tick).result tick.raises = .ok units := by
  refine ⟨_, (Attempt.each_ok tick.raises (g := fun _ => ()) ?_).1⟩
  intro rule _
  split
  · exact Attempt.result_perform tick.raises (h _)
  · rfl

/-- The ticks of such a loop are for minutes one after the other. -/
theorem requestedOnce_of_punctual (calendar : Calendar) (ticks : List (Tick F))
    (hrules : ∀ tick ∈ ticks, (tick.rules.map runRequest).Nodup)
    (hraises : ∀ tick ∈ ticks, ∀ request, tick.raises request = none)
    (hclock : ClockRuns ticks) (hpunctual : Punctual calendar ticks) :
    RequestedOnce calendar ticks := by
  have hlater : ticks.IsChain fun tick next => tick.minute < next.minute := by
    refine hpunctual.imp_of_mem_imp ?_
    intro tick next htick _ hpause
    obtain ⟨units, hresult⟩ := result_tickSchedules calendar (hraises tick htick)
    unfold pauseAfter at hpause
    rw [hresult] at hpause
    exact minute_lt (hclock.1 tick htick) hpause
  have : Trans (fun tick next : Tick F => tick.minute < next.minute)
      (fun tick next : Tick F => tick.minute < next.minute)
      (fun tick next : Tick F => tick.minute < next.minute) := ⟨fun h h' => Int.lt_trans h h'⟩
  apply (requestedOnce_iff calendar ticks hrules).1.mpr
  refine (List.isChain_iff_pairwise.mp hlater).imp fun {tick next} hlt hminute => ?_
  rw [hminute] at hlt
  exact absurd hlt (Int.lt_irrefl _)

/-! ## A publish that is refused -/

/-- Every minute of every day. -/
def everyMinute : Calendar where
  isMatch := fun _ _ _ => some true

def scheduledRule (id : Uuid) : Rule Int :=
  { id := id
    tenantId := "tenant"
    trigger := .schedule "* * * * *" "UTC"
    condition := none }

/-- A tick over some rules that Redis takes everything from, but for the requests of one rule. -/
def tickAt (ids : List Uuid) (reading finished : Datetime) (refused : Option Uuid) : Tick Int :=
  { reading := reading
    rules := ids.map scheduledRule
    raises := fun request =>
      if refused = some request.ruleId then some "Connection refused" else none
    finished := finished }

/-- Two minutes, two ticks, and a rule that was made between them. -/
theorem requestedOnce_pump :
    RequestedOnce everyMinute
      [tickAt ["pump"] (seconds 0) (seconds 0) none,
        tickAt ["pump", "lamp"] (seconds 60) (seconds 60) none] :=
  (requestedOnce_iff everyMinute _ (by decide)).1.mpr (by
    refine List.Pairwise.cons ?_ (List.pairwise_singleton _ _)
    intro tick htick hminute
    cases List.mem_singleton.mp htick
    exact absurd hminute (by decide))

/-- The second tick takes its time. -/
theorem requestedOnce_of_punctual_late : RequestedOnce everyMinute
    [tickAt ["pump"] 0 0 none, tickAt ["pump", "lamp"] (seconds 61) (seconds 70) none,
      tickAt ["lamp"] (seconds 120) (seconds 120) none] :=
  requestedOnce_of_punctual _ _ (by decide) (by simp [tickAt])
    ⟨by decide, by simp [tickAt, seconds]⟩ (by simp only [Punctual, List.isChain_cons_cons]; decide)

/-- **The pump is started twice in a minute**: the publish for the lamp is refused, and three
seconds later the list is gone through from its beginning. And so it is when the sleep to the next
minute ends a microsecond early. -/
theorem requested_twice :
    (ClockRuns [tickAt ["pump", "lamp"] (seconds 0) (seconds 0) (some "lamp"),
        tickAt ["pump", "lamp"] (seconds 3) (seconds 3) none] ∧
      Punctual everyMinute [tickAt ["pump", "lamp"] (seconds 0) (seconds 0) (some "lamp"),
        tickAt ["pump", "lamp"] (seconds 3) (seconds 3) none] ∧
      ¬ RequestedOnce everyMinute [tickAt ["pump", "lamp"] (seconds 0) (seconds 0) (some "lamp"),
        tickAt ["pump", "lamp"] (seconds 3) (seconds 3) none]) ∧
    (ClockRuns [tickAt ["pump"] (seconds 0) (seconds 0) none,
        tickAt ["pump"] (seconds 60 - 1) (seconds 60 - 1) none] ∧
      ¬ RequestedOnce everyMinute [tickAt ["pump"] (seconds 0) (seconds 0) none,
        tickAt ["pump"] (seconds 60 - 1) (seconds 60 - 1) none]) := by
  refine ⟨⟨?_, ?_, ?_⟩, ?_, ?_⟩
  · exact ⟨by simp [tickAt], by simp [tickAt, seconds]⟩
  · simp only [Punctual, List.isChain_pair]
    decide
  · intro honce
    have hcount := honce _ List.mem_cons_self (scheduledRule "pump") List.mem_cons_self 0
    revert hcount
    decide
  · exact ⟨by simp [tickAt], by simp [tickAt, seconds]⟩
  · intro honce
    have hcount := honce _ List.mem_cons_self (scheduledRule "pump") List.mem_cons_self 0
    revert hcount
    decide

end IotSaas.Worker.ScheduleLoop
