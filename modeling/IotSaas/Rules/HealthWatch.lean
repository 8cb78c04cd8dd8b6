import IotSaas.Lib.Logs
import IotSaas.Lib.Reach
import IotSaas.Rules.Cache
import IotSaas.Rules.Calls
import IotSaas.Rules.Signals
import Mathlib.Data.List.Dedup
import Mathlib.Data.String.Basic

/-!
# `Rules/HealthWatch.lean` — telling when a rule can't evaluate

`emit_rule_health_transitions` of `rules/service.py`, run over and over by `rules_maintenance_loop`.
A pass looks at every cached rule that is not manual, remembers per rule whether its signals were
all fresh, and speaks up when that flips: a realtime event, and towards the bad side a notification,
at most one an hour. Its turns are taken apart by awaits, so each finds a cache of its own; and each
await may raise, which ends the pass there and then (the loop logs it and tries again later).

What went out and what the worker has on record are two things, and a turn that raises between the
two puts them apart. `log` keeps the whole history, the silent entries included, so that the three
results can speak of it: the last word on a rule is the one on record unless its last turn broke off
(`told_recorded`), no event repeats the one before it (`health_flips`), and the alerts of a rule are
an hour apart (`alerts_spaced`).

`evaluatable_iff` ties the word to the evaluator: a rule is called evaluatable exactly when none of
its leaves would answer *unknown*.
-/

set_option autoImplicit false

namespace IotSaas.Rules.HealthWatch

open Lib

variable {F : Type}

/-! ## `_rule_evaluatable_now` -/

/-- A signal with no reading, or with one past its bound. -/
def goneQuiet (cache : MetricSnapshot F) (now : Datetime) (signal : SignalKey) : Bool :=
  match cache.get signal with
  | none => true
  | some metricValue => decide (seconds metricValue.maxAgeSeconds < elapsed now metricValue.timestamp)

/-- The order of a `SignalKey`, a tuple of two strings. -/
def signalLe (a b : SignalKey) : Bool :=
  if a.deviceId = b.deviceId then decide (a.metric ≤ b.metric) else decide (a.deviceId ≤ b.deviceId)

/-- `_rule_evaluatable_now`: whether every signal is fresh, and those that are not. -/
def ruleEvaluatableNow (rule : Rule F) (cache : MetricSnapshot F) (now : Datetime) :
    Bool × List SignalKey :=
  let bad := (referencedSignals rule.condition).filter (goneQuiet cache now)
  (bad.isEmpty, bad.mergeSort signalLe)

/-- `_bad_signal_phrase`. -/
def badSignalPhrase (bad : List SignalKey) : String :=
  let metrics := (bad.map (·.metric)).dedup.mergeSort fun a b => decide (a ≤ b)
  let verb := if metrics.length = 1 then "is" else "are"
  ", ".intercalate metrics ++ " " ++ verb ++ " stale or not reporting"

/-! ## The watch -/

/-- `_RuleHealthTrack`. -/
structure Track where
  evaluatable : Bool
  lastAlertAt : Option Datetime
  deriving DecidableEq

/-- `_RULE_HEALTH_RENOTIFY_AFTER`: an hour. -/
def renotifyAfter : Int := seconds (60 * 60)

/-- What a pass does, in order; only `health` and `alert` are seen from outside. -/
inductive Entry where
  /-- A rule seen for the first time. -/
  | baseline (ruleId : Uuid) (evaluatable : Bool)
  /-- The event `rule_health`, published. -/
  | health (tenantId ruleId : Uuid) (evaluatable : Bool)
  /-- The notification, committed; `recorded` if the turn went on to its end. -/
  | alert (tenantId ruleId : Uuid) (sentAt : Datetime) (message : String) (recorded : Bool)
  /-- The turn raised with its event out and its track as before. -/
  | broke (ruleId : Uuid)
  /-- The end of a pass: the tracks of all other rules are deleted. -/
  | swept (live : List Uuid)
  deriving DecidableEq

structure State where
  /-- `_rule_health_tracks`. -/
  tracks : Dict Uuid Track := .empty
  log : List Entry := []

/-- The await of a turn that raises. -/
inductive Fault where
  /-- The publish of the event, before it has reached Redis. -/
  | publish
  /-- The publish of the event, on the way back. -/
  | reply
  /-- The transaction of the notification. -/
  | insert
  /-- The publish that tells of the notification, which is committed by then. -/
  | announce
  deriving DecidableEq

/-- What a turn is about: a cached rule, its name, and the cache as it finds it. -/
structure Visit (F : Type) where
  rule : Rule F
  name : String
  cache : MetricSnapshot F
  fault : Option Fault := none

namespace Visit

def evaluatable (v : Visit F) (now : Datetime) : Bool := (ruleEvaluatableNow v.rule v.cache now).1

def alertMessage (v : Visit F) (now : Datetime) : String :=
  "Rule \"" ++ v.name ++ "\" can't evaluate right now: " ++
    badSignalPhrase (ruleEvaluatableNow v.rule v.cache now).2 ++ "."

/-- The pass is not about it. -/
def skipped (v : Visit F) : Bool := decide (v.rule.trigger = .manual)

def health (v : Visit F) (now : Datetime) : Entry :=
  .health v.rule.tenantId v.rule.id (v.evaluatable now)

def alert (v : Visit F) (now : Datetime) (recorded : Bool) : Entry :=
  .alert v.rule.tenantId v.rule.id now (v.alertMessage now) recorded

end Visit

/-- Whether a flip is one to notify of, and not too soon after the last. -/
def alertDue (evaluatable : Bool) (prev : Track) (now : Datetime) : Bool :=
  !evaluatable &&
    match prev.lastAlertAt with
    | none => true
    | some last => decide (renotifyAfter < elapsed now last)

/-- The turn of a rule whose state has flipped. -/
def flip (now : Datetime) (s : State) (v : Visit F) (prev : Track) : Bool × State :=
  let id := v.rule.id
  let told := v.health now
  if v.fault = some .publish then (true, s)
  else if v.fault = some .reply then (true, { s with log := s.log ++ [told, .broke id] })
  else if alertDue (v.evaluatable now) prev now then
    if v.fault = some .insert then (true, { s with log := s.log ++ [told, .broke id] })
    else if v.fault = some .announce then
      (true, { s with log := s.log ++ [told, v.alert now false, .broke id] })
    else
      (false,
        { tracks := s.tracks.set id ⟨v.evaluatable now, some now⟩
          log := s.log ++ [told, v.alert now true] })
  else
    (false,
      { tracks := s.tracks.set id ⟨v.evaluatable now, prev.lastAlertAt⟩
        log := s.log ++ [told] })

/-- One turn of the loop: whether it raises, and the state it leaves. -/
def visit (now : Datetime) (s : State) (v : Visit F) : Bool × State :=
  if v.skipped then (false, s)
  else
    match s.tracks.get v.rule.id with
    | none =>
        (false,
          { tracks := s.tracks.set v.rule.id ⟨v.evaluatable now, none⟩
            log := s.log ++ [.baseline v.rule.id (v.evaluatable now)] })
    | some prev =>
        if v.evaluatable now = prev.evaluatable then (false, s) else flip now s v prev

/-- The loop, up to the turn that raises. -/
def visits (now : Datetime) : State → List (Visit F) → Bool × State
  | s, [] => (false, s)
  | s, v :: rest =>
      match visit now s v with
      | (true, s') => (true, s')
      | (false, s') => visits now s' rest

/-- `live_ids`, once every rule has had its turn. -/
def liveIds (rules : List (Visit F)) : List Uuid :=
  (rules.filter fun v => !v.skipped).map (·.rule.id)

/-- The deletion of the tracks that are `gone`. -/
def sweep (live : List Uuid) (s : State) : State :=
  { tracks := s.tracks.filter fun id => decide (id ∈ live)
    log := s.log ++ [.swept live] }

/-- A call: the time it read, and the rules in the order of the cache. -/
structure Pass (F : Type) where
  now : Datetime
  rules : List (Visit F)

/-- `emit_rule_health_transitions`. -/
def emitRuleHealthTransitions (s : State) (pass : Pass F) : State :=
  match visits pass.now s pass.rules with
  | (true, s') => s'
  | (false, s') => sweep (liveIds pass.rules) s'

/-- The worker since its start. -/
def watch (passes : List (Pass F)) : State := passes.foldl emitRuleHealthTransitions {}

/-! ## Reading the log -/

/-- What an entry says of a rule: its state, that it is forgotten, or nothing. -/
def Entry.word (id : Uuid) : Entry → Option (Option Bool)
  | .baseline ruleId evaluatable => if ruleId = id then some (some evaluatable) else none
  | .health _ ruleId evaluatable => if ruleId = id then some (some evaluatable) else none
  | .swept live => if id ∈ live then none else some none
  | .alert .. => none
  | .broke _ => none

/-- The last word on the rule. -/
def told (id : Uuid) (log : List Entry) : Option Bool :=
  log.foldl (fun last entry => (entry.word id).getD last) none

/-- How an entry leaves the rule's last turn: broken off, brought to an end, or as it was. -/
def Entry.breaks (id : Uuid) : Entry → Option Bool
  | .broke ruleId => if ruleId = id then some true else none
  | entry => if (entry.word id).isSome then some false else none

/-- The last turn that spoke of the rule broke off. -/
def brokenOff (id : Uuid) (log : List Entry) : Bool :=
  log.foldl (fun last entry => (entry.breaks id).getD last) false

/-- What an entry does to the time of the rule's last recorded alert. -/
def Entry.alerts (id : Uuid) : Entry → Option (Option Datetime)
  | .alert _ ruleId sentAt _ recorded =>
      if ruleId = id ∧ recorded = true then some (some sentAt) else none
  | .baseline ruleId _ => if ruleId = id then some none else none
  | .swept live => if id ∈ live then none else some none
  | .health .. => none
  | .broke _ => none

/-- The rule's last recorded alert in this watch of it. -/
def lastAlert (id : Uuid) (log : List Entry) : Option Datetime :=
  log.foldl (fun last entry => (entry.alerts id).getD last) none

section

variable {id : Uuid} {log : List Entry}

theorem told_append (later : List Entry) : told id (log ++ later) =
    later.foldl (fun last entry => (entry.word id).getD last) (told id log) := by
  rw [told, List.foldl_append, told]

theorem brokenOff_append (later : List Entry) : brokenOff id (log ++ later) =
    later.foldl (fun last entry => (entry.breaks id).getD last) (brokenOff id log) := by
  rw [brokenOff, List.foldl_append, brokenOff]

theorem lastAlert_append (later : List Entry) : lastAlert id (log ++ later) =
    later.foldl (fun last entry => (entry.alerts id).getD last) (lastAlert id log) := by
  rw [lastAlert, List.foldl_append, lastAlert]

end

/-! ## One turn -/

/-- What a turn can do. -/
inductive Turn (now : Datetime) (s : State) (v : Visit F) : Bool → State → Prop
  | quiet (h : v.skipped = true ∨ ∃ prev, s.tracks.get v.rule.id = some prev ∧
      v.evaluatable now = prev.evaluatable) : Turn now s v false s
  | first (shown : v.skipped = false) (h : s.tracks.get v.rule.id = none) : Turn now s v false
      { tracks := s.tracks.set v.rule.id ⟨v.evaluatable now, none⟩
        log := s.log ++ [.baseline v.rule.id (v.evaluatable now)] }
  | unsaid : Turn now s v true s
  | cut {prev : Track} (h : s.tracks.get v.rule.id = some prev)
      (flips : v.evaluatable now = !prev.evaluatable) : Turn now s v true
      { s with log := s.log ++ [v.health now] ++ [.broke v.rule.id] }
  | cutLate {prev : Track} (h : s.tracks.get v.rule.id = some prev)
      (flips : v.evaluatable now = !prev.evaluatable)
      (due : alertDue (v.evaluatable now) prev now = true) : Turn now s v true
      { s with log := s.log ++ [v.health now] ++ [v.alert now false] ++ [.broke v.rule.id] }
  | flips {prev : Track} (shown : v.skipped = false) (h : s.tracks.get v.rule.id = some prev)
      (flips : v.evaluatable now = !prev.evaluatable) : Turn now s v false
      { tracks := s.tracks.set v.rule.id ⟨v.evaluatable now, prev.lastAlertAt⟩
        log := s.log ++ [v.health now] }
  | alerts {prev : Track} (shown : v.skipped = false) (h : s.tracks.get v.rule.id = some prev)
      (flips : v.evaluatable now = !prev.evaluatable)
      (due : alertDue (v.evaluatable now) prev now = true) : Turn now s v false
      { tracks := s.tracks.set v.rule.id ⟨v.evaluatable now, some now⟩
        log := s.log ++ [v.health now] ++ [v.alert now true] }

variable {now : Datetime} {s : State}

theorem flip_turn {v : Visit F} {prev : Track} (shown : v.skipped = false)
    (h : s.tracks.get v.rule.id = some prev) (hne : v.evaluatable now = !prev.evaluatable) :
    Turn now s v (flip now s v prev).1 (flip now s v prev).2 := by
  unfold flip
  dsimp only
  split
  · exact .unsaid
  · split
    · simpa using Turn.cut h hne
    · split
      · rename_i due
        split
        · simpa using Turn.cut h hne
        · split
          · simpa using Turn.cutLate h hne due
          · simpa using Turn.alerts shown h hne due
      · exact .flips shown h hne

theorem visit_turn (now : Datetime) (s : State) (v : Visit F) :
    Turn now s v (visit now s v).1 (visit now s v).2 := by
  unfold visit
  split
  · rename_i hskip
    exact .quiet (.inl hskip)
  · rename_i hshown
    have shown : v.skipped = false := by simpa using hshown
    split
    · rename_i hnone
      exact .first shown hnone
    · rename_i prev hprev
      split
      · rename_i heq
        exact .quiet (.inr ⟨prev, hprev, heq⟩)
      · rename_i hne
        exact flip_turn shown hprev (by simpa [Bool.eq_not] using hne)

/-- By the kind of turn, the state after it named. -/
theorem Turn.elim {now : Datetime} {s : State} {v : Visit F} {I : State → Prop}
    (h : ∀ raised s', Turn now s v raised s' → I s') : I (visit now s v).2 :=
  h _ _ (visit_turn now s v)

/-! ## Whole runs -/

/-- What every turn and every sweep keeps, every run keeps. -/
theorem watch_invariant {I : State → Prop} (h0 : I {})
    (hvisit : ∀ now s (v : Visit F), I s → I (visit now s v).2)
    (hsweep : ∀ live s, I s → I (sweep live s)) (passes : List (Pass F)) : I (watch passes) := by
  have hvisits : ∀ (now : Datetime) (rules : List (Visit F)) (s : State), I s →
      I (visits now s rules).2 := by
    intro now rules
    induction rules with
    | nil => exact fun s hs => hs
    | cons v rest ih =>
      intro s hs
      have hv := hvisit now s v hs
      unfold visits
      split
      · rename_i s' heq
        rw [heq] at hv
        exact hv
      · rename_i s' heq
        rw [heq] at hv
        exact ih s' hv
  have hpass : ∀ (s : State) (pass : Pass F), I s → I (emitRuleHealthTransitions s pass) := by
    intro s pass hs
    have hend := hvisits pass.now pass.rules s hs
    unfold emitRuleHealthTransitions
    split
    · rename_i s' heq
      rw [heq] at hend
      exact hend
    · rename_i s' heq
      rw [heq] at hend
      exact hsweep _ s' hend
  unfold watch
  generalize hs : ({} : State) = s at h0 ⊢
  clear hs
  induction passes generalizing s with
  | nil => exact h0
  | cons pass rest ih => exact ih (emitRuleHealthTransitions s pass) (hpass s pass h0)

/-! ## The last word is the one on record -/

/-- What was said of a rule and what is on record differ by a broken turn. -/
def Recorded (s : State) : Prop :=
  ∀ id, told id s.log = (s.tracks.get id).map fun t => xor t.evaluatable (brokenOff id s.log)

theorem recorded_visit (v : Visit F) (h : Recorded s) :
    Recorded (visit now s v).2 := by
  refine Turn.elim fun raised s' hturn => ?_
  intro id
  have hid := h id
  cases hturn with
  | quiet => exact hid
  | unsaid => exact hid
  | first shown hnone =>
    by_cases heq : v.rule.id = id
    · subst heq
      simp [told_append, brokenOff_append, Entry.word, Entry.breaks]
    · simp [told_append, brokenOff_append, Entry.word, Entry.breaks, heq, hid,
        Dict.get_set_ne _ _ (Ne.symm heq)]
  | cut hprev flips =>
    by_cases heq : v.rule.id = id
    · subst heq
      simp [told_append, brokenOff_append, Entry.word, Entry.breaks, Visit.health, hprev, flips]
    · simp [told_append, brokenOff_append, Entry.word, Entry.breaks, Visit.health, heq, hid]
  | cutLate hprev flips due =>
    by_cases heq : v.rule.id = id
    · subst heq
      simp [told_append, brokenOff_append, Entry.word, Entry.breaks, Visit.health, Visit.alert,
        hprev, flips]
    · simp [told_append, brokenOff_append, Entry.word, Entry.breaks, Visit.health, Visit.alert,
        heq, hid]
  | flips shown hprev flips =>
    by_cases heq : v.rule.id = id
    · subst heq
      simp [told_append, brokenOff_append, Entry.word, Entry.breaks, Visit.health]
    · simp [told_append, brokenOff_append, Entry.word, Entry.breaks, Visit.health, heq, hid,
        Dict.get_set_ne _ _ (Ne.symm heq)]
  | alerts shown hprev flips due =>
    by_cases heq : v.rule.id = id
    · subst heq
      simp [told_append, brokenOff_append, Entry.word, Entry.breaks, Visit.health, Visit.alert]
    · simp [told_append, brokenOff_append, Entry.word, Entry.breaks, Visit.health, Visit.alert,
        heq, hid, Dict.get_set_ne _ _ (Ne.symm heq)]

theorem recorded_sweep (live : List Uuid) (h : Recorded s) :
    Recorded (sweep live s) := by
  intro id
  unfold sweep
  dsimp only
  rw [told_append, brokenOff_append, Dict.get_filter]
  by_cases hlive : id ∈ live
  · simp [Entry.word, Entry.breaks, hlive, h id]
  · simp [Entry.word, Entry.breaks, hlive]

theorem watch_recorded (passes : List (Pass F)) : Recorded (watch passes) :=
  watch_invariant (fun _ => rfl) (fun _ _ v h => recorded_visit v h)
    (fun live _ h => recorded_sweep live h) passes

/-! ## Events -/

/-- An event says the opposite of the last word, or repeats it after a broken turn. -/
def Flips (before : List Entry) (entry : Entry) : Prop :=
  ∀ tenantId id evaluatable, entry = .health tenantId id evaluatable →
    told id before = some (if brokenOff id before then evaluatable else !evaluatable)

theorem flips_of_flip {v : Visit F} {prev : Track} (h : Recorded s)
    (hprev : s.tracks.get v.rule.id = some prev) (hflip : v.evaluatable now = !prev.evaluatable) :
    Flips s.log (v.health now) := by
  intro tenantId id evaluatable heq
  obtain ⟨-, rfl, rfl⟩ := Entry.health.inj heq
  rw [h, hprev, hflip, Option.map_some]
  cases prev.evaluatable <;> cases brokenOff v.rule.id s.log <;> rfl

theorem flips_of_silent {before : List Entry} {entry : Entry}
    (h : ∀ tenantId id evaluatable, entry ≠ .health tenantId id evaluatable) :
    Flips before entry :=
  fun tenantId id evaluatable heq => absurd heq (h tenantId id evaluatable)

/-- **No event repeats the last word on its rule**, unless the turn that said it broke off; and
none comes before the rule's first word. -/
theorem health_flips (passes : List (Pass F)) : Every Flips (watch passes).log := by
  have hboth : Recorded (watch passes) ∧ Every Flips (watch passes).log := by
    refine watch_invariant (I := fun s => Recorded s ∧ Every Flips s.log)
      ⟨fun _ => rfl, every_nil⟩ ?_ ?_ passes
    · rintro now s v ⟨hrec, hevery⟩
      refine ⟨recorded_visit v hrec, Turn.elim (I := fun s => Every Flips s.log) ?_⟩
      intro raised s' hturn
      have silent : ∀ {before : List Entry} {entry : Entry},
          (∀ tenantId id evaluatable, entry ≠ .health tenantId id evaluatable) →
          Every Flips before → Every Flips (before ++ [entry]) :=
        fun h hbefore => hbefore.snoc (flips_of_silent h)
      cases hturn with
      | quiet => exact hevery
      | unsaid => exact hevery
      | first => exact silent (by simp) hevery
      | cut hprev hflip => exact silent (by simp) (hevery.snoc (flips_of_flip hrec hprev hflip))
      | cutLate hprev hflip =>
        exact silent (by simp) (silent (by simp [Visit.alert])
          (hevery.snoc (flips_of_flip hrec hprev hflip)))
      | flips _ hprev hflip => exact hevery.snoc (flips_of_flip hrec hprev hflip)
      | alerts _ hprev hflip =>
        exact silent (by simp [Visit.alert]) (hevery.snoc (flips_of_flip hrec hprev hflip))
    · rintro live s ⟨hrec, hevery⟩
      exact ⟨recorded_sweep live hrec, hevery.snoc (flips_of_silent (by simp))⟩
  exact hboth.2

/-! ## Alerts -/

/-- A rule's last recorded alert is the one its track remembers. -/
def Remembered (s : State) : Prop :=
  ∀ id sentAt, lastAlert id s.log = some sentAt →
    ∃ t, s.tracks.get id = some t ∧ t.lastAlertAt = some sentAt

/-- An alert comes more than an hour after the rule's last recorded one. -/
def Spaced (before : List Entry) (entry : Entry) : Prop :=
  ∀ tenantId id sentAt message recorded last,
    entry = .alert tenantId id sentAt message recorded → lastAlert id before = some last →
    renotifyAfter < elapsed sentAt last

theorem remembered_visit (v : Visit F) (h : Remembered s) :
    Remembered (visit now s v).2 := by
  refine Turn.elim fun raised s' hturn => ?_
  intro id sentAt hlast
  cases hturn with
  | quiet => exact h id sentAt hlast
  | unsaid => exact h id sentAt hlast
  | first =>
    rw [lastAlert_append] at hlast
    by_cases heq : v.rule.id = id
    · simp [Entry.alerts, heq] at hlast
    · obtain ⟨t, ht, hat⟩ := h id sentAt (by simpa [Entry.alerts, heq] using hlast)
      exact ⟨t, by rw [Dict.get_set_ne _ _ (Ne.symm heq), ht], hat⟩
  | cut =>
    rw [lastAlert_append, lastAlert_append] at hlast
    exact h id sentAt (by simpa [Entry.alerts, Visit.health] using hlast)
  | cutLate =>
    rw [lastAlert_append, lastAlert_append, lastAlert_append] at hlast
    exact h id sentAt (by simpa [Entry.alerts, Visit.health, Visit.alert] using hlast)
  | flips shown hprev =>
    rw [lastAlert_append] at hlast
    obtain ⟨t, ht, hat⟩ := h id sentAt (by simpa [Entry.alerts, Visit.health] using hlast)
    by_cases heq : v.rule.id = id
    · subst heq
      rw [hprev] at ht
      obtain rfl := Option.some.inj ht
      exact ⟨_, Dict.get_set_self _ _ _, hat⟩
    · exact ⟨t, by rw [Dict.get_set_ne _ _ (Ne.symm heq), ht], hat⟩
  | alerts =>
    rw [lastAlert_append, lastAlert_append] at hlast
    by_cases heq : v.rule.id = id
    · subst heq
      have hnow : now = sentAt := by
        simpa [Entry.alerts, Visit.health, Visit.alert] using hlast
      exact ⟨_, Dict.get_set_self _ _ _, by rw [hnow]⟩
    · obtain ⟨t, ht, hat⟩ := h id sentAt
        (by simpa [Entry.alerts, Visit.health, Visit.alert, heq] using hlast)
      exact ⟨t, by rw [Dict.get_set_ne _ _ (Ne.symm heq), ht], hat⟩

theorem remembered_sweep (live : List Uuid) (h : Remembered s) :
    Remembered (sweep live s) := by
  intro id sentAt hlast
  unfold sweep at hlast ⊢
  dsimp only at hlast ⊢
  rw [lastAlert_append] at hlast
  rw [Dict.get_filter]
  by_cases hlive : id ∈ live
  · obtain ⟨t, ht, hat⟩ := h id sentAt (by simpa [Entry.alerts, hlive] using hlast)
    exact ⟨t, by simp [hlive, ht], hat⟩
  · simp [Entry.alerts, hlive] at hlast

theorem spaced_of_due {v : Visit F} {prev : Track} {recorded : Bool} (h : Remembered s)
    (hprev : s.tracks.get v.rule.id = some prev)
    (due : alertDue (v.evaluatable now) prev now = true) :
    Spaced (s.log ++ [v.health now]) (v.alert now recorded) := by
  intro tenantId id sentAt message recorded' last heq hlast
  obtain ⟨-, rfl, rfl, -, -⟩ := Entry.alert.inj heq
  rw [lastAlert_append] at hlast
  obtain ⟨t, ht, hat⟩ := h _ last (by simpa [Entry.alerts, Visit.health] using hlast)
  rw [hprev] at ht
  obtain rfl := Option.some.inj ht
  unfold alertDue at due
  rw [hat] at due
  simp only [Bool.and_eq_true, decide_eq_true_eq] at due
  exact due.2

theorem spaced_of_silent {before : List Entry} {entry : Entry}
    (h : ∀ tenantId id sentAt message recorded,
      entry ≠ .alert tenantId id sentAt message recorded) : Spaced before entry :=
  fun tenantId id sentAt message recorded _ heq =>
    absurd heq (h tenantId id sentAt message recorded)

/-- **An alert is more than an hour after the last** of its rule that was recorded, for as long as
the worker keeps watching the rule. -/
theorem alerts_spaced (passes : List (Pass F)) : Every Spaced (watch passes).log := by
  have hboth : Remembered (watch passes) ∧ Every Spaced (watch passes).log := by
    refine watch_invariant (I := fun s => Remembered s ∧ Every Spaced s.log)
      ⟨fun _ _ h => (by cases h), every_nil⟩ ?_ ?_ passes
    · rintro now s v ⟨hmem, hevery⟩
      refine ⟨remembered_visit v hmem, Turn.elim (I := fun s => Every Spaced s.log) ?_⟩
      intro raised s' hturn
      have silent : ∀ {before : List Entry} {entry : Entry},
          (∀ tenantId id sentAt message recorded,
            entry ≠ .alert tenantId id sentAt message recorded) →
          Every Spaced before → Every Spaced (before ++ [entry]) :=
        fun h hbefore => hbefore.snoc (spaced_of_silent h)
      have told : Every Spaced (s.log ++ [v.health now]) :=
        silent (by simp [Visit.health]) hevery
      cases hturn with
      | quiet => exact hevery
      | unsaid => exact hevery
      | first => exact silent (by simp) hevery
      | cut => exact silent (by simp) told
      | cutLate hprev _ due => exact silent (by simp) (told.snoc (spaced_of_due hmem hprev due))
      | flips => exact told
      | alerts _ hprev _ due => exact told.snoc (spaced_of_due hmem hprev due)
    · rintro live s ⟨hmem, hevery⟩
      exact ⟨remembered_sweep live hmem, hevery.snoc (spaced_of_silent (by simp))⟩
  exact hboth.2

/-! ## A pass that gets to its end -/

section

variable {now : Datetime} {s s' : State}

/-- A turn leaves the tracks of other rules alone. -/
theorem visit_other {v : Visit F} {id : Uuid} (h : v.rule.id ≠ id) :
    (visit now s v).2.tracks.get id = s.tracks.get id := by
  refine Turn.elim (I := fun s' => s'.tracks.get id = s.tracks.get id) fun raised s' hturn => ?_
  cases hturn with
  | quiet => rfl
  | unsaid => rfl
  | cut => rfl
  | cutLate => rfl
  | first => exact Dict.get_set_ne _ _ (Ne.symm h)
  | flips => exact Dict.get_set_ne _ _ (Ne.symm h)
  | alerts => exact Dict.get_set_ne _ _ (Ne.symm h)

/-- A turn that does not raise leaves what it saw on record. -/
theorem visit_current {v : Visit F} (hshown : v.skipped = false)
    (hend : (visit now s v).1 = false) :
    ((visit now s v).2.tracks.get v.rule.id).map (·.evaluatable) = some (v.evaluatable now) := by
  have hturn := visit_turn now s v
  generalize hr : (visit now s v).1 = raised at hturn hend
  generalize hs : (visit now s v).2 = s' at hturn
  clear hr hs
  cases hturn with
  | quiet h =>
    rcases h with h | ⟨prev, hprev, heq⟩
    · rw [hshown] at h
      cases h
    · rw [hprev, heq, Option.map_some]
  | unsaid => cases hend
  | cut => cases hend
  | cutLate => cases hend
  | first => simp
  | flips => simp
  | alerts => simp

theorem visits_other {rules : List (Visit F)} {id : Uuid} (h : id ∉ rules.map (·.rule.id)) :
    (visits now s rules).2.tracks.get id = s.tracks.get id := by
  induction rules generalizing s with
  | nil => rfl
  | cons v rest ih =>
    rw [List.map_cons, List.mem_cons, not_or] at h
    have hv : (visit now s v).2.tracks.get id = s.tracks.get id := visit_other (Ne.symm h.1)
    unfold visits
    split
    · rename_i s' heq
      rw [heq] at hv
      exact hv
    · rename_i s' heq
      rw [heq] at hv
      rw [ih h.2, hv]

theorem visits_current {rules : List (Visit F)} (hnodup : (rules.map (·.rule.id)).Nodup)
    (hend : (visits now s rules).1 = false) {v : Visit F} (hv : v ∈ rules)
    (hshown : v.skipped = false) :
    ((visits now s rules).2.tracks.get v.rule.id).map (·.evaluatable) =
      some (v.evaluatable now) := by
  induction rules generalizing s with
  | nil => cases hv
  | cons first rest ih =>
    rw [List.map_cons, List.nodup_cons] at hnodup
    unfold visits at hend ⊢
    split at hend
    · cases hend
    · rename_i s' heq
      rcases List.mem_cons.mp hv with rfl | hmem
      · have hend' : (visit now s v).1 = false := by rw [heq]
        have hcurrent := visit_current hshown hend'
        rw [heq] at hcurrent
        rw [visits_other hnodup.1]
        exact hcurrent
      · exact ih hnodup.2 hend hmem

theorem mem_liveIds {rules : List (Visit F)} {id : Uuid} :
    id ∈ liveIds rules ↔ ∃ v ∈ rules, v.skipped = false ∧ v.rule.id = id := by
  simp [liveIds, and_assoc]

end

/-- What a pass has found out about a rule; nothing about one it was not about. -/
def found (pass : Pass F) (id : Uuid) : Option Bool :=
  (pass.rules.find? fun v => !v.skipped && decide (v.rule.id = id)).map (·.evaluatable pass.now)

/-- **After a pass that got to its end, the last word on a rule is what the pass found**, whatever
the passes before it ran into: unless the turn that said it had broken off. The rules of a pass are
the values of a dictionary, so their ids differ. -/
theorem pass_tells (passes : List (Pass F)) (pass : Pass F)
    (hnodup : (pass.rules.map (·.rule.id)).Nodup)
    (hend : (visits pass.now (watch passes) pass.rules).1 = false) {id : Uuid}
    (hwhole : brokenOff id (watch (passes ++ [pass])).log = false) :
    told id (watch (passes ++ [pass])).log = found pass id := by
  have hpass : watch (passes ++ [pass]) =
      sweep (liveIds pass.rules) (visits pass.now (watch passes) pass.rules).2 := by
    rw [watch, List.foldl_append, List.foldl_cons, List.foldl_nil, ← watch,
      emitRuleHealthTransitions]
    split
    · rename_i heq
      rw [heq] at hend
      cases hend
    · rename_i heq
      rw [heq]
  have hword := watch_recorded (passes ++ [pass]) id
  rw [hwhole] at hword
  rw [hword, hpass]
  unfold sweep found
  dsimp only
  rw [Dict.get_filter]
  simp only [Bool.xor_false]
  cases hfind : pass.rules.find? fun v => !v.skipped && decide (v.rule.id = id) with
  | none =>
    have hout : id ∉ liveIds pass.rules := by
      rw [mem_liveIds]
      rintro ⟨v, hv, hshown, hid⟩
      have hno := List.find?_eq_none.mp hfind v hv
      simp [hshown, hid] at hno
    rw [if_neg (by simpa using hout)]
    rfl
  | some v =>
    have hv := List.mem_of_find?_eq_some hfind
    obtain ⟨hshown, hid⟩ : v.skipped = false ∧ v.rule.id = id := by
      simpa using List.find?_some hfind
    have hlive : id ∈ liveIds pass.rules := mem_liveIds.mpr ⟨v, hv, hshown, hid⟩
    rw [if_pos (by simpa using hlive), ← hid]
    exact visits_current hnodup hend hv hshown

/-- The thermostat's turn, its last reading at 0. -/
def thermostatVisit : Visit Int :=
  { rule := thermostat, name := "Too hot", cache := reading 20 0 }

/-- A minute on its reading is fresh, two minutes on it is not. -/
theorem pass_tells_stale :
    told "thermostat" (watch ([⟨seconds 60, [thermostatVisit]⟩] ++
      [⟨seconds 120, [thermostatVisit]⟩])).log = some false :=
  pass_tells [⟨seconds 60, [thermostatVisit]⟩] ⟨seconds 120, [thermostatVisit]⟩ (by decide) rfl rfl

/-! ## What the word means -/

section

variable {snapshot : MetricSnapshot F} {now : Datetime}

/-- The watch and the evaluator mean the same by stale. -/
theorem goneQuiet_eq_false {cache : MetricSnapshot F} {signal : SignalKey} :
    goneQuiet cache now signal = false ↔ signalState (cache.get signal) now = .fresh := by
  unfold goneQuiet signalState
  cases cache.get signal with
  | none => simp
  | some metricValue => simp

variable [PyFloat F]

/-- A leaf answers exactly when every signal it reads is fresh, whatever its latch. -/
theorem evaluateLeaf_known {leaf : ConditionLeaf F} (latch : LeafState) :
    (evaluateLeaf leaf snapshot now latch).1 ≠ none ↔
      ∀ signal ∈ leafSignals leaf, signalState (snapshot.get signal) now = .fresh := by
  have hown : leafSignal leaf ∈ leafSignals leaf := leafSignal_mem leaf
  unfold evaluateLeaf
  cases hmv : snapshot.get (leafSignal leaf) with
  | none =>
    refine iff_of_false (fun h => h rfl) fun hall => ?_
    have hfresh := hall _ hown
    rw [hmv] at hfresh
    cases hfresh
  | some mv =>
    dsimp only
    split
    · rename_i hstale
      refine iff_of_false (fun h => h rfl) fun hall => hstale ?_
      rw [← hmv]
      exact hall _ hown
    · rename_i hfresh
      have hown' : signalState (snapshot.get (leafSignal leaf)) now = .fresh := by
        rw [hmv]
        exact not_not.mp hfresh
      -- A leaf against constants reads its own signal only, which is fresh here.
      have halone : rhsSignal? leaf = none →
          ∀ signal ∈ leafSignals leaf, signalState (snapshot.get signal) now = .fresh := by
        intro hrhs signal hs
        rcases mem_leafSignals hs with rfl | hs
        · exact hown'
        · rw [hrhs] at hs
          cases hs
      cases htest : leaf.test with
      | change operator => exact iff_of_true (by simp) (halone (by simp [rhsSignal?, htest]))
      | range operator low high =>
        exact iff_of_true (by simp) (halone (by simp [rhsSignal?, htest]))
      | set operator values => exact iff_of_true (by simp) (halone (by simp [rhsSignal?, htest]))
      | compare operator rhs hysteresis =>
        cases rhs with
        | static value =>
          exact iff_of_true (by simp [resolveRhsScalar]) (halone (by simp [rhsSignal?, htest]))
        | metric deviceId metric =>
          have hrhs : rhsSignal? leaf = some ⟨deviceId, metric⟩ := by simp [rhsSignal?, htest]
          -- Against another metric, that one is left to be fresh too.
          have hboth : (∀ signal ∈ leafSignals leaf,
              signalState (snapshot.get signal) now = .fresh) ↔
              signalState (snapshot.get ⟨deviceId, metric⟩) now = .fresh := by
            constructor
            · exact fun hall => hall _ (rhsSignal_mem hrhs)
            · intro hother signal hs
              rcases mem_leafSignals hs with rfl | hs
              · exact hown'
              · rw [hrhs] at hs
                exact Option.some.inj hs ▸ hother
          rw [hboth]
          unfold resolveRhsScalar
          dsimp only
          cases hother : snapshot.get ⟨deviceId, metric⟩ with
          | none => simp [signalState]
          | some other =>
            by_cases hstate : signalState (some other) now = .fresh
            · simp [hstate]
            · simp [hstate]

mutual

/-- A tree whose signals are all fresh has an answer. -/
theorem evaluateNode_known : ∀ (node : Node F) (leafStates : LeafStates) (path : Path),
    (∀ signal ∈ nodeSignals node, signalState (snapshot.get signal) now = .fresh) →
    (evaluateNode snapshot now node leafStates path).1 ≠ none
  | .leaf leaf, leafStates, path, h => by
      rw [evaluateNode]
      exact (evaluateLeaf_known _).mpr (by rwa [nodeSignals] at h)
  | .group op predicates, leafStates, path, h => by
      have hnone : none ∉ (evaluateNodes snapshot now predicates leafStates path 0).1 :=
        evaluateNodes_known predicates leafStates path 0 (by rwa [nodeSignals] at h)
      rw [evaluateNode, combine, if_neg hnone]
      split <;> simp

theorem evaluateNodes_known : ∀ (nodes : List (Node F)) (leafStates : LeafStates) (path : Path)
    (i : Nat),
    (∀ signal ∈ nodesSignals nodes, signalState (snapshot.get signal) now = .fresh) →
    none ∉ (evaluateNodes snapshot now nodes leafStates path i).1
  | [], _, _, _, _ => by simp [evaluateNodes]
  | child :: rest, leafStates, path, i, h => by
      rw [nodesSignals] at h
      have hchild := evaluateNode_known child leafStates (path ++ [i]) fun signal hs =>
        h signal (List.mem_union_iff.mpr (.inl hs))
      rw [evaluateNodes, List.mem_cons, not_or]
      exact ⟨Ne.symm hchild, evaluateNodes_known rest _ path (i + 1) fun signal hs =>
        h signal (List.mem_union_iff.mpr (.inr hs))⟩

end

omit [PyFloat F] in
/-- A tree reads what its leaves read. -/
theorem leafSignals_subset {node : Node F} {path : Path} {leaf : ConditionLeaf F}
    (h : LeafAt node path leaf) : leafSignals leaf ⊆ nodeSignals node := by
  have hchild : ∀ {nodes : List (Node F)} {i : Nat} {child : Node F}, nodes[i]? = some child →
      nodeSignals child ⊆ nodesSignals nodes := by
    intro nodes
    induction nodes with
    | nil => simp
    | cons first rest ih =>
      intro i child hi signal hs
      rw [nodesSignals, List.mem_union_iff]
      cases i with
      | zero =>
        obtain rfl := Option.some.inj hi
        exact .inl hs
      | succ i => exact .inr (ih hi hs)
  induction h with
  | here leaf =>
    rw [nodeSignals]
    exact List.Subset.refl _
  | child hi _ ih =>
    rw [nodeSignals]
    exact List.Subset.trans ih (hchild hi)

/-- **A rule is called evaluatable exactly when none of its leaves would answer unknown**, on the
snapshot the evaluator would be given; and then its tree has an answer, whatever its latches. -/
theorem evaluatable_iff (rule : Rule F) (cache : MetricSnapshot F) (now : Datetime) :
    ((ruleEvaluatableNow rule cache now).1 = true ↔
      ∀ node path leaf latch, rule.condition = some node → LeafAt node path leaf →
        (evaluateLeaf leaf (snapshotForSignals cache (referencedSignals rule.condition)) now
          latch).1 ≠ none) ∧
    ((ruleEvaluatableNow rule cache now).1 = true → ∀ leafStates,
      (evaluateTree rule (snapshotForSignals cache (referencedSignals rule.condition)) now
        leafStates).1 ≠ none) := by
  have hfresh : (ruleEvaluatableNow rule cache now).1 = true ↔
      ∀ signal ∈ referencedSignals rule.condition, signalState
        ((snapshotForSignals cache (referencedSignals rule.condition)).get signal) now = .fresh := by
    rw [ruleEvaluatableNow]
    dsimp only
    rw [List.isEmpty_iff, List.filter_eq_nil_iff]
    refine forall₂_congr fun signal hs => ?_
    rw [get_snapshotForSignals, if_pos hs, ← goneQuiet_eq_false, Bool.not_eq_true]
  rw [hfresh]
  constructor
  · constructor
    · intro hall node path leaf latch hnode hleaf
      refine (evaluateLeaf_known latch).mpr fun signal hs => hall signal ?_
      rw [hnode]
      exact leafSignals_subset hleaf hs
    · intro hleaves signal hs
      cases hnode : rule.condition with
      | none =>
        rw [hnode] at hs
        cases hs
      | some node =>
        rw [hnode] at hs
        obtain ⟨path, leaf, hleaf, hmem⟩ := mem_nodeSignals hs
        rw [← hnode]
        exact (evaluateLeaf_known {}).mp (hleaves node path leaf {} hnode hleaf) signal hmem
  · intro hall leafStates
    unfold evaluateTree
    cases hnode : rule.condition with
    | none => simp
    | some node =>
      rw [hnode] at hall
      exact evaluateNode_known node leafStates [] hall

end

end IotSaas.Rules.HealthWatch
