import IotSaas.Charts.Rounds

/-!
# `Charts/Newest.lean` — what a flush hands the caches

`push` keeps one reading for each metric of each device, and replaces it by one that is as late or
later. So what a flush hands over is, of all that was pushed since the last flush or `clear`, the
latest reading, and the last pushed of several that are (`after_handed`).
-/

set_option autoImplicit false

namespace IotSaas.Charts

open Lib

section

variable {T V : Type*}

/-- The points of a series that are still to be flushed. -/
def Entry.gathers (series : SeriesId) (points : List (LivePoint T V)) :
    Entry T V → List (LivePoint T V)
  | .pushed s p => if s = series then points ++ [p] else points
  | .cleared => []
  | .flushed => []
  | _ => points

/-- The points that were pushed to a series since the last flush or `clear`. -/
def since (series : SeriesId) (log : List (Entry T V)) : List (LivePoint T V) :=
  log.foldl (Entry.gathers series) []

@[simp] theorem since_snoc (series : SeriesId) (log : List (Entry T V)) (e : Entry T V) :
    since series (log ++ [e]) = e.gathers series (since series log) := by
  simp [since]

/-- The readings of a series in a batch. -/
def readingsOf (batch : LatestBatch T V) (series : SeriesId) : List (LatestReading T V) :=
  (batch.filter fun x => x.1 = series.1).flatMap fun x =>
    x.2.filter fun reading => reading.metric = series.2

end

variable {T V : Type*} [LinearOrder T]

/-- The last of the latest points, as a reading, if there is any point. -/
inductive Newest (metric : String) : List (LivePoint T V) → Option (LatestReading T V) → Prop
  | none : Newest metric [] none
  | some {earlier later : List (LivePoint T V)} {p : LivePoint T V}
      (hearlier : ∀ q ∈ earlier, q.t ≤ p.t) (hlater : ∀ q ∈ later, q.t < p.t) :
      Newest metric (earlier ++ p :: later) (some ⟨metric, p.v, p.t⟩)

/-- Another point comes. -/
theorem Newest.snoc {metric : String} {points : List (LivePoint T V)}
    {reading : Option (LatestReading T V)} (h : Newest metric points reading) (p : LivePoint T V) :
    Newest metric (points ++ [p])
      (if ∀ current ∈ reading, current.t ≤ p.t then .some ⟨metric, p.v, p.t⟩ else reading) := by
  cases h with
  | none =>
    have hone : Newest metric ([] ++ p :: []) (.some ⟨metric, p.v, p.t⟩) := .some (by simp) (by simp)
    simpa using hone
  | @some earlier later best hearlier hlater =>
    by_cases hle : best.t ≤ p.t
    · rw [if_pos (by simpa using hle)]
      refine Newest.some ?_ (by simp)
      intro q hq
      rw [List.mem_append, List.mem_cons] at hq
      rcases hq with hq | rfl | hq
      · exact (hearlier q hq).trans hle
      · exact hle
      · exact (hlater q hq).le.trans hle
    · rw [if_neg (by simpa using hle), List.append_assoc, List.cons_append]
      refine Newest.some hearlier ?_
      intro q hq
      rw [List.mem_append, List.mem_singleton] at hq
      rcases hq with hq | rfl
      · exact hlater q hq
      · exact not_le.mp hle

/-- What a flush hands over: of each series the newest reading. -/
def Handed (before : List (Entry T V)) : Entry T V → Prop
  | .batch b => ∃ before', before = before' ++ [.flushed] ∧
      ∀ series, ∃ reading, Newest series.2 (since series before') reading ∧
        readingsOf b series = reading.toList
  | _ => True

namespace LiveBuffer

/-- The reading that is kept of a series. -/
def kept (latest : JsMap DeviceId (JsMap String (LatestReading T V))) (series : SeriesId) :
    Option (LatestReading T V) :=
  (latest.get series.1).bind fun perDevice => perDevice.get series.2

theorem isNewer_iff {current : Option (LatestReading T V)} {t : T} :
    isNewer current t = true ↔ ∀ c ∈ current, c.t ≤ t := by
  cases current with
  | none => simp [isNewer]
  | some c => simp [isNewer]

theorem kept_pushLatest (latest : JsMap DeviceId (JsMap String (LatestReading T V)))
    (series other : SeriesId) (value : V) (t : T) :
    kept (pushLatest latest series value t) other =
      if series = other then
        if ∀ current ∈ kept latest series, current.t ≤ t then some ⟨series.2, value, t⟩
        else kept latest series
      else kept latest other := by
  obtain ⟨device, metric⟩ := series
  obtain ⟨device', metric'⟩ := other
  have hkept : kept latest (device, metric) = ((latest.get device).getD .empty).get metric := by
    unfold kept
    cases latest.get device <;> rfl
  have hother : kept latest (device, metric') = ((latest.get device).getD .empty).get metric' := by
    unfold kept
    cases latest.get device <;> rfl
  by_cases hdevice : device' = device
  · subst hdevice
    have hget : kept (pushLatest latest (device', metric) value t) (device', metric') =
        (if isNewer (kept latest (device', metric)) t = true then
          ((latest.get device').getD .empty).set metric ⟨metric, value, t⟩
        else (latest.get device').getD .empty).get metric' := by
      rw [hkept]
      simp only [kept, pushLatest, JsMap.get_set_self, Option.bind_some]
    rw [hget]
    by_cases hmetric : metric' = metric
    · subst hmetric
      rw [if_pos rfl]
      simp only [isNewer_iff]
      split
      · exact JsMap.get_set_self _ _ _
      · exact hkept.symm
    · rw [if_neg fun h => hmetric (congrArg Prod.snd h).symm, hother]
      split
      · exact JsMap.get_set_ne _ _ hmetric
      · rfl
  · rw [if_neg (by simpa using fun h => absurd h.symm hdevice)]
    simp only [kept, pushLatest, JsMap.get_set_ne _ _ hdevice]

/-- Of each series the newest reading is kept, and was handed over. -/
structure Fresh (s : LiveBuffer T V) : Prop where
  newest : ∀ series, Newest series.2 (since series s.log) (kept s.latest series)
  handed : Every Handed s.log

theorem fresh_empty : ({} : LiveBuffer T V).Fresh where
  newest _ := .none
  handed := every_nil

theorem metric_of_kept {latest : JsMap DeviceId (JsMap String (LatestReading T V))}
    {points : SeriesId → List (LivePoint T V)}
    (h : ∀ series, Newest series.2 (points series) (kept latest series)) {series : SeriesId}
    {reading : LatestReading T V} (hkept : kept latest series = some reading) :
    reading.metric = series.2 := by
  have hnewest := h series
  rw [hkept] at hnewest
  generalize points series = pushed at hnewest
  cases hnewest with
  | some => rfl

/-- A batch has what was kept. -/
theorem readingsOf_batchOf {latest : JsMap DeviceId (JsMap String (LatestReading T V))}
    {points : SeriesId → List (LivePoint T V)}
    (h : ∀ series, Newest series.2 (points series) (kept latest series)) (series : SeriesId) :
    readingsOf (batchOf latest) series = (kept latest series).toList := by
  obtain ⟨device, metric⟩ := series
  have hdevice : (batchOf latest).filter (fun x => x.1 = device) =
      ((latest.get device).map fun perMetric =>
        (device, perMetric.items.map Prod.snd)).toList := by
    rw [batchOf, List.filter_map]
    simp only [Function.comp_def]
    rw [JsMap.filter_key]
    cases latest.get device <;> rfl
  unfold readingsOf
  rw [hdevice]
  cases hget : latest.get device with
  | none => simp [kept, hget]
  | some perMetric =>
    have hmetric : ∀ item ∈ perMetric.items,
        decide (item.2.metric = metric) = decide (item.1 = metric) := by
      intro item hitem
      have hkept : kept latest (device, item.1) = some item.2 := by
        rw [kept, hget, Option.bind_some]
        exact JsMap.get_of_mem hitem
      rw [metric_of_kept h hkept]
    simp only [Option.map_some, Option.toList_some, List.flatMap_singleton, List.filter_map,
      Function.comp_def]
    rw [List.filter_congr hmetric, JsMap.filter_key, kept, hget, Option.bind_some]
    cases perMetric.get metric <;> rfl

/-- An entry that pushes and flushes nothing. -/
def Keeping : Entry T V → Prop
  | .pushed .. => False
  | .cleared => False
  | .flushed => False
  | .batch _ => False
  | _ => True

theorem Fresh.grow {s s' : LiveBuffer T V} (h : s.Fresh) (hlatest : s'.latest = s.latest)
    (e : Entry T V) (he : Keeping e) (hlog : s'.log = s.log ++ [e]) : s'.Fresh where
  newest series := by
    have hsince : since series s'.log = since series s.log := by
      rw [hlog, since_snoc]
      cases e with
      | pushed | cleared | flushed | batch => exact he.elim
      | _ => rfl
    rw [hsince, hlatest]
    exact h.newest series
  handed := by
    rw [hlog]
    apply h.handed.snoc
    cases e with
    | batch => exact he.elim
    | _ => trivial

theorem Fresh.step {s s' : LiveBuffer T V} (h : s.Fresh) (hstep : Step s s') : s'.Fresh := by
  cases hstep with
  | minds hidles hlatest hbatch =>
    rcases hidles.log with hlog | ⟨e, he, hlog⟩
    · exact ⟨fun series => by rw [hlog, hlatest]; exact h.newest series, hlog ▸ h.handed⟩
    · refine h.grow hlatest e ?_ hlog
      cases e with
      | scheduled => trivial
      | batch b => exact absurd hlog (hbatch b)
      | _ => exact he.elim
  | records series value t =>
    constructor
    · intro other
      have hsince : since other (s.record series value t).log =
          if series = other then since other s.log ++ [⟨s.pushes, t, value⟩]
          else since other s.log := since_snoc _ _ _
      -- The push keeps the newer of the two readings, as the log has it.
      have hlatest : (s.record series value t).latest = pushLatest s.latest series value t := rfl
      rw [hsince, hlatest, kept_pushLatest]
      by_cases hseries : series = other
      · subst hseries
        rw [if_pos rfl, if_pos rfl]
        exact (h.newest series).snoc ⟨s.pushes, t, value⟩
      · rw [if_neg hseries, if_neg hseries]
        exact h.newest other
    · exact h.handed.snoc trivial
  | joins hjoins => exact h.grow hjoins.latest (.subscribed _ _) trivial hjoins.log
  | leaves _ hleaves => exact h.grow hleaves.latest (.unsubscribed _ _) trivial hleaves.log
  | clears =>
    refine ⟨fun series => ?_, h.handed.snoc trivial⟩
    have hsince : since series s.clear.log = [] := since_snoc series s.log .cleared
    rw [hsince]
    exact .none
  | takes =>
    -- From the flush on nothing has been pushed, and nothing is kept.
    have htaken : s.take.Fresh := by
      refine ⟨fun series => ?_, h.handed.snoc trivial⟩
      have hsince : since series s.take.log = [] := since_snoc series s.log .flushed
      rw [hsince]
      exact .none
    unfold handLatest
    split
    · constructor
      · intro series
        have hsince : since series (s.take.note (.batch (batchOf s.latest))).log =
            since series s.take.log := since_snoc _ _ _
        rw [hsince]
        exact htaken.newest series
      · apply htaken.handed.snoc
        refine ⟨s.log, rfl, fun series => ⟨_, h.newest series, ?_⟩⟩
        exact readingsOf_batchOf h.newest series
    · exact htaken
  | tells => exact h.grow rfl (.delivered _ _ _) trivial rfl
  | finishes => exact h.grow rfl .ended trivial rfl

/-- **A flush has a batch to hand over** if anything was pushed since the last one: a reading is kept
of every series that was, so `latest` is not empty. -/
theorem Fresh.hands {s : LiveBuffer T V} (h : s.Fresh) (hdelivery : s.delivery = none)
    (hhandler : s.onLatest = true) {series : SeriesId} (hpushed : since series s.log ≠ []) :
    (s.react .flush).log = s.log ++ [.flushed, .batch (batchOf s.latest)] := by
  have hlatest : s.latest.items ≠ [] := by
    have hnewest := h.newest series
    cases hget : s.latest.get series.1 with
    | none =>
      rw [kept, hget, Option.bind_none] at hnewest
      generalize since series s.log = pushed at hnewest hpushed
      cases hnewest with
      | none => exact absurd rfl hpushed
    | some perDevice => exact List.ne_nil_of_mem (JsMap.mem_of_get hget)
  have hreact : s.react .flush = s.take.handLatest s.latest := by
    rw [react, hdelivery]
    rfl
  rw [hreact, handLatest, if_pos ⟨hlatest, hhandler⟩, note_log, take, note_log, List.append_assoc]
  rfl

theorem after_handed {events : List (Event T V)} (honce : Once (after events).log) :
    (after events).Fresh :=
  (after_invariant fresh_empty (fun _ h hstep _ => h.step hstep) honce).2

end LiveBuffer

end IotSaas.Charts
