import IotSaas.Charts.Window

/-!
# `Charts/TrendChart.lean` — a chart that turns to another metric

What `TrendChart` of `frontend/src/components/chart/TrendChart.tsx` does to its series. A chart can
switch metric without remounting. While the new fetch is under way the last result is still another
metric's, and a batch of live points may come first.

Whatever comes in whatever order, the chart draws a window of points of the series it shows
(`chart_draws_own`).
-/

set_option autoImplicit false

namespace IotSaas.Charts

/-- What has a `TrendChart` change its series, while it shows `seriesId`: a result of the fetch, if
there is one, with the series it was fetched for; or a batch of live points. -/
inductive ChartEvent (T V : Type*) [LT T] where
  | result (seriesId : String) (data : Option (String × Window T V))
  | live (seriesId : String) (batch : List (LivePoint T V)) (cutoff : T)

/-- The series to append to, which begins empty when the chart has turned to another. -/
def Series.turnTo {T V : Type*} (seriesId : String) (s : Series T V) : Series T V :=
  if s.id ≠ seriesId then .start seriesId else s

@[simp] theorem Series.turnTo_id {T V : Type*} (seriesId : String) (s : Series T V) :
    (s.turnTo seriesId).id = seriesId := by
  unfold turnTo
  by_cases h : s.id = seriesId
  · simp [h]
  · simp [h, start]

section

variable {T V : Type*} [LinearOrder T]

def ChartEvent.seriesId : ChartEvent T V → String
  | .result seriesId _ => seriesId
  | .live seriesId _ _ => seriesId

/-- A point of the series shown that comes with an event. -/
def ChartEvent.Brings : ChartEvent T V → T × V → Prop
  | .result seriesId data, q => ∃ fetched, data = some (seriesId, fetched) ∧ q ∈ fetched.points
  | .live _ batch _, q => ∃ p ∈ batch, q = (p.t, p.v)

/-- `s` draws a window, of points that some events have brought for its series. -/
def DrawsOwn (events : List (ChartEvent T V)) (s : Series T V) : Prop :=
  ∃ w : Window T V, Draws (s.xs, s.ys) w ∧
    ∀ q ∈ w.points, ∃ e ∈ events, e.seriesId = s.id ∧ e.Brings q

theorem DrawsOwn.start (seriesId : String) (events : List (ChartEvent T V)) :
    DrawsOwn events (.start seriesId) :=
  ⟨.empty, ⟨rfl, rfl⟩, by simp [Window.empty]⟩

theorem DrawsOwn.turnTo {events : List (ChartEvent T V)} {s : Series T V}
    (h : DrawsOwn events s) (seriesId : String) : DrawsOwn events (s.turnTo seriesId) := by
  unfold Series.turnTo
  split
  · exact .start seriesId events
  · exact h

theorem DrawsOwn.mono {events : List (ChartEvent T V)} {s : Series T V} (h : DrawsOwn events s)
    (e : ChartEvent T V) : DrawsOwn (events ++ [e]) s := by
  obtain ⟨w, hdraws, hown⟩ := h
  refine ⟨w, hdraws, fun q hq => ?_⟩
  obtain ⟨e', he', hbrought⟩ := hown q hq
  exact ⟨e', by simp [he'], hbrought⟩

end

section

variable {T V : Type*} [LinearOrder T] [OrderBot T] [Inhabited V]

/-- The effect that seeds the series, and the listener of the live buffer. -/
def Series.chart (s : Series T V) : ChartEvent T V → Series T V
  | .result seriesId none => s.turnTo seriesId
  | .result seriesId (some (dataFor, fetched)) =>
      if dataFor ≠ seriesId then s.turnTo seriesId
      else reseed s seriesId fetched.times fetched.values
  | .live seriesId batch cutoff =>
      let s := s.turnTo seriesId
      let columns := appendToWindow s.xs s.ys batch cutoff
      { s with xs := columns.1, ys := columns.2 }

/-- A call that brings what the event brings. -/
theorem DrawsOwn.call {events : List (ChartEvent T V)} {s : Series T V} (h : DrawsOwn events s)
    {e : ChartEvent T V} {c : Call T V} (hid : e.seriesId = (s.call c).id)
    (hshown : (s.call c).id = s.id) (hbrings : ∀ q, c.Brings q → e.Brings q) :
    DrawsOwn (events ++ [e]) (s.call c) := by
  obtain ⟨w, hdraws, hown⟩ := h
  refine ⟨w.call s.id c, hdraws.call c, fun q hq => ?_⟩
  rcases Window.mem_call hq with hold | hnew
  · obtain ⟨e', he', hof, hbrought⟩ := hown q hold
    exact ⟨e', by simp [he'], hof.trans hshown.symm, hbrought⟩
  · exact ⟨e, by simp, hid, hbrings q hnew⟩

/-- A fetch for the series that is shown already, or is turned to with it. -/
theorem Series.reseed_turnTo (s : Series T V) (seriesId : String) (fetched : Window T V) :
    (s.turnTo seriesId).call (.reseed seriesId fetched) =
      reseed s seriesId fetched.times fetched.values := by
  by_cases h : s.id = seriesId
  · simp [turnTo, call, h]
  · simp [turnTo, call, reseed, start, h]

/-- One event. -/
theorem DrawsOwn.chart {events : List (ChartEvent T V)} {s : Series T V} (h : DrawsOwn events s)
    (e : ChartEvent T V) : DrawsOwn (events ++ [e]) (s.chart e) := by
  cases e with
  | result seriesId data =>
    cases data with
    | none => exact (h.turnTo seriesId).mono _
    | some found =>
      obtain ⟨dataFor, fetched⟩ := found
      by_cases hfor : dataFor = seriesId
      · subst hfor
        have hid : ((s.turnTo dataFor).call (.reseed dataFor fetched)).id = dataFor := by
          simp only [Series.call, reseed]
          split <;> rfl
        simp only [Series.chart, ne_eq, not_true_eq_false, if_false, ← Series.reseed_turnTo]
        apply (h.turnTo dataFor).call
        · rw [hid]
          rfl
        · rw [hid, Series.turnTo_id]
        · intro q hq
          exact ⟨fetched, rfl, hq⟩
      · simp only [Series.chart, ne_eq, hfor, not_false_eq_true, if_true]
        exact (h.turnTo seriesId).mono _
  | live seriesId batch cutoff =>
    have hcall : (s.turnTo seriesId).call (.append batch cutoff) =
        s.chart (.live seriesId batch cutoff) := rfl
    rw [← hcall]
    apply (h.turnTo seriesId).call
    · exact (Series.turnTo_id seriesId s).symm
    · rfl
    · intro q hq
      exact hq

/-- **A chart draws its own points**, in time order, whatever it has turned to and from. -/
theorem chart_draws_own (seriesId : String) (events : List (ChartEvent T V)) :
    DrawsOwn events (events.foldl Series.chart (.start seriesId)) := by
  induction events using List.reverseRecOn with
  | nil => exact .start seriesId []
  | append_singleton events e ih =>
    rw [List.foldl_append]
    exact ih.chart e

end
end IotSaas.Charts
