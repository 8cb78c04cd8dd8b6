import IotSaas.Firmware.Sketch
import IotSaas.Firmware.Start
import IotSaas.Lib.Mqtt
import IotSaas.Lib.Trace
import IotSaas.Worker.ProfileEdit
import Mathlib.Data.List.Forall2

/-!
# `Firmware/Alike.lean` — two publishers on one run

`io.cpp` says of its publisher that it is ported from the generated sketch, and to keep the two in
step. Here both are run on the same messages, clock and readings, and what each hands to MQTT is
compared call by call. A metric of the one and the row of the other that have the same state answer
alike and keep the same state (`Tracks.publish`, `Tracks.follow`), so the runs agree as far as the
sketch has room for the messages (`simulates`).
-/

set_option autoImplicit false

namespace IotSaas.Firmware

open Lib Catalog Editor Wiring Sketch Worker.ConfigPublish

/-! ## Two boards on one run -/

/-- What happens to a board once it is up. -/
inductive Event where
  | message (payload : String)
  | call (round : Round ℚ)

/-- A metric nothing has been sent of. -/
def Metric.reporting (m : Metric ℚ) : Reporting ℚ := { toMetric := m }

/-- The firmware: `ioHandleMessage` of a config message, or `ioPublishMetrics`. -/
def firmwareStep (board : Board ℚ) (arduino : ArduinoJson) (format : ℚ → String)
    (metrics : List (Reporting ℚ)) : Event → List Message × List (Reporting ℚ)
  | .message payload =>
      match arduino.deserialize payload with
      | none => ([], metrics)
      | some doc => ([], applyProfile board doc metrics)
  | .call round => ioPublishMetrics format round metrics

/-- The sketch: `mqttCallback` of a config message, or `publishMetrics`. -/
def sketchStep (board : Board ℚ) (arduino : ArduinoJson) (format : ℚ → String)
    (rows : List (MetricProfile ℚ)) : Event → List Message × List (MetricProfile ℚ)
  | .message payload => ([], applyConfig board arduino payload rows)
  | .call round => publishMetrics format round rows

/-- A machine of which only some topics are looked at. -/
def watched {σ : Type} (topics : List String) (step : σ → Event → List Message × σ) (s : σ)
    (e : Event) : List Message × σ :=
  ((step s e).1.filter fun message => message.topic ∈ topics, (step s e).2)

/-- What the sketch of a device is made of. -/
def sketchInfo (input : DeviceConfigInput) : SketchInfo where
  tenantSlug := input.tenantSlug
  deviceSlug := input.deviceSlug
  metrics := input.metrics
  actuators := input.actuators

/-- The topics of a template's non-boolean metrics. -/
def numericTopics (js : Js) (input : DeviceConfigInput) : List String :=
  (input.metrics.filter fun e => e.dataType ≠ "bool").map ((sketchInfo input).topic js)

/-- Firmware and sketch publish the same on the topics of the non-boolean metrics, at the same
calls, in every run of events that are `ok`. -/
def Alike (js : Js) (board : Board ℚ) (arduino : ArduinoJson) (format : ℚ → String)
    (input : DeviceConfigInput) (io : Io ℚ) (ok : Event → Prop) : Prop :=
  ∃ rows, metricsTable js board (sketchInfo input) = some rows ∧
    ∀ events, (∀ e ∈ events, ok e) →
      answers (watched (numericTopics js input) (firmwareStep board arduino format))
          (io.metrics.map Metric.reporting) events =
        answers (watched (numericTopics js input) (sketchStep board arduino format)) rows events

/-- A config message fits the buffer of the MQTT client. -/
def Event.Fits (input : DeviceConfigInput) : Event → Prop
  | .message payload =>
      Mqtt.publishBytes (input.tenantSlug ++ "/" ++ input.deviceSlug ++ "/config") payload ≤
        bufferSize
  | .call _ => True

/-- A message has room in the document of the sketch, and what no input leads to has no reading. -/
def Event.Covered (arduino : ArduinoJson) (input : DeviceConfigInput) : Event → Prop
  | .message payload => arduino.memory payload ≤ capacity
  | .call round => ∀ key, key ∉ fedKeys input.wiring.inputs → round.reading key = none

/-! ## A metric and its row -/

/-- The same profile, and the same sent. -/
structure Agree (m : Reporting ℚ) (r : MetricProfile ℚ) : Prop where
  mode : m.mode = r.mode
  intervalMs : m.intervalMs = r.intervalMs
  deadband : m.mode = .onChange → m.deadband = r.deadband
  lastValue : m.lastValue = r.lastValue
  lastPublishMs : m.lastPublishMs = r.lastPublishMs

/-- A metric of the firmware and its row in the sketch. -/
structure Tracks (fed topics : List String) (m : Reporting ℚ) (r : MetricProfile ℚ) : Prop where
  key : m.key = r.key
  topic : m.topic = r.topic
  isBool : m.isBool = r.isBool
  numeric : m.topic ∈ topics ↔ m.isBool = false
  source : m.source.isSome = true ↔ m.key ∈ fed
  agree : m.isBool = false → m.key ∈ fed → Agree m r

section

variable {board : Board ℚ} {arduino : ArduinoJson} {format : ℚ → String}
  {fed topics : List String} {m : Reporting ℚ} {r : MetricProfile ℚ}

theorem Agree.follow (h : Agree m r) (item : Json ℚ) :
    Agree (m.follow board item) (r.follow board item) :=
  ⟨rfl, rfl, fun _ => rfl, h.lastValue, h.lastPublishMs⟩

theorem Agree.sent (h : Agree m r) (now : Int) (value : ℚ) :
    Agree (m.sent now value) (r.sent now value) :=
  ⟨h.mode, h.intervalMs, h.deadband, rfl, rfl⟩

theorem Agree.sendReason (h : Agree m r) (hm : m.isBool = false) (hr : r.isBool = false)
    (now : Int) (value : ℚ) : sendReason m now value = r.sendReason now value := by
  unfold Firmware.sendReason MetricProfile.sendReason
  rw [h.lastValue]
  cases r.lastValue with
  | none => rfl
  | some lastValue =>
    dsimp only
    rw [← h.mode, h.intervalMs, h.lastPublishMs]
    by_cases hmode : m.mode = .onChange
    · have hchanged : m.changed value lastValue = r.changed value lastValue := by
        simp [Reporting.changed, MetricProfile.changed, hm, hr, h.deadband hmode]
      rw [hchanged]
    · simp [hmode]

theorem publishRow_fixed (format : ℚ → String) (round : Round ℚ) (r : MetricProfile ℚ) :
    (publishRow format round r).2.key = r.key ∧ (publishRow format round r).2.topic = r.topic ∧
      (publishRow format round r).2.isBool = r.isBool := by
  have hdebounce : ∀ now value, (r.debounce now value).key = r.key ∧
      (r.debounce now value).topic = r.topic ∧ (r.debounce now value).isBool = r.isBool := by
    intro now value
    unfold MetricProfile.debounce
    split <;> simp
  unfold publishRow
  cases round.reading r.key with
  | none => simp
  | some value =>
    have h := hdebounce round.now value
    dsimp only
    split
    · exact h
    · split
      · exact h
      · split <;> exact h

/-- A row that is no switch is published as a metric is. -/
theorem publishRow_numeric (round : Round ℚ) (hr : r.isBool = false) :
    publishRow format round r =
      match round.reading r.key with
      | none => (none, r)
      | some value =>
          match r.sendReason round.now value with
          | none => (none, r)
          | some _ =>
              (some ⟨r.topic, valuePayload (format value)⟩,
                if round.published r.key then r.sent round.now value else r) := by
  unfold publishRow
  cases round.reading r.key with
  | none => rfl
  | some value =>
    have hdebounce : r.debounce round.now value = r := by simp [MetricProfile.debounce, hr]
    have hbounces : r.bounces round.now = false := by simp [MetricProfile.bounces, hr]
    cases hreason : r.sendReason round.now value with
    | none => simp [hdebounce, hbounces, hreason]
    | some reason => simp [hdebounce, hbounces, hreason]

variable {round : Round ℚ}

/-- Every message of a metric goes out on its topic. -/
theorem publishMetric_topic {message : Message}
    (h : (publishMetric format round m).1 = some message) : message.topic = m.topic := by
  unfold publishMetric at h
  repeat' split at h
  all_goals cases h
  all_goals rfl

theorem publishRow_topic {message : Message} (h : (publishRow format round r).1 = some message) :
    message.topic = r.topic := by
  have hdebounce : ∀ now value, (r.debounce now value).topic = r.topic := by
    intro now value
    unfold MetricProfile.debounce
    split <;> rfl
  unfold publishRow at h
  dsimp only at h
  repeat' split at h
  all_goals cases h
  all_goals exact hdebounce _ _

/-- What goes out on these topics. -/
def onTopics (topics : List String) (message : Option Message) : Option Message :=
  message.filter fun message => message.topic ∈ topics

theorem onTopics_eq_none {message : Option Message} {topic : String} (hnot : topic ∉ topics)
    (h : ∀ msg, message = some msg → msg.topic = topic) : onTopics topics message = none := by
  cases message with
  | none => rfl
  | some msg =>
    have htopic := h msg rfl
    simp [onTopics, Option.filter, htopic, hnot]

theorem Tracks.follow (h : Tracks fed topics m r) (item : Json ℚ) :
    Tracks fed topics (followItem board m item) (followRow board r item) := by
  unfold followItem followRow
  rw [← h.key]
  by_cases hkey : m.key = textOr "" (member "key" item)
  · rw [if_pos hkey, if_pos hkey]
    exact ⟨h.key, h.topic, h.isBool, h.numeric, h.source,
      fun hm hfed => (h.agree hm hfed).follow item⟩
  · rw [if_neg hkey, if_neg hkey]
    exact h

theorem Tracks.items (h : Tracks fed topics m r) (items : List (Json ℚ)) :
    Tracks fed topics (items.foldl (followItem board) m) (items.foldl (followRow board) r) := by
  induction items generalizing m r with
  | nil => exact h
  | cons item rest ih => exact ih (h.follow item)

/-- One round, from the side of a metric and its row. -/
theorem Tracks.publish (h : Tracks fed topics m r)
    (hround : ∀ key, key ∉ fed → round.reading key = none) :
    onTopics topics (publishMetric format round m).1 =
        onTopics topics (publishRow format round r).1 ∧
      Tracks fed topics (publishMetric format round m).2 (publishRow format round r).2 := by
  have hmetric := publishMetric_toMetric format round m
  obtain ⟨hkey, htopic, hbool⟩ := publishRow_fixed format round r
  -- Publishing changes neither key nor topic, so only the last values are to be compared.
  have hagree : (m.isBool = false → m.key ∈ fed →
      Agree (publishMetric format round m).2 (publishRow format round r).2) →
      Tracks fed topics (publishMetric format round m).2 (publishRow format round r).2 := by
    intro hstate
    constructor
    · rw [hmetric, hkey, h.key]
    · rw [hmetric, htopic, h.topic]
    · rw [hmetric, hbool, h.isBool]
    · rw [hmetric]
      exact h.numeric
    · rw [hmetric]
      exact h.source
    · rw [hmetric]
      exact hstate
  cases hm : m.isBool with
  | true =>
    -- A bool has no topic among those that are compared.
    have hnot : m.topic ∉ topics := by
      rw [h.numeric, hm]
      simp
    refine ⟨?_, hagree fun hfalse => absurd (hm.symm.trans hfalse) (by simp)⟩
    rw [onTopics_eq_none hnot fun _ => publishMetric_topic,
      onTopics_eq_none (h.topic ▸ hnot) fun _ => publishRow_topic]
  | false =>
    have hr : r.isBool = false := h.isBool.symm.trans hm
    rw [publishRow_numeric round hr] at hagree ⊢
    rw [← h.key] at hagree ⊢
    by_cases hfed : m.key ∈ fed
    · have hstate := h.agree hm hfed
      obtain ⟨source, hsource⟩ := Option.isSome_iff_exists.mp (h.source.mpr hfed)
      cases hvalue : round.reading m.key with
      | none =>
        simp only [publishMetric, hsource, hvalue] at hagree ⊢
        exact ⟨trivial, hagree fun _ _ => hstate⟩
      | some value =>
        have hreason := hstate.sendReason hm hr round.now value
        cases hsend : r.sendReason round.now value with
        | none =>
          simp only [publishMetric, hsource, hvalue, hreason, hsend] at hagree ⊢
          exact ⟨trivial, hagree fun _ _ => hstate⟩
        | some reason =>
          simp only [publishMetric, hsource, hvalue, hreason, hsend] at hagree ⊢
          refine ⟨by rw [h.topic], hagree fun _ _ => ?_⟩
          cases round.published m.key with
          | true => exact hstate.sent round.now value
          | false => exact hstate
    -- A metric no part feeds has no reading and is never sent.
    · have hvalue := hround m.key hfed
      have hsource : m.source = none := by
        cases hsource : m.source with
        | none => rfl
        | some source => exact absurd (h.source.mp (by simp [hsource])) hfed
      simp only [publishMetric, hsource, hvalue] at hagree ⊢
      exact ⟨trivial, hagree fun _ hin => absurd hin hfed⟩

/-! ## The two runs -/

theorem foldl_followRow (items : List (Json ℚ)) (rows : List (MetricProfile ℚ)) :
    items.foldl (fun rows item => rows.map fun r => followRow board r item) rows =
      rows.map fun r => items.foldl (followRow board) r := by
  induction items generalizing rows with
  | nil => simp
  | cons item rest ih =>
    rw [List.foldl_cons, ih, List.map_map]
    rfl

/-- Metric by metric, row by row. -/
structure Paired (fed topics : List String) (metrics : List (Reporting ℚ))
    (rows : List (MetricProfile ℚ)) : Prop where
  tracks : List.Forall₂ (Tracks fed topics) metrics rows
  nodup : (metrics.map (·.key)).Nodup

theorem ioPublishMetrics_keys (format : ℚ → String) (round : Round ℚ)
    (metrics : List (Reporting ℚ)) :
    (ioPublishMetrics format round metrics).2.map (·.key) = metrics.map (·.key) := by
  simp only [ioPublishMetrics, List.map_map]
  exact List.map_congr_left fun m _ => congrArg Metric.key (publishMetric_toMetric format round m)

theorem Paired.publish {metrics : List (Reporting ℚ)} {rows : List (MetricProfile ℚ)}
    (h : Paired fed topics metrics rows) (hround : ∀ key, key ∉ fed → round.reading key = none) :
    ((ioPublishMetrics format round metrics).1.filter fun message => message.topic ∈ topics) =
        ((publishMetrics format round rows).1.filter fun message => message.topic ∈ topics) ∧
      Paired fed topics (ioPublishMetrics format round metrics).2
        (publishMetrics format round rows).2 := by
  obtain ⟨htracks, hnodup⟩ := h
  refine ⟨?_, ?_, ?_⟩
  · simp only [ioPublishMetrics, publishMetrics, List.filter_filterMap]
    show metrics.filterMap (fun m => onTopics topics (publishMetric format round m).1) =
      rows.filterMap fun r => onTopics topics (publishRow format round r).1
    clear hnodup
    induction htracks with
    | nil => rfl
    | cons hhead _ ih => rw [List.filterMap_cons, List.filterMap_cons, (hhead.publish hround).1, ih]
  · simp only [ioPublishMetrics, publishMetrics, List.forall₂_map_left_iff,
      List.forall₂_map_right_iff]
    exact htracks.imp fun m r h => (h.publish hround).2
  · rw [ioPublishMetrics_keys]
    exact hnodup

theorem Paired.profile {metrics : List (Reporting ℚ)} {rows : List (MetricProfile ℚ)}
    (h : Paired fed topics metrics rows) (doc : Json ℚ) :
    Paired fed topics (applyProfile board doc metrics)
      ((asArray (member "metrics" doc)).foldl
        (fun rows item => rows.map fun r => followRow board r item) rows) := by
  refine ⟨?_, ?_⟩
  · rw [applyProfile_eq_map board doc h.nodup, foldl_followRow, List.forall₂_map_left_iff,
      List.forall₂_map_right_iff]
    exact h.tracks.imp fun m r h => h.items _
  · rw [applyProfile_keys board doc h.nodup]
    exact h.nodup

theorem simulates (input : DeviceConfigInput) :
    Simulates (Paired (fedKeys input.wiring.inputs) topics) (Event.Covered arduino input)
      (watched topics (firmwareStep board arduino format))
      (watched topics (sketchStep board arduino format)) := by
  constructor
  · intro metrics rows e hpaired hcovered
    cases e with
    | message payload =>
      have hnone : (firmwareStep board arduino format metrics (.message payload)).1 = [] := by
        simp only [firmwareStep]
        split <;> rfl
      simp [watched, hnone, sketchStep]
    | call round => exact (hpaired.publish hcovered).1
  · intro metrics rows e hpaired hcovered
    cases e with
    | message payload =>
      have hroom : ¬capacity < arduino.memory payload := Nat.not_lt.mpr hcovered
      simp only [watched, firmwareStep, sketchStep, applyConfig, if_neg hroom]
      cases arduino.deserialize payload with
      | none => exact hpaired
      | some doc => exact hpaired.profile doc
    | call round => exact (hpaired.publish hcovered).2

end

end IotSaas.Firmware
