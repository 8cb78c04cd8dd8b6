import IotSaas.Firmware.Agreement
import IotSaas.Firmware.Alike
import IotSaas.Health.Cadence
import IotSaas.Lib.Zipped

/-!
# `Firmware/InStep.lean` — what the sketch's table can say

The two publishers agree from equal starts (`Firmware/Alike.lean`), and both start from the
template: the firmware from the config it loads, the sketch from the table that is printed into it.
The table says a topic as it is, an interval as a literal that must fit 32 bits, and a deadband to
three places; where these say what the template says, and only there, the runs agree (`alike_iff`).

They agree over messages that the sketch has room for. Its document has 1024 bytes, and takes more
of them than the payload has; the buffer takes payloads of about that length
(`edit_moves_one_board`).
-/

set_option autoImplicit false

namespace IotSaas.Firmware

open Lib Catalog Editor Wiring Sketch Worker.ConfigPublish

/-! ## How the two start -/

/-- A positive interval compiles when its milliseconds fit 32 bits. -/
theorem intervalMs_isSome {e : TemplateMetric}
    (hpos : ∀ s, e.publishIntervalSeconds = some s → 0 < s) :
    (intervalMs e).isSome = true ↔ ∀ s, e.publishIntervalSeconds = some s → s ≤ 4294967 := by
  unfold intervalMs
  cases hinterval : e.publishIntervalSeconds with
  | none => simp
  | some s =>
    have hs := hpos s hinterval
    have hne : s ≠ 0 := by omega
    by_cases hfits : s * 1000 < 2 ^ 32
    · have hle : s ≤ 4294967 := by omega
      simp only [Option.filter, hne, ne_eq, not_false_eq_true, decide_true, if_true, if_pos hfits,
        Option.isSome_some, Option.some.injEq, forall_eq', hle]
    · have hlong : ¬s ≤ 4294967 := by omega
      simp only [Option.filter, hne, ne_eq, not_false_eq_true, decide_true, if_true, if_neg hfits,
        Option.isSome_none, Bool.false_eq_true, Option.some.injEq, forall_eq', hlong]

/-- … and says what the firmware waits. -/
theorem intervalMs_eq {e : TemplateMetric} {ms : Int}
    (hpos : ∀ s, e.publishIntervalSeconds = some s → 0 < s) (h : intervalMs e = some ms) :
    ms = boardIntervalMs e.publish e.publishIntervalSeconds := by
  have hfits := (intervalMs_isSome hpos).mp (Option.isSome_of_eq_some h)
  rw [(boardIntervalMs_declared e hpos).mpr hfits]
  unfold intervalMs at h
  unfold declaredMs
  cases hinterval : e.publishIntervalSeconds with
  | none =>
    simp only [hinterval, Option.filter_none, Option.some.injEq] at h
    exact h.symm
  | some s =>
    have hs := hpos s hinterval
    have hne : s ≠ 0 := by omega
    have hlt : s * 1000 < 2 ^ 32 := by
      have := hfits s hinterval
      omega
    simp only [hinterval, Option.filter, hne, ne_eq, not_false_eq_true, decide_true, if_true,
      if_pos hlt, Option.some.injEq] at h
    exact h.symm

/-- The topic of a metric can be printed as it is. -/
def Plain (text : String) : Prop := ∀ c ∈ text.toList, special c = false

theorem quoted_isSome (text : String) : (quoted text).isSome = true ↔ Plain text := by
  simp [quoted, Plain, Option.isSome_ite]

/-- The rows say what a template's board can follow: their topics and intervals compile, and a
deadband that counts has no more than three places. -/
structure InStep (js : Js) (input : DeviceConfigInput) : Prop where
  topics : ∀ e ∈ (sketchInfo input).rows, Plain ((sketchInfo input).topic js e)
  intervals : ∀ e ∈ (sketchInfo input).rows, ∀ s,
    e.publishIntervalSeconds = some s → s ≤ 4294967
  deadbands : ∀ e ∈ input.metrics, e.dataType ≠ "bool" →
    wireId js e.name e.key ∈ fedKeys input.wiring.inputs → e.publish = .onChange →
      toFixed3 (e.publishDeadband.getD 0) = e.publishDeadband.getD 0

/-- A metric of the firmware as it starts, with this deadband. -/
structure Begun (js : Js) (input : DeviceConfigInput) (deadband : TemplateMetric → ℚ)
    (e : TemplateMetric) (m : Reporting ℚ) : Prop where
  key : m.key = wireId js e.name e.key
  topic : m.topic = (sketchInfo input).topic js e
  isBool : m.isBool = decide (e.dataType = "bool")
  mode : m.mode = e.publish
  intervalMs : m.intervalMs = boardIntervalMs e.publish e.publishIntervalSeconds
  deadband : m.deadband = deadband e
  source : m.source.isSome = true ↔ m.key ∈ fedKeys input.wiring.inputs
  lastValue : m.lastValue = none
  lastPublishMs : m.lastPublishMs = 0

section

variable {js : Js} {board : Board ℚ} {arduino : ArduinoJson} {format : ℚ → String}
  {input : DeviceConfigInput} {cfg : DeviceConfig} {io : Io ℚ}

variable {e : TemplateMetric}

theorem rows_positive (haccepted : ∀ e ∈ input.metrics, Health.accepted e = true)
    (he : e ∈ (sketchInfo input).rows) {s : Int} (hs : e.publishIntervalSeconds = some s) :
    0 < s := by
  unfold SketchInfo.rows at he
  split at he
  · have haccept := haccepted e he
    simp only [Health.accepted, Bool.and_eq_true] at haccept
    exact CatalogMetric.accepted_positive haccept.1 hs
  · split at he
    · cases he
    · obtain rfl := List.mem_singleton.mp he
      cases hs

theorem rows_eq (hne : input.metrics ≠ []) : (sketchInfo input).rows = input.metrics :=
  if_pos hne

theorem metricsTable_isSome (board : Board ℚ)
    (haccepted : ∀ e ∈ input.metrics, Health.accepted e = true) :
    (∃ rows, metricsTable js board (sketchInfo input) = some rows) ↔
      ∀ e ∈ (sketchInfo input).rows, Plain ((sketchInfo input).topic js e) ∧
        ∀ s, e.publishIntervalSeconds = some s → s ≤ 4294967 := by
  unfold metricsTable
  rw [mapM_isSome]
  refine forall₂_congr fun e he => ?_
  rw [← quoted_isSome, ← intervalMs_isSome fun s hs => rows_positive haccepted he hs]
  unfold metricRow
  cases quoted ((sketchInfo input).topic js e) with
  | none => simp
  | some topic => cases intervalMs e <;> simp

/-- A board that has come up with the config of a template. -/
theorem begun (haccepted : ∀ e ∈ input.metrics, Health.accepted e = true)
    (hfloat : ∀ q, board.asFloat q = q)
    (hload : loadConfig board (buildFirmwareConfig js input) = .ok cfg)
    (hsetup : setup board cfg = .ok io) :
    (input.metrics.map fun e => wireId js e.name e.key).Nodup ∧
      List.Forall₂ (Begun js input fun e => e.publishDeadband.getD 0) input.metrics
        (io.metrics.map Metric.reporting) := by
  obtain ⟨-, rfl⟩ := loadConfig_ok hload
  obtain ⟨hdeclared, hnodup, hfed⟩ := setup_metrics hsetup
  simp only [buildFirmwareConfig, List.map_map] at hdeclared hnodup hfed
  refine ⟨hnodup, ?_⟩
  rw [List.forall₂_map_right_iff]
  have hpairs : List.Forall₂ (fun e (m : Metric ℚ) => m.declared =
      newMetric board (input.tenantSlug ++ "/" ++ input.deviceSlug ++ "/") (firmwareMetric js e))
      input.metrics io.metrics := by
    have heq := List.forall₂_eq_eq_eq ▸ hdeclared.symm
    rw [List.forall₂_map_left_iff, List.forall₂_map_right_iff] at heq
    exact heq.imp fun e m h => h.symm
  have hpos : ∀ e ∈ input.metrics, ∀ s, e.publishIntervalSeconds = some s → 0 < s := by
    intro e he s hs
    have haccept := haccepted e he
    simp only [Health.accepted, Bool.and_eq_true] at haccept
    exact CatalogMetric.accepted_positive haccept.1 hs
  have hboth := ((List.forall₂_and_left _ _).mpr
    ⟨hfed, ((List.forall₂_and_left _ _).mpr ⟨hpos, hpairs⟩).flip⟩).flip
  refine hboth.imp ?_
  rintro e m ⟨hsource, hpositive, heq⟩
  have hfields : ∀ {β : Type} (field : Metric ℚ → β), field m.declared =
      field (newMetric board (input.tenantSlug ++ "/" ++ input.deviceSlug ++ "/")
        (firmwareMetric js e)) := fun field => congrArg field heq
  constructor
  · exact hfields Metric.key
  · exact hfields Metric.topic
  · exact hfields Metric.isBool
  · exact hfields Metric.mode
  · have hms := hfields Metric.intervalMs
    rw [newMetric_intervalMs, Health.firmwareMetric_intervalS js hpositive] at hms
    exact hms
  · exact (hfields Metric.deadband).trans (hfloat _)
  · exact hsource
  · rfl
  · rfl

/-! ## Alike -/

/-- Where no two metrics have one key, the topics tell switches from numbers. -/
theorem mem_numericTopics (hnodup : (input.metrics.map fun e => wireId js e.name e.key).Nodup)
    (he : e ∈ input.metrics) :
    (sketchInfo input).topic js e ∈ numericTopics js input ↔ e.dataType ≠ "bool" := by
  simp only [numericTopics, List.mem_map, List.mem_filter, decide_eq_true_eq]
  constructor
  · rintro ⟨e', ⟨he', hnumeric⟩, htopic⟩
    have hkey : wireId js e'.name e'.key = wireId js e.name e.key :=
      (String.append_right_inj _).mp htopic
    rwa [← List.inj_on_of_nodup_map hnodup he' he hkey]
  · intro hnumeric
    exact ⟨e, ⟨he, hnumeric⟩, rfl⟩

variable {deadband : TemplateMetric → ℚ} {metrics : List (Reporting ℚ)}

theorem begun_keys {deadband : TemplateMetric → ℚ} {l : List TemplateMetric}
    {metrics : List (Reporting ℚ)} (h : List.Forall₂ (Begun js input deadband) l metrics) :
    metrics.map (·.key) = l.map fun e => wireId js e.name e.key := by
  induction h with
  | nil => rfl
  | cons hhead _ ih => rw [List.map_cons, List.map_cons, hhead.key, ih]

/-- A board whose deadbands are those of the table, where they count, is paired with it. -/
theorem paired_of_begun (hfloat : ∀ q, board.asFloat q = q)
    (haccepted : ∀ e ∈ input.metrics, Health.accepted e = true)
    (hnodup : (input.metrics.map fun e => wireId js e.name e.key).Nodup)
    (hmetrics : List.Forall₂ (Begun js input deadband) input.metrics metrics)
    (hdeadband : ∀ e ∈ input.metrics, e.dataType ≠ "bool" →
      wireId js e.name e.key ∈ fedKeys input.wiring.inputs → e.publish = .onChange →
        deadband e = toFixed3 (e.publishDeadband.getD 0))
    {rows : List (MetricProfile ℚ)} (hne : input.metrics ≠ [])
    (hrows : metricsTable js board (sketchInfo input) = some rows) :
    Paired (fedKeys input.wiring.inputs) (numericTopics js input) metrics rows := by
  refine ⟨?_, by rw [begun_keys hmetrics]; exact hnodup⟩
  have htable := forall₂_of_mapM hrows
  rw [rows_eq hne] at htable
  have hmem := (List.forall₂_and_left _ _).mpr ⟨fun e he => he, htable⟩
  refine forall₂_join ?_ hmetrics hmem
  rintro e m r hm ⟨he, hrow⟩
  have hpos : ∀ s, e.publishIntervalSeconds = some s → 0 < s := by
    intro s hs
    exact rows_positive haccepted (by rw [rows_eq hne]; exact he) hs
  unfold metricRow at hrow
  cases htopic : quoted ((sketchInfo input).topic js e) with
  | none => simp [htopic] at hrow
  | some topic =>
    cases hms : Sketch.intervalMs e with
    | none => simp [htopic, hms] at hrow
    | some ms =>
      have hsame : topic = (sketchInfo input).topic js e := by
        unfold quoted at htopic
        split at htopic
        · exact (Option.some.inj htopic).symm
        · cases htopic
      simp only [htopic, hms, Option.bind_eq_bind, Option.bind_some, Option.some.injEq] at hrow
      obtain rfl := hrow
      constructor
      · exact hm.key
      · exact hm.topic.trans hsame.symm
      · exact hm.isBool
      · rw [hm.topic, mem_numericTopics hnodup he, hm.isBool]
        simp
      · exact hm.source
      · intro hbool hfed
        have hnumeric : e.dataType ≠ "bool" := by
          rw [hm.isBool] at hbool
          simpa using hbool
        refine ⟨hm.mode, hm.intervalMs.trans (intervalMs_eq hpos hms).symm, fun hchange => ?_,
          hm.lastValue, hm.lastPublishMs⟩
        rw [hm.deadband, hfloat]
        exact hdeadband e he hnumeric (hm.key ▸ hfed) (hm.mode ▸ hchange)

/-- A call in which one metric has a reading, and every publication goes through. -/
def glimpse (key : String) (now : Int) (value : ℚ) : Round ℚ where
  now := now
  reading k := if k = key then some value else none
  published _ := true

/-- Such a call is about that metric alone. -/
theorem ioPublishMetrics_glimpse (format : ℚ → String) (hnodup : (metrics.map (·.key)).Nodup)
    {m : Reporting ℚ} (hm : m ∈ metrics) (now : Int) (value : ℚ) :
    (ioPublishMetrics format (glimpse m.key now value) metrics).1 =
      (publishMetric format (glimpse m.key now value) m).1.toList := by
  have hother : ∀ m' : Reporting ℚ, m'.key ≠ m.key →
      (publishMetric format (glimpse m.key now value) m').1 = none := by
    intro m' hne
    unfold publishMetric
    cases m'.source with
    | none => rfl
    | some source => simp [glimpse, hne]
  unfold ioPublishMetrics
  dsimp only
  induction metrics with
  | nil => cases hm
  | cons first rest ih =>
    obtain ⟨hfresh, hrest⟩ := List.nodup_cons.mp hnodup
    rcases List.mem_cons.mp hm with rfl | hm
    · have hnone : rest.filterMap
          (fun m' => (publishMetric format (glimpse m.key now value) m').1) = [] := by
        rw [List.filterMap_eq_nil_iff]
        intro m' hm'
        exact hother m' fun heq => hfresh (List.mem_map.mpr ⟨m', hm', heq⟩)
      rw [List.filterMap_cons, hnone]
      cases (publishMetric format (glimpse m.key now value) m).1 <;> rfl
    · have hne : first.key ≠ m.key := fun heq => hfresh (List.mem_map.mpr ⟨m, hm, heq.symm⟩)
      rw [List.filterMap_cons, hother first hne]
      exact ih hrest hm

/-- Two readings 100 ms apart: the second one goes out when it is beyond the deadband. -/
theorem second_glimpse (format : ℚ → String) {m : Reporting ℚ} (hsource : m.source.isSome = true)
    (hmode : m.mode = .onChange) (hbool : m.isBool = false) (hnew : m.lastValue = none)
    (hlong : 100 < m.intervalMs) (value : ℚ) :
    publishMetric format (glimpse m.key 0 0) m =
        (some ⟨m.topic, valuePayload (format 0)⟩, m.sent 0 0) ∧
      (publishMetric format (glimpse m.key 100 value) (m.sent 0 0)).1 =
        if m.deadband < |value| then some ⟨m.topic, valuePayload (format value)⟩ else none := by
  obtain ⟨source, hsource⟩ := Option.isSome_iff_exists.mp hsource
  constructor
  · simp [publishMetric, hsource, glimpse, sendReason, hnew]
  · have hsince : sinceLast 100 0 = 100 := by decide
    have hwait : ¬m.intervalMs ≤ 100 := Int.not_le.mpr hlong
    have hchanged : (m.sent 0 0).changed value 0 = decide (m.deadband < |value|) := by
      simp [Reporting.changed, hbool]
    have hreason : sendReason (m.sent 0 0) 100 value =
        if m.deadband < |value| then some "change" else none := by
      simp only [sendReason, Reporting.sent_lastValue, Reporting.sent_lastPublishMs,
        Reporting.sent_toMetric, hmode, hsince, hchanged, onChangeMinGapMs, decide_eq_true_eq,
        if_true, le_refl, and_true, if_neg hwait]
    by_cases hbeyond : m.deadband < |value|
    · simp [publishMetric, hsource, glimpse, hreason, hbeyond]
    · simp [publishMetric, hsource, glimpse, hreason, hbeyond]

/-- What two such calls about an `on_change` metric answer. -/
theorem answers_glimpse (hnodup : (input.metrics.map fun e => wireId js e.name e.key).Nodup)
    (hmetrics : List.Forall₂ (Begun js input deadband) input.metrics metrics)
    (he : e ∈ input.metrics) (hnumeric : e.dataType ≠ "bool")
    (hfed : wireId js e.name e.key ∈ fedKeys input.wiring.inputs) (hchange : e.publish = .onChange)
    (hlong : 100 < boardIntervalMs e.publish e.publishIntervalSeconds) (value : ℚ) :
    answers (watched (numericTopics js input) (firmwareStep board arduino format)) metrics
        [.call (glimpse (wireId js e.name e.key) 0 0),
          .call (glimpse (wireId js e.name e.key) 100 value)] =
      [[⟨(sketchInfo input).topic js e, valuePayload (format 0)⟩],
        if deadband e < |value| then
          [⟨(sketchInfo input).topic js e, valuePayload (format value)⟩]
        else []] := by
  obtain ⟨m, hm, hmetric⟩ := forall₂_mem hmetrics he
  have hbool : m.isBool = false := by simp [hmetric.isBool, hnumeric]
  have htopic : (sketchInfo input).topic js e ∈ numericTopics js input :=
    (mem_numericTopics hnodup he).mpr hnumeric
  have hsource : m.source.isSome = true := hmetric.source.mpr (hmetric.key ▸ hfed)
  rw [← begun_keys hmetrics] at hnodup
  obtain ⟨hfirst, hsecond⟩ := second_glimpse format hsource (hmetric.mode.trans hchange) hbool
    hmetric.lastValue (hmetric.intervalMs ▸ hlong) value
  rw [hmetric.key, hmetric.topic] at hfirst hsecond
  rw [hmetric.deadband] at hsecond
  have hkeys : (ioPublishMetrics format (glimpse (wireId js e.name e.key) 0 0) metrics).2.map
      (·.key) = metrics.map (·.key) := ioPublishMetrics_keys format _ metrics
  have hm' : m.sent 0 0 ∈
      (ioPublishMetrics format (glimpse (wireId js e.name e.key) 0 0) metrics).2 := by
    refine List.mem_map.mpr ⟨m, hm, ?_⟩
    rw [hfirst]
  have hanswer := ioPublishMetrics_glimpse format hnodup hm 0 0
  have hanswer' := ioPublishMetrics_glimpse format (hkeys ▸ hnodup) hm' 100 value
  rw [hmetric.key, hfirst] at hanswer
  rw [Reporting.sent_toMetric, hmetric.key, hsecond] at hanswer'
  simp only [answers, watched, firmwareStep, hanswer, hanswer']
  by_cases hbeyond : deadband e < |value|
  · simp [hbeyond, htopic]
  · simp [hbeyond, htopic]

theorem toFixed3_nonneg {d : ℚ} (h : 0 ≤ d) : 0 ≤ toFixed3 d := by
  unfold toFixed3
  have hfloor : 0 ≤ (d * 1000 + 1 / 2).floor := by
    rw [Rat.le_floor_iff]
    have hscaled : 0 ≤ d * 1000 := mul_nonneg h (by decide)
    exact add_nonneg hscaled (by simp)
  exact div_nonneg (by exact_mod_cast hfloor) (by decide)

theorem alike_of_inStep (hfloat : ∀ q, board.asFloat q = q)
    (haccepted : ∀ e ∈ input.metrics, Health.accepted e = true)
    (hload : loadConfig board (buildFirmwareConfig js input) = .ok cfg)
    (hsetup : setup board cfg = .ok io) (h : InStep js input) :
    Alike js board arduino format input io (Event.Covered arduino input) := by
  obtain ⟨rows, hrows⟩ := (metricsTable_isSome board haccepted).mpr fun e he =>
    ⟨h.topics e he, h.intervals e he⟩
  refine ⟨rows, hrows, fun events hevents => ?_⟩
  by_cases hne : input.metrics = []
  · have hnone : numericTopics js input = [] := by simp [numericTopics, hne]
    have hsilent : Simulates (fun _ _ => True) (Event.Covered arduino input)
        (watched (numericTopics js input) (firmwareStep board arduino format))
        (watched (numericTopics js input) (sketchStep board arduino format)) :=
      ⟨fun _ _ _ _ _ => by simp [watched, hnone], fun _ _ _ _ _ => trivial⟩
    exact hsilent.answers trivial hevents
  · obtain ⟨hnodup, hbegun⟩ := begun haccepted hfloat hload hsetup
    have hpaired := paired_of_begun hfloat haccepted hnodup hbegun
      (fun e he hbool hfed hchange => (h.deadbands e he hbool hfed hchange).symm) hne hrows
    exact (simulates input).answers hpaired hevents

/-- The same board with other deadbands. -/
theorem exists_begun (other : TemplateMetric → ℚ) {l : List TemplateMetric}
    (h : List.Forall₂ (Begun js input deadband) l metrics) :
    ∃ metrics', List.Forall₂ (Begun js input other) l metrics' := by
  induction h with
  | nil => exact ⟨[], .nil⟩
  | @cons e m l metrics hhead _ ih =>
    obtain ⟨metrics', hmetrics'⟩ := ih
    refine ⟨{ m with deadband := other e } :: metrics', .cons ?_ hmetrics'⟩
    exact ⟨hhead.key, hhead.topic, hhead.isBool, hhead.mode, hhead.intervalMs, rfl, hhead.source,
      hhead.lastValue, hhead.lastPublishMs⟩

/-- The interval of an `on_change` metric is longer than the gap between two changes. -/
theorem interval_beyond_gap (hchange : e.publish = .onChange)
    (hpos : ∀ s, e.publishIntervalSeconds = some s → 0 < s)
    (hfits : ∀ s, e.publishIntervalSeconds = some s → s ≤ 4294967) :
    100 < boardIntervalMs e.publish e.publishIntervalSeconds := by
  rw [(boardIntervalMs_declared e hpos).mpr hfits, declaredMs]
  cases hinterval : e.publishIntervalSeconds with
  | none =>
    rw [hchange]
    decide
  | some s =>
    have hs := hpos s hinterval
    dsimp only
    omega

/-- A deadband that is rounded shows in two readings. -/
theorem deadband_of_alike (hfloat : ∀ q, board.asFloat q = q)
    (haccepted : ∀ e ∈ input.metrics, Health.accepted e = true)
    (hload : loadConfig board (buildFirmwareConfig js input) = .ok cfg)
    (hsetup : setup board cfg = .ok io)
    (halike : Alike js board arduino format input io fun event =>
      event.Fits input ∧ event.Covered arduino input)
    {e : TemplateMetric} (he : e ∈ input.metrics) (hnumeric : e.dataType ≠ "bool")
    (hfed : wireId js e.name e.key ∈ fedKeys input.wiring.inputs)
    (hchange : e.publish = .onChange) :
    toFixed3 (e.publishDeadband.getD 0) = e.publishDeadband.getD 0 := by
  obtain ⟨rows, hrows, hruns⟩ := halike
  have hne : input.metrics ≠ [] := List.ne_nil_of_mem he
  have haccept := haccepted e he
  simp only [Health.accepted, Bool.and_eq_true] at haccept
  have hlong := interval_beyond_gap hchange
    (fun s hs => CatalogMetric.accepted_positive haccept.1 hs)
    (((metricsTable_isSome board haccepted).mp ⟨rows, hrows⟩ e (by rw [rows_eq hne]; exact he)).2)
  have hnonneg : 0 ≤ e.publishDeadband.getD 0 := by
    cases hd : e.publishDeadband with
    | none => exact le_rfl
    | some d => simpa [hd] using haccept.2
  obtain ⟨hnodup, hbegun⟩ := begun haccepted hfloat hload hsetup
  obtain ⟨others, hothers⟩ := exists_begun (fun e => toFixed3 (e.publishDeadband.getD 0)) hbegun
  have hpaired := paired_of_begun hfloat haccepted hnodup hothers (fun _ _ _ _ _ => rfl) hne hrows
  -- Two readings, 0 and then any value: whether the second is told shows the deadband.
  have hbeyond : ∀ value : ℚ, e.publishDeadband.getD 0 < |value| ↔
      toFixed3 (e.publishDeadband.getD 0) < |value| := by
    intro value
    have hok : ∀ event ∈ [Event.call (glimpse (wireId js e.name e.key) 0 0),
        Event.call (glimpse (wireId js e.name e.key) 100 value)],
        event.Fits input ∧ event.Covered arduino input := by
      have hread : ∀ now value, (Event.call (glimpse (wireId js e.name e.key) now value)).Covered
          arduino input := by
        intro now value key hkey
        have hother : key ≠ wireId js e.name e.key := fun heq => hkey (heq ▸ hfed)
        simp [glimpse, hother]
      intro event hevent
      simp only [List.mem_cons, List.not_mem_nil, or_false] at hevent
      rcases hevent with rfl | rfl
      · exact ⟨trivial, hread 0 0⟩
      · exact ⟨trivial, hread 100 value⟩
    have hsame := (hruns _ hok).trans
      ((simulates input).answers hpaired fun event hevent => (hok event hevent).2).symm
    rw [answers_glimpse hnodup hbegun he hnumeric hfed hchange hlong value,
      answers_glimpse hnodup hothers he hnumeric hfed hchange hlong value] at hsame
    by_cases hleft : e.publishDeadband.getD 0 < |value|
    · by_cases hright : toFixed3 (e.publishDeadband.getD 0) < |value|
      · exact iff_of_true hleft hright
      · simp [hleft, hright] at hsame
    · by_cases hright : toFixed3 (e.publishDeadband.getD 0) < |value|
      · simp [hleft, hright] at hsame
      · exact iff_of_false hleft hright
  -- Each deadband is tried as the value of the other.
  have hle : toFixed3 (e.publishDeadband.getD 0) ≤ e.publishDeadband.getD 0 := by
    by_contra hlt
    have hat := (hbeyond (toFixed3 (e.publishDeadband.getD 0))).mp
    rw [abs_of_nonneg (toFixed3_nonneg hnonneg)] at hat
    exact lt_irrefl _ (hat (not_le.mp hlt))
  have hge : e.publishDeadband.getD 0 ≤ toFixed3 (e.publishDeadband.getD 0) := by
    by_contra hlt
    have hat := (hbeyond (e.publishDeadband.getD 0)).mpr
    rw [abs_of_nonneg hnonneg] at hat
    exact lt_irrefl _ (hat (not_le.mp hlt))
  exact le_antisymm hle hge

/-- Firmware and sketch publish alike, over the messages the sketch has room for and the readings of
what is wired, exactly when the table can say the template. -/
theorem alike_iff (js : Js) (hfloat : ∀ q, board.asFloat q = q) (arduino : ArduinoJson)
    (format : ℚ → String) (haccepted : ∀ e ∈ input.metrics, Health.accepted e = true)
    (hload : loadConfig board (buildFirmwareConfig js input) = .ok cfg)
    (hsetup : setup board cfg = .ok io) :
    Alike js board arduino format input io (fun event =>
        event.Fits input ∧ event.Covered arduino input) ↔
      InStep js input := by
  constructor
  · intro halike
    have hcompiles := (metricsTable_isSome board haccepted).mp (halike.imp fun _ h => h.1)
    exact ⟨fun e he => (hcompiles e he).1, fun e he => (hcompiles e he).2,
      fun e he => deadband_of_alike hfloat haccepted hload hsetup halike he⟩
  · intro h
    obtain ⟨rows, hrows, hruns⟩ := alike_of_inStep hfloat haccepted hload hsetup h
    exact ⟨rows, hrows, fun events hevents => hruns events fun event he => (hevents event he).2⟩

end

/-! ## One metric, and a message about twelve -/

/-- A board with one probe. -/
def house : DeviceConfigInput where
  tenantSlug := "acme"
  deviceSlug := "house"
  metrics := [probe "t1" 5]
  actuators := []
  wiring :=
    { board := "esp32-devkit-30"
      inputs :=
        [{ driver := "analog_in", pins := [("pin", 32)], channels := [("value", "t1")] }] }
  model := devkit

mutual

/-- The members and elements of a document. -/
def slots : Json ℚ → Nat
  | .arr items => slotsOfItems items
  | .obj members => slotsOfMembers members
  | _ => 0

def slotsOfItems : List (Json ℚ) → Nat
  | [] => 0
  | item :: rest => 1 + slots item + slotsOfItems rest

def slotsOfMembers : List (String × Json ℚ) → Nat
  | [] => 0
  | member :: rest => 1 + slotsOfMember member + slotsOfMembers rest

def slotsOfMember : String × Json ℚ → Nat
  | (_, value) => slots value

end

mutual

/-- Its keys and texts. -/
def texts : Json ℚ → List String
  | .str s => [s]
  | .arr items => textsOfItems items
  | .obj members => textsOfMembers members
  | _ => []

def textsOfItems : List (Json ℚ) → List String
  | [] => []
  | item :: rest => texts item ++ textsOfItems rest

def textsOfMembers : List (String × Json ℚ) → List String
  | [] => []
  | member :: rest => textsOfMember member ++ textsOfMembers rest

def textsOfMember : String × Json ℚ → List String
  | (key, value) => key :: texts value

end

/-- The bytes of a document: sixteen for each member or element, and each text once, with the zero
at its end. -/
def documentBytes (doc : Json ℚ) : Nat :=
  16 * slots doc + ((texts doc).dedup.map fun text => text.utf8ByteSize + 1).sum

/-- An edit: eleven more probes, and all of them every nine seconds. -/
def edit : Payload :=
  configPayload (fun _ => "0.0")
    (probes 9 ["t1", "t2", "t3", "t4", "t5", "t6", "t7", "t8", "t9", "t10", "t11", "t12"])
    1760000000

/-- ArduinoJson, of that message. -/
def staticJson : ArduinoJson where
  deserialize text := if text = edit.text then some edit.document else none
  memory text := if text = edit.text then documentBytes edit.document else 0

theorem exactBoard_exact (q : ℚ) : exactBoard.asFloat q = q := rfl

theorem accepted_house : ∀ e ∈ house.metrics, Health.accepted e = true := by decide

theorem alike_iff_house : ∃ cfg io,
    loadConfig exactBoard (buildFirmwareConfig Health.keyedJs house) = .ok cfg ∧
      setup exactBoard cfg = .ok io ∧
        (Alike Health.keyedJs exactBoard staticJson (fun _ => "20.000") house io (fun event =>
            event.Fits house ∧ event.Covered staticJson house) ↔
          InStep Health.keyedJs house) :=
  ⟨_, _, rfl, rfl, alike_iff Health.keyedJs exactBoard_exact staticJson (fun _ => "20.000")
    accepted_house rfl rfl⟩

/-- The probe is read, the edit arrives, and seven seconds later the probe is read again. -/
def afternoon : List Event :=
  [.call (glimpse "t1" 0 20), .message edit.text, .call (glimpse "t1" 7000 20)]

/-- The topic and payload of the probe's 20 degrees. -/
def twentyDegrees : Message := ⟨"acme/house/t1", "\x7b\"value\": 20.000\x7d"⟩

/-- The sketch keeps to its five seconds … -/
theorem sketch_afternoon : ∃ rows,
    metricsTable Health.keyedJs exactBoard (sketchInfo house) = some rows ∧
      answers (watched (numericTopics Health.keyedJs house)
        (sketchStep exactBoard staticJson fun _ => "20.000")) rows afternoon =
          [[twentyDegrees], [], [twentyDegrees]] :=
  ⟨_, rfl, by decide +kernel⟩

/-- … and the firmware waits nine of them: the edit fits the buffer, and not the document. -/
theorem edit_moves_one_board : ∃ cfg io,
    loadConfig exactBoard (buildFirmwareConfig Health.keyedJs house) = .ok cfg ∧
      setup exactBoard cfg = .ok io ∧
        (∀ e ∈ house.metrics, Health.accepted e = true) ∧
          ¬Alike Health.keyedJs exactBoard staticJson (fun _ => "20.000") house io
            (Event.Fits house) := by
  refine ⟨_, _, rfl, rfl, accepted_house, ?_⟩
  rintro ⟨rows, hrows, hruns⟩
  have hfits : ∀ event ∈ afternoon, event.Fits house := by
    intro event hevent
    simp only [afternoon, List.mem_cons, List.not_mem_nil, or_false] at hevent
    rcases hevent with rfl | rfl | rfl
    · trivial
    · show Mqtt.publishBytes "acme/house/config" edit.text ≤ bufferSize
      decide +kernel
    · trivial
  have hsame := hruns afternoon hfits
  obtain ⟨rows', hrows', hsketch⟩ := sketch_afternoon
  obtain rfl : rows = rows' := Option.some.inj (hrows.symm.trans hrows')
  rw [hsketch] at hsame
  exact absurd hsame (by decide +kernel)

end IotSaas.Firmware
