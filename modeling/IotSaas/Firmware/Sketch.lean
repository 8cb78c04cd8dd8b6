import IotSaas.Firmware.Publish

/-!
# `Firmware/Sketch.lean` — the metrics of a generated sketch

The metrics block that `buildSketch` of `frontend/src/lib/firmware-sketch.ts` prints: a table with a
row for each metric of the template, `applyConfig` and `publishMetrics`. `parseMode`,
`defaultIntervalMs` and the 100 ms between two changes are, word for word, those of the firmware.
The readings a person writes into `readMetric` are given from outside, as is ArduinoJson. The rest
of the sketch is left out, and taken to compile.
-/

set_option autoImplicit false

namespace IotSaas.Firmware.Sketch

open Lib Catalog Editor Wiring

variable {F : Type}

/-- What `buildSketch` is told of a device's metrics. -/
structure SketchInfo where
  tenantSlug : String
  deviceSlug : String
  metrics : List TemplateMetric
  actuators : List Wiring.CatalogActuator

/-- `MetricProfile`; a `float` that is no number is `none`. -/
structure MetricProfile (F : Type) where
  key : String
  topic : String
  isBool : Bool
  mode : PublishProfile
  intervalMs : Int
  deadband : F
  lastValue : Option F := none
  lastPublishMs : Int := 0
  candidate : Option F := none
  candidateSinceMs : Int := 0

/-! ## The table -/

/-- `PLACEHOLDER_METRIC`. -/
def placeholderMetric : TemplateMetric where
  name := "temperature"
  dataType := "float"

/-- The metrics that get a row. -/
def SketchInfo.rows (info : SketchInfo) : List TemplateMetric :=
  if info.metrics ≠ [] then info.metrics
  else if info.actuators ≠ [] then []
  else [placeholderMetric]

/-- `Number(deadband).toFixed(3)`: the nearest thousandth, the larger one of two. -/
def toFixed3 (deadband : ℚ) : ℚ := (deadband * 1000 + 1 / 2).floor / 1000

/-- A character that ends a C++ literal, or means another one in it. -/
def special (c : Char) : Bool := c = '"' || c = '\\' || c = '\n' || c = '\r'

/-- A text printed between quotes as it is, where the compiler reads the same text. -/
def quoted (text : String) : Option String :=
  if text.toList.all fun c => !special c then some text else none

/-- `interval` of a row. The initializer of an `unsigned long` must not be narrowed, and `UL` makes
a number beyond 32 bits a wider one. -/
def intervalMs (m : TemplateMetric) : Option Int :=
  match m.publishIntervalSeconds.filter fun seconds => seconds ≠ 0 with
  | none => some (defaultIntervalMs m.publish)
  | some seconds => if seconds * 1000 < 2 ^ 32 then some (seconds * 1000) else none

def SketchInfo.topic (js : Js) (info : SketchInfo) (m : TemplateMetric) : String :=
  info.tenantSlug ++ "/" ++ info.deviceSlug ++ "/" ++ wireId js m.name m.key

/-- A row of the table, where it compiles to what it says. -/
def metricRow (js : Js) (board : Board F) (info : SketchInfo) (m : TemplateMetric) :
    Option (MetricProfile F) := do
  let topic ← quoted (info.topic js m)
  let ms ← intervalMs m
  some
    { key := wireId js m.name m.key
      topic
      isBool := m.dataType = "bool"
      mode := m.publish
      intervalMs := ms
      deadband := board.asFloat (toFixed3 (m.publishDeadband.getD 0)) }

/-- `metrics[]`. -/
def metricsTable (js : Js) (board : Board F) (info : SketchInfo) :
    Option (List (MetricProfile F)) :=
  info.rows.mapM (metricRow js board info)

/-! ## Profiles -/

/-- ArduinoJson: what a payload says, where it is JSON, and the bytes its document takes. -/
structure ArduinoJson where
  deserialize : String → Option (Json ℚ)
  memory : String → Nat

/-- `StaticJsonDocument<1024>`. -/
def capacity : Nat := 1024

/-- What an item of a config message makes of a row with its key. -/
def MetricProfile.follow (board : Board F) (item : Json ℚ) (r : MetricProfile F) :
    MetricProfile F :=
  let mode := parseMode (textOr "periodic" (member "publish" item))
  let interval := longOr 0 (member "interval_seconds" item)
  { r with
    mode := mode
    intervalMs := if 0 < interval then interval * 1000 % 2 ^ 32 else defaultIntervalMs mode
    deadband := floatOr board 0 (member "deadband" item) }

/-- One item, on one row. -/
def followRow (board : Board F) (r : MetricProfile F) (item : Json ℚ) : MetricProfile F :=
  if r.key = textOr "" (member "key" item) then r.follow board item else r

/-- `applyConfig`; a document without room for the payload is an error, as is a payload that is no
JSON. -/
def applyConfig (board : Board F) (arduino : ArduinoJson) (payload : String)
    (rows : List (MetricProfile F)) : List (MetricProfile F) :=
  if capacity < arduino.memory payload then rows
  else
    match arduino.deserialize payload with
    | none => rows
    | some doc =>
        (asArray (member "metrics" doc)).foldl
          (fun rows item => rows.map fun r => followRow board r item) rows

/-! ## Publications -/

/-- `BOOL_DEBOUNCE_MS`. -/
def boolDebounceMs : Int := 30

section

variable [AddGroup F] [LinearOrder F]

/-- The level a switch is at, and since when. -/
def MetricProfile.debounce (now : Int) (value : F) (r : MetricProfile F) : MetricProfile F :=
  if r.isBool = true ∧ r.candidate ≠ some value then
    { r with candidate := some value, candidateSinceMs := now }
  else r

/-- A switch that still bounces. -/
def MetricProfile.bounces (now : Int) (r : MetricProfile F) : Bool :=
  r.isBool && decide (sinceLast now r.candidateSinceMs < boolDebounceMs)

def MetricProfile.changed (r : MetricProfile F) (value lastValue : F) : Bool :=
  if r.isBool then decide (value ≠ lastValue) else decide (r.deadband < |value - lastValue|)

/-- `send`, with its `reason`. -/
def MetricProfile.sendReason (r : MetricProfile F) (now : Int) (value : F) : Option String :=
  match r.lastValue with
  | none => some "initial"
  | some lastValue =>
      let since := sinceLast now r.lastPublishMs
      if r.mode = .onChange then
        if r.changed value lastValue = true ∧ onChangeMinGapMs ≤ since then some "change"
        else if r.intervalMs ≤ since then some "heartbeat"
        else none
      else if r.intervalMs ≤ since then some "periodic"
      else none

def MetricProfile.sent (now : Int) (value : F) (r : MetricProfile F) : MetricProfile F :=
  { r with lastValue := some value, lastPublishMs := now }

/-- What `publishMetrics` does about one row. -/
def publishRow (format : F → String) (round : Round F) (r : MetricProfile F) :
    Option Message × MetricProfile F :=
  match round.reading r.key with
  | none => (none, r)
  | some value =>
      let r := r.debounce round.now value
      if r.bounces round.now then (none, r)
      else
        match r.sendReason round.now value with
        | none => (none, r)
        | some _ =>
            (some ⟨r.topic, valuePayload (format value)⟩,
              if round.published r.key then r.sent round.now value else r)

/-- `publishMetrics`: what it hands to `mqttClient.publish`, in order. -/
def publishMetrics (format : F → String) (round : Round F) (rows : List (MetricProfile F)) :
    List Message × List (MetricProfile F) :=
  (rows.filterMap fun r => (publishRow format round r).1,
    rows.map fun r => (publishRow format round r).2)

end

end IotSaas.Firmware.Sketch
