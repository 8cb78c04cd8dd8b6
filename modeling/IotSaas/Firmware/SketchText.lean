import IotSaas.Catalog.Templates
import IotSaas.Firmware.Sketch
import IotSaas.Lib.CSource
import IotSaas.Lib.JsCollections
import IotSaas.Wiring.Move

/-!
# `Firmware/SketchText.lean` — what a generated sketch declares, and quotes

`buildSketch` of `frontend/src/lib/firmware-sketch.ts` prints a program. Of it this is what comes from
the template and the options into names and into string literals: the constants and functions it
declares, its own among them, and each literal with the text it was made of. `defaultPins` hands
GPIOs to the rows that have one. `provName`, from another package, is a parameter.
-/

set_option autoImplicit false

namespace IotSaas.Firmware.Sketch

open Lib Lib.CSource Catalog Editor Wiring

/-! ## Names and texts -/

/-- `toIdentifier`; a character beyond the sixteenth bit is two for JavaScript. -/
def toIdentifier (name : String) : String :=
  String.ofList (name.toList.flatMap fun c =>
    if isWordChar c then [c] else if c.toNat < 2 ^ 16 then ['_'] else ['_', '_'])

/-- `toUpperCase()`, of an identifier. -/
def toUpperCase (id : String) : String := String.ofList (id.toList.map Char.toUpper)

/-- `cText`. -/
def cText (text : String) : String :=
  String.ofList (spaceBreaks (escaped '"' (escaped '\\' text.toList)))

/-! ## What a sketch is made of -/

structure SketchCredential where
  username : String
  password : String

structure SketchWifi where
  ssid : String
  password : String

/-- `SketchInfo`, with its options. -/
structure SketchOptions extends SketchInfo where
  deviceName : String
  board : Chip := .esp32
  host : String
  tls : Bool
  credential : Option SketchCredential
  wifi : Option SketchWifi := none
  security2 : Bool := false

namespace SketchOptions

variable (js : Js) (provName : String → String) (info : SketchOptions)

/-- `phone`. -/
def phone : Bool := info.wifi.isNone

def isC3 : Bool := decide (info.board = .esp32c3)

def hasMetrics : Bool := decide (info.rows ≠ [])

/-- `CREDENTIAL_PLACEHOLDER`. -/
def credentialPlaceholder : String := "<paste your device credential here>"

def subtree : String := info.tenantSlug ++ "/" ++ info.deviceSlug

/-- `deviceName || deviceSlug`. -/
def shownName : String := if info.deviceName = "" then info.deviceSlug else info.deviceName

/-- The wire ids of the metrics that have a pin. -/
def inputIds : List String :=
  (info.rows.filter fun m => m.dataType = "bool").map fun m => wireId js m.name m.key

/-- The wire ids of the actuators that have a pin. -/
def outputIds : List String :=
  (info.actuators.filter fun a => a.valueType ≠ "string").map fun a => wireId js a.name a.key

/-- The wire ids of all actuators. -/
def actuatorIds : List String := info.actuators.map fun a => wireId js a.name a.key

/-! ## What it declares -/

/-- When a part of the sketch is printed. -/
inductive When where
  | always | phone | security2 | typed | c3 | event | metrics | tls

/-- Whether it is. -/
def prints : When → Bool
  | .always => true
  | .phone => info.phone
  | .security2 => info.phone && info.security2
  | .typed => !info.phone
  | .c3 => info.isC3
  | .event => info.phone || info.isC3
  | .metrics => info.hasMetrics
  | .tls => info.tls

/-- The names of the sketch's own, part by part. -/
def ownParts : List (When × List String) :=
  [(.always, ["FW_VERSION", "MQTT_HOST", "MQTT_PORT", "MQTT_USERNAME", "MQTT_PASSWORD",
      "TOPIC_STATUS", "TOPIC_CONFIG", "STATUS_INTERVAL_MS", "WIFI_CONNECT_TIMEOUT_MS"]),
    (.phone, ["btInUse", "PROV_NAME"]),
    (.security2, ["SEC2_SALT", "SEC2_VERIFIER", "SEC2_PARAMS"]),
    (.phone, ["RESET_PIN", "RESET_HOLD_MS"]),
    (.typed, ["WIFI_SSID", "WIFI_PASSWORD"]),
    (.c3, ["TX_POWER"]),
    (.event, ["onWifiEvent"]),
    (.phone, ["provisioningBegin", "resetDownSince", "watchProvisioningReset"]),
    (.always, ["connectWifi"]),
    (.metrics, ["MODE_PERIODIC", "MODE_ON_CHANGE", "MODE_STREAMING", "MetricProfile",
      "BOOL_DEBOUNCE_MS", "ON_CHANGE_MIN_GAP_MS", "defaultIntervalMs", "metrics", "METRIC_COUNT",
      "readMetric", "parseMode", "applyConfig", "publishMetrics"]),
    (.always, ["mqttCallback"]),
    (.tls, ["ROOT_CA"]),
    (.always, ["netClient", "mqttClient", "lastStatusMs", "publishStatus", "connectMqtt", "setup",
      "loop"])]

def ownNames : List String :=
  ownParts.flatMap fun part => if info.prints part.1 then part.2 else []

/-- `pinConst`. -/
def pinConst (id : String) : String := toUpperCase (toIdentifier id) ++ "_PIN"

/-- The constants of an actuator's topics. -/
def topicConsts (id : String) : List String :=
  ["TOPIC_CMD_", "TOPIC_STATE_", "TOPIC_ACK_"].map fun start => start ++ toIdentifier id

/-- The functions of an actuator. -/
def handlers (id : String) : List String :=
  ["setActuator_", "handleCommand_", "handleState_"].map fun start => start ++ toIdentifier id

/-- Every constant and function that the sketch declares. -/
def declared : List String :=
  info.ownNames ++ (info.inputIds js ++ info.outputIds js).map pinConst ++
    (info.actuatorIds js).flatMap topicConsts ++ (info.actuatorIds js).flatMap handlers

/-! ## What it quotes -/

/-- What stands between the quotes of a literal, and the text that was put there. -/
structure Quoted where
  printed : String
  text : String

/-- A text that `cText` made fit for a literal. -/
def Quoted.ofText (text : String) : Quoted := ⟨cText text, text⟩

/-- A text that is printed as it is. -/
def Quoted.raw (text : String) : Quoted := ⟨text, text⟩

/-- A text within a message. -/
def Quoted.within (before text after : String) : Quoted :=
  ⟨before ++ cText text ++ after, before ++ text ++ after⟩

/-- The literals that texts are put in. -/
def literals : List Quoted :=
  let username := (info.credential.map SketchCredential.username).getD credentialPlaceholder
  let password := (info.credential.map SketchCredential.password).getD credentialPlaceholder
  [.ofText info.host, .ofText username, .ofText password, .raw (info.subtree ++ "/status"),
    .raw (info.subtree ++ "/config")] ++
  (info.actuatorIds js).flatMap (fun id => [.raw (info.subtree ++ "/cmd/" ++ id),
    .raw (info.subtree ++ "/state/" ++ id), .raw (info.subtree ++ "/ack/" ++ id)]) ++
  (match info.wifi with
    | none => [.ofText (provName info.shownName)]
    | some wifi => [.ofText wifi.ssid, .ofText wifi.password]) ++
  info.rows.flatMap (fun m => [.ofText (wireId js m.name m.key),
    .raw (info.subtree ++ "/" ++ wireId js m.name m.key)]) ++
  info.actuators.flatMap fun a => [.within "[ACTUATOR] " a.name " -> ",
    .within "[CMD] " a.name ": malformed payload, dropping"]

/-- A literal denotes its text, with its line breaks made spaces. -/
def Quoted.Denotes (q : Quoted) : Prop :=
  readLiteral q.printed.toList = some (spaceBreaks q.text.toList)

/-! ## Pins -/

/-- A loop of `defaultPins`: GPIOs from a pool, and 0 when it is used up. -/
def handOut (mark : String) (pool : List Int) :
    List String → Nat → JsMap String Int → JsMap String Int
  | [], _, out => out
  | id :: rest, i, out => handOut mark pool rest (i + 1) (out.set (mark ++ id) (pool.getD i 0))

/-- `defaultPins`. -/
def defaultPins : JsMap String Int :=
  handOut "a:" (pools info.board).outputs (info.outputIds js) 0
    (handOut "m:" (pools info.board).inputs (info.inputIds js) 0 .empty)

end SketchOptions

/-! ## What is promised -/

/-- The sketch is well formed. -/
structure WellFormed (js : Js) (provName : String → String) (info : SketchOptions) : Prop where
  identifiers : ∀ name ∈ info.declared js, isIdentifier name = true
  distinct : (info.declared js).Nodup
  literals : ∀ q ∈ info.literals js provName, q.Denotes
  pins : ∀ key key' pin, (info.defaultPins js).get key = some pin →
    (info.defaultPins js).get key' = some pin → key = key'

/-- The backend has accepted the template, and slugs are slugs. -/
structure Accepted (folding : CaseFolding) (info : SketchOptions) : Prop where
  metrics : ∃ submitted, normalizeMetrics folding submitted [] =
    .ok (info.metrics.map TemplateMetric.toCatalogMetric)
  actuators : ∃ submitted, normalizeActuators folding submitted [] =
    .ok (info.actuators.map fun a => ⟨a.name, a.key⟩)
  tenantSlug : IsSlug info.tenantSlug
  deviceSlug : IsSlug info.deviceSlug

end IotSaas.Firmware.Sketch
