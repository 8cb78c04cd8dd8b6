import IotSaas.Firmware.Publish
import IotSaas.Lib.Mqtt

/-!
# `Worker/ConfigPublish.lean` — a template's profiles on their way to its boards

`_handle_config_publish` of `worker.py` writes the profiles of a template into one retained message
for each of its devices; `firmware/src/net.cpp` gives the MQTT client 1024 bytes, and
`applyProfile` follows what arrives. A `Payload` is a text beside the document it spells, since the
text decides how long the packet is and the document what the board makes of it. How Python prints
a `float` is a parameter.
-/

set_option autoImplicit false

namespace IotSaas.Worker.ConfigPublish

open Lib Catalog Wiring Firmware

/-! ## Texts -/

def hexDigit (n : Nat) : Char :=
  "0123456789abcdef".toList.getD n '0'

/-- `\uXXXX`. -/
def unicodeEscape (n : Nat) : String :=
  String.ofList
    ['\\', 'u', hexDigit (n / 4096 % 16), hexDigit (n / 256 % 16), hexDigit (n / 16 % 16),
      hexDigit (n % 16)]

/-- A character of a string of `json.dumps`, which writes ASCII only. -/
def escapeChar (c : Char) : String :=
  let n := c.toNat
  if n = 0x22 then "\\\""
  else if n = 0x5C then "\\\\"
  else if n = 0x0A then "\\n"
  else if n = 0x0D then "\\r"
  else if n = 0x09 then "\\t"
  else if n = 0x08 then "\\b"
  else if n = 0x0C then "\\f"
  else if 0x20 ≤ n ∧ n < 0x7F then String.ofList [c]
  else if n < 0x10000 then unicodeEscape n
  else unicodeEscape (0xD800 + (n - 0x10000) / 0x400) ++ unicodeEscape (0xDC00 + n % 0x400)

/-- `json.dumps` of a text. -/
def dumpsText (s : String) : String :=
  "\"" ++ String.join (s.toList.map escapeChar) ++ "\""

/-- `json.dumps` of an `int | None`. -/
def dumpsInt : Option Int → String
  | none => "null"
  | some i => toString i

/-- `json.dumps` of a `float | None`. -/
def dumpsFloat (repr : ℚ → String) : Option ℚ → String
  | none => "null"
  | some q => repr q

/-- Items of a list, between commas. -/
def joined : List String → String
  | [] => ""
  | [item] => item
  | item :: rest => item ++ ", " ++ joined rest

/-! ## The message -/

structure Payload where
  text : String
  document : Json ℚ

def publishText : PublishProfile → String
  | .periodic => "periodic"
  | .onChange => "on_change"
  | .streaming => "streaming"

def optionalNum : Option ℚ → Json ℚ
  | none => .null
  | some q => .num q

/-- An item of `metrics_payload`. -/
def itemDocument (key : String) (m : TemplateMetric) : Json ℚ :=
  .obj
    [ ("key", .str key),
      ("publish", .str (publishText m.publish)),
      ("interval_seconds", optionalNum (m.publishIntervalSeconds.map fun i => (i : ℚ))),
      ("deadband", optionalNum m.publishDeadband) ]

def itemText (repr : ℚ → String) (key : String) (m : TemplateMetric) : String :=
  "\x7b\"key\": " ++ dumpsText key ++ ", \"publish\": \"" ++ publishText m.publish ++
    "\", \"interval_seconds\": " ++ dumpsInt m.publishIntervalSeconds ++ ", \"deadband\": " ++
    dumpsFloat repr m.publishDeadband ++ "\x7d"

/-- The metrics that have a key, with it. -/
def keyed (metrics : List TemplateMetric) : List (String × TemplateMetric) :=
  metrics.filterMap fun m =>
    match m.key with
    | none => none
    | some key => if key = "" then none else some (key, m)

/-- `payload`. -/
def configPayload (repr : ℚ → String) (metrics : List TemplateMetric) (issuedAt : Int) : Payload where
  text :=
    "\x7b\"metrics\": [" ++ joined ((keyed metrics).map fun item => itemText repr item.1 item.2) ++
      "], \"issued_at\": " ++ toString issuedAt ++ "\x7d"
  document :=
    .obj
      [ ("metrics", .arr ((keyed metrics).map fun item => itemDocument item.1 item.2)),
        ("issued_at", .num issuedAt) ]

/-- A row of `list_devices_for_catalog_entry`. -/
structure DeviceRow where
  tenantSlug : String
  deviceSlug : String
  metrics : List TemplateMetric

def DeviceRow.configTopic (row : DeviceRow) : String :=
  row.tenantSlug ++ "/" ++ row.deviceSlug ++ "/config"

/-- `_handle_config_publish`, from the rows on: the retained messages, one for each of them. -/
def handleConfigPublish (repr : ℚ → String) (devices : List DeviceRow) (issuedAt : Int) :
    List (String × Payload) :=
  match devices with
  | [] => []
  | first :: _ => devices.map fun row => (row.configTopic, configPayload repr first.metrics issuedAt)

/-! ## The board -/

variable {F : Type}

/-- `mqtt.setBufferSize`. -/
def bufferSize : Nat := 1024

/-- A retained message reaches a board: a packet beyond the buffer is dropped. -/
def receive (board : Board F) (message : String × Payload) (metrics : List (Reporting F)) :
    List (Reporting F) :=
  if Mqtt.publishBytes message.1 message.2.text ≤ bufferSize then
    applyProfile board message.2.document metrics
  else metrics

end IotSaas.Worker.ConfigPublish
