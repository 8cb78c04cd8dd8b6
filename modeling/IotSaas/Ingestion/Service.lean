import IotSaas.Rules.Model

/-!
# `Ingestion/Service.lean` — topics, payloads and the time of a reading

`ingestion/service.py` up to the point where a message is known to be a reading of a device. Two
things come from outside and are parameters of a message: the answer of the device directory, and
the instant the message was handled (`datetime.now(UTC)`). Decoding a payload is pydantic's
`model_validate_json`, a parameter of the model.
-/

set_option autoImplicit false

namespace IotSaas.Ingestion

open Rules

structure ParsedTopic where
  tenantSlug : String
  deviceSlug : String
  metric : String
  deriving DecidableEq

structure ParsedAckTopic where
  tenantSlug : String
  deviceSlug : String
  actuator : String
  deriving DecidableEq

/-- `topic.split("/")`. -/
def topicParts (topic : String) : List String :=
  (topic.toList.splitOn '/').map String.ofList

/-- Three non-empty segments, or nothing. -/
def parseTopic (topic : String) : Option ParsedTopic :=
  match topicParts topic with
  | [tenantSlug, deviceSlug, metric] =>
      if [tenantSlug, deviceSlug, metric].all (· ≠ "") then some ⟨tenantSlug, deviceSlug, metric⟩
      else none
  | _ => none

/-- Four non-empty segments with `ack` third, or nothing. -/
def parseAckTopic (topic : String) : Option ParsedAckTopic :=
  match topicParts topic with
  | [tenantSlug, deviceSlug, ack, actuator] =>
      if [tenantSlug, deviceSlug, ack, actuator].all (· ≠ "") && ack = "ack" then
        some ⟨tenantSlug, deviceSlug, actuator⟩
      else none
  | _ => none

def reservedMetricStatus : String := "status"

/-- `DeviceStatus`. -/
inductive DeviceStatus where
  | active | disabled
  deriving DecidableEq

/-- `DeviceDirectoryRecord`. -/
structure DeviceDirectoryRecord where
  tenantId : Uuid
  deviceId : Uuid
  status : DeviceStatus
  deriving DecidableEq

/-- `TelemetryPayload`; the timestamp is Unix seconds. -/
structure TelemetryPayload (F : Type) where
  value : F
  timestamp : Option Int := none

/-- `datetime.fromtimestamp(ts, tz=UTC)`: years 1 to 9999, anything else raises. -/
def fromTimestamp (ts : Int) : Option Datetime :=
  if -62135596800 ≤ ts ∧ ts < 253402300800 then some (seconds ts) else none

/-- The device's own timestamp when it sent one, else the time of receipt. Zero is falsy, so it
counts as not sent. -/
def readingTime {F : Type} (payload : TelemetryPayload F) (now : Datetime) : Option Datetime :=
  match payload.timestamp with
  | none => some now
  | some ts => if ts = 0 then some now else fromTimestamp ts

/-! ## Messages -/

/-- One MQTT message as it is handled: when, and what the directory answers for its topic. -/
structure Message where
  arrival : Datetime
  topic : String
  payload : List UInt8
  resolved : Option DeviceDirectoryRecord

/-- What `handle_message` makes of a message before it acts. -/
inductive Routed (F : Type) where
  | ack (topic : ParsedAckTopic)
  | status (topic : ParsedTopic)
  | dropped
  | telemetry (topic : ParsedTopic) (device : DeviceDirectoryRecord) (data : TelemetryPayload F)

/-- The branches of `handle_message`, in their order. -/
def route {F : Type} (modelValidateJson : List UInt8 → Option (TelemetryPayload F))
    (message : Message) : Routed F :=
  -- the ack topic has four segments, so it is tried before the topic of three
  match parseAckTopic message.topic with
  | some ackTopic => .ack ackTopic
  | none =>
      match parseTopic message.topic with
      | none => .dropped
      | some parsed =>
          if parsed.metric = reservedMetricStatus then .status parsed
          else
            match modelValidateJson message.payload with
            | none => .dropped
            | some data =>
                match message.resolved with
                | none => .dropped
                | some device =>
                    if device.status = .active then .telemetry parsed device data else .dropped

end IotSaas.Ingestion
