import IotSaas.Lib.Reach
import IotSaas.Realtime.Dumps

/-!
# `Realtime/Relay.lean` — the live feed of one socket

From `publish_event` to `onMessage`: the tenant's channel in Redis, the route of
`realtime/router.py` with its relay, and the `onmessage` of `connectRealtime`. Every suspension
point of either side is a step of its own, so a run is any interleaving of them with publishes.

The handshake's token and the reconnects of the client are left out: this is what happens from one
`accept` to the close of that socket.
-/

set_option autoImplicit false

namespace IotSaas.Realtime

open Lib JsonText

/-! ## Events -/

/-- What `publish_event` is called with. Only the value of a reading is a `float` that came from
outside: the others are whole numbers, and the time is a clock's. -/
inductive Event where
  | telemetry (deviceId metric : String) (value : PyNumber) (time : Numeral)
  | deviceHealth (deviceId : String) (online : Bool) (rssi batteryPct uptimeS : Option Numeral)
      (fwVersion : Option String)
  | commandAck (commandId deviceId : String)
  | notification (id : String)
  | ruleExecution (ruleId id : String)
  | ruleLatched (ruleId : String) (latched : Bool)
  | ruleHealth (ruleId : String) (evaluatable : Bool)

/-- An `int | None`. -/
def intOrNull : Option Numeral → Json PyNumber
  | none => .null
  | some n => .num (.finite n)

/-- A `str | None`. -/
def strOrNull : Option String → Json PyNumber
  | none => .null
  | some s => .str s

/-- The `dict` of each caller. -/
def Event.document : Event → List (String × Json PyNumber)
  | .telemetry deviceId metric value time =>
      [("type", .str "telemetry"), ("device_id", .str deviceId), ("metric", .str metric),
        ("value", .num value), ("time", .num (.finite time))]
  | .deviceHealth deviceId online rssi batteryPct uptimeS fwVersion =>
      [("type", .str "device_health"), ("device_id", .str deviceId), ("online", .bool online),
        ("rssi", intOrNull rssi), ("battery_pct", intOrNull batteryPct),
        ("uptime_s", intOrNull uptimeS), ("fw_version", strOrNull fwVersion)]
  | .commandAck commandId deviceId =>
      [("type", .str "command_ack"), ("command_id", .str commandId), ("device_id", .str deviceId)]
  | .notification id => [("type", .str "notification"), ("id", .str id)]
  | .ruleExecution ruleId id =>
      [("type", .str "rule_execution"), ("rule_id", .str ruleId), ("id", .str id)]
  | .ruleLatched ruleId latched =>
      [("type", .str "rule_latched"), ("rule_id", .str ruleId), ("latched", .bool latched)]
  | .ruleHealth ruleId evaluatable =>
      [("type", .str "rule_health"), ("rule_id", .str ruleId), ("evaluatable", .bool evaluatable)]

/-- The text `publish_event` puts on the channel. -/
def publishEvent (event : Event) : List Char := dumps (.obj event.document)

/-- The message the event is to the client, if JavaScript has one. -/
def Event.message? (event : Event) : Option (Json (List Char)) := numerals (.obj event.document)

/-- No number of the event is infinite or not a number. -/
def Event.finite : Event → Bool
  | .telemetry _ _ value _ => value.numeral?.isSome
  | _ => true

/-! ## `batch_frame`, and what `onmessage` makes of it -/

def batchFrame (events : List (List Char)) : List Char :=
  match events with
  | [event] => event
  | _ => "\x7b\"type\":\"batch\",\"events\":[".toList ++ (join [','] events ++ [']', '\x7d'])

/-- `frame[key]`: of two members of one name, `JSON.parse` keeps the later. -/
def property (key : String) : Json (List Char) → Option (Json (List Char))
  | .obj members => (members.reverse.find? fun member => member.1 == key).map Prod.snd
  | _ => none

/-- `for (const message of events)`; what cannot be iterated throws. -/
def elements : Json (List Char) → List (Json (List Char))
  | .arr items => items
  | .str s => s.toList.map fun c => .str c.toString
  | _ => []

def messages (frame : Json (List Char)) : List (Json (List Char)) :=
  match frame, property "type" frame, property "events" frame with
  -- `null` has no `type`
  | .null, _, _ => []
  | _, some (.str "batch"), some events => elements events
  | _, _, _ => [frame]

/-- What is passed to `onMessage`, in order. -/
def onmessage (data : List Char) : List (Json (List Char)) :=
  match parse data with
  | none => []
  | some frame => messages frame

/-! ## The feed -/

/-- The two ends of a socket, what is under way between them, and what was published meanwhile. -/
structure Feed where
  accepted : Bool
  subscribed : Bool
  /-- The client has seen `onopen`. -/
  opened : Bool
  closed : Bool
  /-- Published to the subscription and not collected. -/
  channel : List (List Char)
  pending : List (List Char)
  /-- Sent and not received. -/
  frames : List (List Char)
  /-- All that was passed to `onMessage`. -/
  received : List (Json (List Char))
  /-- All that was published before the client saw the socket open. -/
  before : List Event
  /-- All that was published from then until the socket closed. -/
  during : List Event

def Feed.start : Feed where
  accepted := false
  subscribed := false
  opened := false
  closed := false
  channel := []
  pending := []
  frames := []
  received := []
  before := []
  during := []

/-- Nothing is under way. -/
def Feed.Quiet (s : Feed) : Prop := s.channel = [] ∧ s.pending = [] ∧ s.frames = []

inductive Step where
  | accept
  | subscribe
  | opened
  | publish (event : Event)
  | collect
  | flush
  | receive
  | close

/-- The history takes down an event. -/
def Feed.note (s : Feed) (event : Event) : Feed :=
  if s.closed then s
  else if s.opened then { s with during := s.during ++ [event] }
  else { s with before := s.before ++ [event] }

/-- `PUBLISH`: whoever is subscribed gets the text, and nobody later. -/
def Feed.publish (s : Feed) (event : Event) : Feed :=
  if s.subscribed then { s.note event with channel := s.channel ++ [publishEvent event] }
  else s.note event

/-- One round of `collect`. -/
def Feed.collect (s : Feed) : Option Feed :=
  match s.channel with
  | [] => none
  | data :: rest => some { s with channel := rest, pending := s.pending ++ [data] }

/-- One tick of the relay. -/
def Feed.flush (s : Feed) : Feed :=
  match s.pending with
  | [] => s
  | _ => { s with pending := [], frames := s.frames ++ [batchFrame s.pending] }

/-- The next frame arrives. -/
def Feed.receive (s : Feed) : Option Feed :=
  match s.frames with
  | [] => none
  | data :: rest => some { s with frames := rest, received := s.received ++ onmessage data }

/-- The relay is cancelled with its `pending`, the subscription ends, and what is still on the wire
is not delivered any more. -/
def Feed.close (s : Feed) : Feed :=
  { s with subscribed := false, closed := true, channel := [], pending := [], frames := [] }

/-- The route subscribes after it has accepted, so the client may see `onopen` first. -/
def step (s : Feed) : Step → Option Feed
  | .accept => if s.accepted then none else some { s with accepted := true }
  | .subscribe =>
      if s.accepted && !s.subscribed && !s.closed then some { s with subscribed := true } else none
  | .opened =>
      if s.accepted && !s.opened && !s.closed then some { s with opened := true } else none
  | .publish event => some (s.publish event)
  | .collect => if s.subscribed then s.collect else none
  | .flush => if s.subscribed then some s.flush else none
  | .receive => if s.opened && !s.closed then s.receive else none
  | .close => if s.accepted && !s.closed then some s.close else none

/-- Every event since `onopen` is passed on, each once and in the order of the publishes, behind
some of those from before it. -/
def Feed.Lossless (s : Feed) : Prop :=
  ∃ early, early.Sublist s.before ∧
    s.received.map some = (early ++ s.during).map Event.message?

/-! ## A frame -/

theorem printed_publishEvent (event : Event) : Printed (publishEvent event) event.message? :=
  printed (.obj event.document)

theorem printed_events (events : List Event) :
    Printed ('[' :: (join [','] (events.map publishEvent) ++ [']']))
      ((allOf (events.map Event.message?)).map .arr) := by
  have hsep : Separates [','] := ⟨[], rfl, nofun⟩
  let part (event : Event) : List Char × Option (Json (List Char)) :=
    (publishEvent event, event.message?)
  have hpart : ∀ event ∈ events, Printed (part event).1 (part event).2 :=
    fun event _ => printed_publishEvent event
  have hparts := printed_array hsep (List.forall_mem_map.mpr hpart)
  rw [List.map_map, List.map_map] at hparts
  exact hparts

/-- The two members of a frame of several events. -/
def batchFields (events : List Event) :
    List ((List Char × String) × List Char × Option (Json (List Char))) :=
  [(("\"type\"".toList, "type"), "\"batch\"".toList, some (.str "batch")),
    (("\"events\"".toList, "events"), '[' :: (join [','] (events.map publishEvent) ++ [']']),
      (allOf (events.map Event.message?)).map .arr)]

/-- The frame of several events is an object of its own around theirs. -/
theorem printed_batch (events : List Event) :
    Printed ("\x7b\"type\":\"batch\",\"events\":[".toList ++
        (join [','] (events.map publishEvent) ++ [']', '\x7d']))
      ((allOf (events.map Event.message?)).map fun items =>
        .obj [("type", .str "batch"), ("events", .arr items)]) := by
  have hsep : Separates [','] := ⟨[], rfl, nofun⟩
  have hblanks : ∀ c ∈ ([] : List Char), isBlank c = true := nofun
  have hfields : ∀ part ∈ batchFields events, Quoted part.1.1 part.1.2 ∧
      Printed part.2.1 part.2.2 := by
    simp only [batchFields, List.forall_mem_cons]
    exact ⟨⟨dumpsText_quoted "type", printed_string "batch"⟩,
      ⟨dumpsText_quoted "events", printed_events events⟩, nofun⟩
  have hobject := printed_object hsep hblanks hfields
  have hopen : "\x7b\"type\":\"batch\",\"events\":[".toList = '\x7b' :: ['"', 't', 'y', 'p', 'e',
    '"', ':', '"', 'b', 'a', 't', 'c', 'h', '"', ',', '"', 'e', 'v', 'e', 'n', 't', 's', '"', ':',
    '['] := rfl
  rw [hopen]
  cases hitems : allOf (events.map Event.message?) with
  | none => simpa [batchFields, join, hitems, allOf] using hobject
  | some items => simpa [batchFields, join, hitems, allOf] using hobject

/-! ## What the client makes of it -/

theorem message?_isSome (event : Event) : event.message?.isSome = event.finite := by
  cases event with
  | telemetry deviceId metric value time =>
    cases value <;> rfl
  | deviceHealth deviceId online rssi batteryPct uptimeS fwVersion =>
    cases rssi <;> cases batteryPct <;> cases uptimeS <;> cases fwVersion <;> rfl
  | _ => rfl

/-- No event calls itself a batch. -/
theorem messages_of_message {event : Event} {message : Json (List Char)}
    (h : event.message? = some message) : messages message = [message] := by
  cases event with
  | telemetry deviceId metric value time =>
    cases value with
    | finite numeral =>
      cases h
      rfl
    | _ => cases h
  | deviceHealth deviceId online rssi batteryPct uptimeS fwVersion =>
    cases rssi <;> cases batteryPct <;> cases uptimeS <;> cases fwVersion <;> cases h <;> rfl
  | _ =>
    cases h
    rfl

theorem parse_publishEvent (event : Event) : parse (publishEvent event) = event.message? :=
  parse_dumps (.obj event.document)

/-- A lone event goes out in its own shape. -/
theorem onmessage_publishEvent (event : Event) :
    onmessage (publishEvent event) = event.message?.toList := by
  unfold onmessage
  rw [parse_publishEvent]
  cases hmessage : event.message? with
  | none => rfl
  | some message => exact messages_of_message hmessage

/-- **A frame delivers all of its events or none**: none, when one of them is no JSON. -/
theorem onmessage_batchFrame {events : List Event} (h : events ≠ []) :
    onmessage (batchFrame (events.map publishEvent)) =
      (allOf (events.map Event.message?)).getD [] := by
  match events with
  | [] => exact absurd rfl h
  | [event] =>
    show onmessage (publishEvent event) = _
    rw [onmessage_publishEvent]
    cases hmessage : event.message? <;> simp [allOf, hmessage]
  | event :: other :: rest =>
    have hparse := (printed_batch (event :: other :: rest)).parse
    have hframe : batchFrame ((event :: other :: rest).map publishEvent) =
      "\x7b\"type\":\"batch\",\"events\":[".toList ++
        (join [','] ((event :: other :: rest).map publishEvent) ++ [']', '\x7d']) := rfl
    unfold onmessage
    rw [hframe, hparse]
    cases allOf ((event :: other :: rest).map Event.message?) <;> rfl

end IotSaas.Realtime
