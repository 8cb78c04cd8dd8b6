import IotSaas.Worker.Ingest
import IotSaas.Worker.OutOfBand
import IotSaas.Worker.StreamWriter

/-!
# `Worker/HandleMessage.lean` — `handle_message`, all of it

The three kinds of message a device sends, from the topic to what they leave behind: the rule
states, the telemetry stream, the device's last known connectivity. `Ingest.lean` has the telemetry
branch as the rules see it; here are the acknowledgement and status branches as well, and the
`XADD` behind the evaluation.

Database, Redis and broker answer. What can still raise is a value they or `datetime` cannot hold:
a timestamp outside the years 1 to 9999, a status number outside a 32-bit column, a NUL in a text
that goes to PostgreSQL. `Acceptable` rules these out, message by message, and
`handle_isSome_iff` says that nothing else raises.
-/

set_option autoImplicit false

namespace IotSaas.Worker

open Lib Rules Ingestion OutOfBand

variable {F : Type}

/-- `StatusPayload`, without its informational timestamp. -/
structure StatusPayload where
  online : Bool
  rssi : Option Int := none
  batteryPct : Option Int := none
  uptimeS : Option Int := none
  fwVersion : Option String := none
  deriving DecidableEq

/-- What lies outside the worker: pydantic's decoders (`none` is a `ValidationError`), the answers
of the database, and how `str()` prints what goes into the stream. -/
structure Environment (F : Type) where
  telemetry : List UInt8 → Option (TelemetryPayload F)
  status : List UInt8 → Option StatusPayload
  ack : List UInt8 → Option Uuid
  /-- `lookup_device_by_slug`, through the directory cache. -/
  directory : String → String → Option DeviceDirectoryRecord
  /-- `lookup_rule_dispatch_targets`. -/
  targets : Uuid → Option DispatchTarget
  digest : Option (Node F) → Option (Node F) → String
  showFloat : F → String
  showTimestamp : Datetime → String

/-- One MQTT message and when it is handled. -/
structure Delivery where
  arrival : Datetime
  topic : String
  payload : List UInt8

structure IngestState (F : Type) where
  worker : Rules.Worker F := {}
  stream : List StreamWriter.Fields := []
  deviceOnlineTracks : Dict Uuid Bool := .empty

/-- The kinds of topic, in the order they are tried. -/
inductive Kind where
  | ack (topic : ParsedAckTopic)
  | status (topic : ParsedTopic)
  | telemetry (topic : ParsedTopic)
  | unparseable
  deriving DecidableEq

def kindOf (topic : String) : Kind :=
  match parseAckTopic topic with
  | some ackTopic => .ack ackTopic
  | none =>
      match parseTopic topic with
      | none => .unparseable
      | some parsed =>
          if parsed.metric = reservedMetricStatus then .status parsed else .telemetry parsed

/-! ## What PostgreSQL holds -/

/-- A `text` value has no NUL. -/
def isText (s : String) : Bool := s.toList.all fun c => c ≠ Char.ofNat 0

/-- An `integer` value has 32 bits. -/
def isInteger (i : Int) : Bool := decide (-2147483648 ≤ i) && decide (i < 2147483648)

/-- `resolve_device_for_topic`; the outer `none` is a raise. -/
def resolveDeviceForTopic (env : Environment F) (tenantSlug deviceSlug : String) :
    Option (Option DeviceDirectoryRecord) :=
  if isText tenantSlug && isText deviceSlug then some (env.directory tenantSlug deviceSlug)
  else none

/-- `record_status_snapshot`: the columns of the update. -/
def StatusPayload.storable (data : StatusPayload) : Bool :=
  (data.rssi.all isInteger && data.batteryPct.all isInteger) && data.uptimeS.all isInteger &&
    data.fwVersion.all isText

/-! ## The branches -/

/-- `_handle_ack`; it writes to `commands` and publishes an event. -/
def handleAck (env : Environment F) (topic : ParsedAckTopic) (payload : List UInt8)
    (s : IngestState F) : Option (IngestState F) :=
  match env.ack payload with
  | none => some s
  | some _ => (resolveDeviceForTopic env topic.tenantSlug topic.deviceSlug).map fun _ => s

/-- `note_device_status`: the connectivity recorded, and whether it is a flip. -/
def noteDeviceStatus (deviceId : Uuid) (online : Bool) (s : IngestState F) :
    Bool × IngestState F :=
  let prev := s.deviceOnlineTracks.get deviceId
  (decide (prev = some !online),
    { s with deviceOnlineTracks := s.deviceOnlineTracks.set deviceId online })

/-- The `transition` of a trigger, as connectivity. -/
def matchesTransition (transition : Transition) (online : Bool) : Bool :=
  match transition with
  | .connected => online
  | .disconnected => !online

/-- A rule of the tenant that watches for this transition. -/
def watches (rule : Rule F) (tenantId : Uuid) (online : Bool) : Bool :=
  decide (rule.tenantId = tenantId) &&
    match rule.trigger with
    | .deviceStatus _ transition => matchesTransition transition online
    | _ => false

variable [PyFloat F]

/-- `run_device_status_rules`, over the rules under the device: those that watch for the
transition run, one after another. -/
def runDeviceStatusRules (env : Environment F) (now : Datetime) (tenantId deviceId : Uuid)
    (online : Bool) : List (Rule F) → Rules.Worker F → Rules.Worker F
  | [], worker => worker
  | rule :: rest, worker =>
      let worker :=
        if watches rule tenantId online then
          (runRuleOutOfBand env.digest (fun id => .row (env.targets id)) tenantId rule.id
            .deviceStatus (some deviceId) now worker).worker
        else worker
      runDeviceStatusRules env now tenantId deviceId online rest worker

/-- `_handle_status`. -/
def handleStatus (env : Environment F) (now : Datetime) (topic : ParsedTopic)
    (payload : List UInt8) (s : IngestState F) : Option (IngestState F) :=
  match env.status payload with
  | none => some s
  | some data =>
      match resolveDeviceForTopic env topic.tenantSlug topic.deviceSlug with
      | none => none
      | some none => some s
      | some (some device) =>
          -- the snapshot is written before anything else
          if data.storable then
            let noted := noteDeviceStatus device.deviceId data.online s
            if noted.1 then
              let rules := noted.2.worker.caches.deviceStatusRules.getD device.deviceId []
              some { noted.2 with
                worker := runDeviceStatusRules env now device.tenantId device.deviceId data.online
                  rules noted.2.worker }
            else some noted.2
          else none

/-- `record_telemetry_direct`: the stream entry. -/
def streamEntry (env : Environment F) (device : DeviceDirectoryRecord) (metric : String)
    (value : F) (timestamp : Datetime) : StreamWriter.Fields :=
  ((((Dict.empty.set "tenant_id" device.tenantId).set "device_id" device.deviceId).set "metric"
    metric).set "value" (env.showFloat value)).set "timestamp" (env.showTimestamp timestamp)

/-- The telemetry branch. -/
def handleTelemetry (env : Environment F) (now : Datetime) (topic : ParsedTopic)
    (payload : List UInt8) (s : IngestState F) : Option (IngestState F) :=
  match env.telemetry payload with
  | none => some s
  | some data =>
      match resolveDeviceForTopic env topic.tenantSlug topic.deviceSlug with
      | none => none
      | some none => some s
      | some (some device) =>
          if device.status = .active then
            match readingTime data now with
            | none => none
            | some timestamp =>
                some { s with
                  worker := (evaluateAndDispatch env.digest ⟨device.deviceId, topic.metric⟩
                    data.value timestamp s.worker).2
                  stream := s.stream ++
                    [streamEntry env device topic.metric data.value timestamp] }
          else some s

namespace Delivery

/-- `handle_message`; `none` when it raises. -/
def handle (env : Environment F) (message : Delivery) (s : IngestState F) :
    Option (IngestState F) :=
  match kindOf message.topic with
  | .ack topic => handleAck env topic message.payload s
  | .unparseable => some s
  | .status topic => handleStatus env message.arrival topic message.payload s
  | .telemetry topic => handleTelemetry env message.arrival topic message.payload s

/-- `mqtt_ingest_loop` over one connection: `none` when a message raised and the loop is gone. -/
def handleAll (env : Environment F) : List Delivery → IngestState F → Option (IngestState F)
  | [], s => some s
  | message :: rest, s =>
      match message.handle env s with
      | none => none
      | some s' => handleAll env rest s'

/-! ## What raises -/

/-- Everything the message makes the worker hand to PostgreSQL or to `datetime` fits. -/
def Acceptable (env : Environment F) (message : Delivery) : Prop :=
  match kindOf message.topic with
  | .unparseable => True
  | .ack topic =>
      (env.ack message.payload).isSome → isText topic.tenantSlug ∧ isText topic.deviceSlug
  | .status topic =>
      ∀ data, env.status message.payload = some data →
        (isText topic.tenantSlug ∧ isText topic.deviceSlug) ∧
          ((env.directory topic.tenantSlug topic.deviceSlug).isSome → data.storable)
  | .telemetry topic =>
      ∀ data, env.telemetry message.payload = some data →
        (isText topic.tenantSlug ∧ isText topic.deviceSlug) ∧
          ∀ device, env.directory topic.tenantSlug topic.deviceSlug = some device →
            device.status = .active → (readingTime data message.arrival).isSome

variable {env : Environment F} {tenantSlug deviceSlug : String}

omit [PyFloat F] in
theorem resolve_isSome :
    (resolveDeviceForTopic env tenantSlug deviceSlug).isSome ↔
      isText tenantSlug ∧ isText deviceSlug := by
  unfold resolveDeviceForTopic
  rw [← Bool.and_eq_true]
  split
  · rename_i h
    simp [h]
  · rename_i h
    simp [h]

omit [PyFloat F] in
theorem resolve_eq (h : isText tenantSlug ∧ isText deviceSlug) :
    resolveDeviceForTopic env tenantSlug deviceSlug =
      some (env.directory tenantSlug deviceSlug) := by
  rw [resolveDeviceForTopic, if_pos (by rw [h.1, h.2]; rfl)]

omit [PyFloat F] in
theorem resolve_none (h : ¬ (isText tenantSlug ∧ isText deviceSlug)) :
    resolveDeviceForTopic env tenantSlug deviceSlug = none := by
  rw [resolveDeviceForTopic, if_neg (by rwa [Bool.and_eq_true])]

theorem handleStatus_isSome (env : Environment F) (now : Datetime) (topic : ParsedTopic)
    (payload : List UInt8) (s : IngestState F) :
    (handleStatus env now topic payload s).isSome ↔
      ∀ data, env.status payload = some data →
        (isText topic.tenantSlug ∧ isText topic.deviceSlug) ∧
          ((env.directory topic.tenantSlug topic.deviceSlug).isSome → data.storable) := by
  unfold handleStatus
  cases hdata : env.status payload with
  | none => simp
  | some data =>
    by_cases htext : isText topic.tenantSlug ∧ isText topic.deviceSlug
    · rw [resolve_eq htext]
      cases hdev : env.directory topic.tenantSlug topic.deviceSlug with
      | none => simp [htext]
      | some device =>
        by_cases hst : data.storable = true
        · simp only [hst, if_true]
          split <;> simp [htext, hst]
        · simp [hst]
    · rw [resolve_none htext]
      simp only [Option.isSome_none, Bool.false_eq_true, Option.some.injEq, false_iff]
      intro h
      exact htext (h data rfl).1

theorem handleTelemetry_isSome (env : Environment F) (now : Datetime) (topic : ParsedTopic)
    (payload : List UInt8) (s : IngestState F) :
    (handleTelemetry env now topic payload s).isSome ↔
      ∀ data, env.telemetry payload = some data →
        (isText topic.tenantSlug ∧ isText topic.deviceSlug) ∧
          ∀ device, env.directory topic.tenantSlug topic.deviceSlug = some device →
            device.status = .active → (readingTime data now).isSome := by
  unfold handleTelemetry
  cases hdata : env.telemetry payload with
  | none => simp
  | some data =>
    by_cases htext : isText topic.tenantSlug ∧ isText topic.deviceSlug
    · rw [resolve_eq htext]
      cases hdev : env.directory topic.tenantSlug topic.deviceSlug with
      | none => simp [htext]
      | some device =>
        by_cases hactive : device.status = .active
        · cases htime : readingTime data now with
          | none => simp [hactive, htime]
          | some timestamp => simp [hactive, htime, htext]
        · simp [hactive, htext]
    · rw [resolve_none htext]
      simp only [Option.isSome_none, Bool.false_eq_true, Option.some.injEq, false_iff]
      intro h
      exact htext (h data rfl).1

/-- **Nothing else raises.** -/
theorem handle_isSome_iff (env : Environment F) (message : Delivery) (s : IngestState F) :
    (message.handle env s).isSome ↔ message.Acceptable env := by
  unfold handle Acceptable
  cases kindOf message.topic with
  | unparseable => simp
  | ack topic =>
    dsimp only
    unfold handleAck
    cases hack : env.ack message.payload with
    | none => simp
    | some commandId =>
      rw [Option.isSome_map, resolve_isSome]
      simp
  | status topic => exact handleStatus_isSome env message.arrival topic message.payload s
  | telemetry topic => exact handleTelemetry_isSome env message.arrival topic message.payload s

/-! ## What is left alone -/

/-- Telemetry that is valid, of a device that is there and active. -/
def IsTelemetry (env : Environment F) (message : Delivery) : Prop :=
  ∃ topic data device, kindOf message.topic = .telemetry topic ∧
    env.telemetry message.payload = some data ∧
    env.directory topic.tenantSlug topic.deviceSlug = some device ∧ device.status = .active

/-- A status message of `device` that reports the opposite of the connectivity on record. -/
def IsFlip (env : Environment F) (message : Delivery) (s : IngestState F)
    (device : DeviceDirectoryRecord) (online : Bool) : Prop :=
  ∃ topic data, kindOf message.topic = .status topic ∧
    env.status message.payload = some data ∧ data.online = online ∧
    env.directory topic.tenantSlug topic.deviceSlug = some device ∧
    s.deviceOnlineTracks.get device.deviceId = some !online

/-- The message is a flip, and runs the rule `id`. -/
def Runs (env : Environment F) (message : Delivery) (s : IngestState F) (id : Uuid) : Prop :=
  ∃ device online, message.IsFlip env s device online ∧
    ∃ rule ∈ s.worker.caches.deviceStatusRules.getD device.deviceId [],
      watches rule device.tenantId online ∧
      (s.worker.caches.rulesById.get rule.id).map (·.id) = some id

omit [PyFloat F] in
theorem resolve_some {device : DeviceDirectoryRecord}
    (h : resolveDeviceForTopic env tenantSlug deviceSlug = some (some device)) :
    env.directory tenantSlug deviceSlug = some device := by
  obtain ⟨-, h⟩ := Option.ite_none_right_eq_some.mp h
  exact Option.some.inj h

/-- A run started by an event keeps the readings and the rules, and moves no state but that of
the rule it found. -/
theorem runRuleOutOfBand_frame (digest : Option (Node F) → Option (Node F) → String)
    (lookup : Uuid → Lookup) (tenantId ruleId deviceId : Uuid) (now : Datetime)
    (worker : Rules.Worker F) :
    let after := (runRuleOutOfBand digest lookup tenantId ruleId .deviceStatus (some deviceId) now
      worker).worker
    after.signalValueCache = worker.signalValueCache ∧
    after.caches.rulesById = worker.caches.rulesById ∧
    ∀ id, (worker.caches.rulesById.get ruleId).map (·.id) ≠ some id →
      after.ruleStates.get id = worker.ruleStates.get id := by
  intro after
  have hafter : after = (runRuleOutOfBand digest lookup tenantId ruleId .deviceStatus
      (some deviceId) now worker).worker := rfl
  unfold runRuleOutOfBand at hafter
  cases hrule : knownRule tenantId ruleId worker with
  | none =>
    rw [hrule] at hafter
    rw [hafter]
    exact ⟨rfl, rfl, fun _ _ => rfl⟩
  | some rule =>
    rw [hrule] at hafter
    have hdecided : after = (decideEdge digest .deviceStatus rule now worker).2 := by
      rw [hafter]
      dsimp only
      split
      · rfl
      · split <;> rfl
    have hfound : worker.caches.rulesById.get ruleId = some rule := by
      unfold knownRule at hrule
      split at hrule
      · cases hrule
      · rename_i hget
        split at hrule
        · rw [hget, hrule]
        · cases hrule
    rw [hdecided]
    refine ⟨rfl, rfl, ?_⟩
    intro id hid
    have hne : id ≠ rule.id := by
      intro h
      rw [hfound, h] at hid
      exact hid rfl
    simp [decideEdge, runCached, stateFor, Dict.get_set, hne]

/-- One rule after another, `run_device_status_rules` moves no state but those of the watching
rules. -/
theorem runDeviceStatusRules_frame (env : Environment F) (now : Datetime)
    (device : DeviceDirectoryRecord) (online : Bool) (rules : List (Rule F)) :
    ∀ worker : Rules.Worker F,
      let after := runDeviceStatusRules env now device.tenantId device.deviceId online rules worker
      after.signalValueCache = worker.signalValueCache ∧
      ∀ id, (∀ rule ∈ rules, watches rule device.tenantId online →
          (worker.caches.rulesById.get rule.id).map (·.id) ≠ some id) →
        after.ruleStates.get id = worker.ruleStates.get id := by
  induction rules with
  | nil =>
    intro worker
    exact ⟨rfl, fun _ _ => rfl⟩
  | cons rule rest ih =>
    intro worker
    unfold runDeviceStatusRules
    dsimp only
    by_cases hdue : watches rule device.tenantId online = true
    · rw [if_pos hdue]
      obtain ⟨hcache, hrules, hstates⟩ := runRuleOutOfBand_frame env.digest
        (fun id => .row (env.targets id)) device.tenantId rule.id device.deviceId now worker
      obtain ⟨hcache', hstates'⟩ := ih (runRuleOutOfBand env.digest
        (fun id => .row (env.targets id)) device.tenantId rule.id .deviceStatus
        (some device.deviceId) now worker).worker
      refine ⟨hcache'.trans hcache, ?_⟩
      intro id hid
      have hrest := hstates' id (by
        intro other hother
        rw [hrules]
        exact hid other (List.mem_cons_of_mem _ hother))
      exact hrest.trans (hstates id (hid rule List.mem_cons_self hdue))
    · rw [if_neg hdue]
      obtain ⟨hcache', hstates'⟩ := ih worker
      refine ⟨hcache', ?_⟩
      intro id hid
      exact hstates' id fun other hother => hid other (List.mem_cons_of_mem _ hother)

/-- **A status message** writes no stream entry and no reading, and moves the states of the
rules it runs and no others. -/
theorem handleStatus_frame {message : Delivery} {topic : ParsedTopic} {s s' : IngestState F}
    (hkind : kindOf message.topic = .status topic)
    (h : handleStatus env message.arrival topic message.payload s = some s') :
    s'.stream = s.stream ∧ s'.worker.signalValueCache = s.worker.signalValueCache ∧
    ∀ id, ¬ message.Runs env s id → s'.worker.ruleStates.get id = s.worker.ruleStates.get id := by
  unfold handleStatus at h
  split at h
  · cases h
    exact ⟨rfl, rfl, fun _ _ => rfl⟩
  · rename_i data hdata
    split at h
    · cases h
    · cases h
      exact ⟨rfl, rfl, fun _ _ => rfl⟩
    · rename_i device hdevice
      obtain ⟨-, h⟩ := Option.ite_none_right_eq_some.mp h
      dsimp only at h
      split at h
      · -- the connectivity on record was the opposite
        rename_i hnoted
        have hflip : message.IsFlip env s device data.online :=
          ⟨topic, data, hkind, hdata, rfl, resolve_some hdevice,
            by simpa [noteDeviceStatus] using hnoted⟩
        cases h
        obtain ⟨hcache, hstates⟩ := runDeviceStatusRules_frame env message.arrival device
          data.online (s.worker.caches.deviceStatusRules.getD device.deviceId []) s.worker
        refine ⟨rfl, hcache, ?_⟩
        intro id hid
        apply hstates id
        intro rule hrule hwatches hfound
        exact hid ⟨device, data.online, hflip, rule, hrule, hwatches, hfound⟩
      · cases h
        exact ⟨rfl, rfl, fun _ _ => rfl⟩

/-- **What is no telemetry** leaves the stream, the readings and the rule states as they are, but
for the rules a flip runs. -/
theorem handle_frame {message : Delivery} {s s' : IngestState F}
    (h : message.handle env s = some s') (htelemetry : ¬ message.IsTelemetry env) :
    s'.stream = s.stream ∧ s'.worker.signalValueCache = s.worker.signalValueCache ∧
    ∀ id, ¬ message.Runs env s id → s'.worker.ruleStates.get id = s.worker.ruleStates.get id := by
  unfold handle at h
  cases hkind : kindOf message.topic with
  | unparseable =>
    rw [hkind] at h
    cases h
    exact ⟨rfl, rfl, fun _ _ => rfl⟩
  | ack topic =>
    rw [hkind] at h
    dsimp only at h
    unfold handleAck at h
    split at h
    · cases h
      exact ⟨rfl, rfl, fun _ _ => rfl⟩
    · obtain ⟨_, _, rfl⟩ := Option.map_eq_some_iff.mp h
      exact ⟨rfl, rfl, fun _ _ => rfl⟩
  | status topic =>
    rw [hkind] at h
    exact handleStatus_frame hkind h
  | telemetry topic =>
    rw [hkind] at h
    dsimp only at h
    unfold handleTelemetry at h
    split at h
    · cases h
      exact ⟨rfl, rfl, fun _ _ => rfl⟩
    · rename_i data hdata
      split at h
      · cases h
      · cases h
        exact ⟨rfl, rfl, fun _ _ => rfl⟩
      · rename_i device hdevice
        split at h
        · rename_i hactive
          exact absurd ⟨topic, data, device, hkind, hdata, resolve_some hdevice, hactive⟩
            htelemetry
        · cases h
          exact ⟨rfl, rfl, fun _ _ => rfl⟩

/-! ## The loop -/

/-- **The telemetry branch is the one the rules were studied under**: on the worker's memory,
`handle` and `handleMessage` agree. -/
theorem handle_telemetry {message : Delivery} {topic : ParsedTopic} {s s' : IngestState F}
    (hkind : kindOf message.topic = .telemetry topic) (h : message.handle env s = some s') :
    (handleMessage env.digest env.telemetry
        ⟨message.arrival, message.topic, message.payload,
          env.directory topic.tenantSlug topic.deviceSlug⟩ s.worker).map (·.2) =
      some s'.worker := by
  have hroute : parseAckTopic message.topic = none ∧ parseTopic message.topic = some topic ∧
      topic.metric ≠ reservedMetricStatus := by
    unfold kindOf at hkind
    split at hkind
    · cases hkind
    · rename_i hack
      split at hkind
      · cases hkind
      · rename_i parsed hparsed
        split at hkind
        · cases hkind
        · rename_i hmetric
          cases hkind
          exact ⟨hack, hparsed, hmetric⟩
  obtain ⟨hack, hparsed, hmetric⟩ := hroute
  unfold handle at h
  rw [hkind] at h
  dsimp only at h
  unfold handleTelemetry at h
  unfold handleMessage route
  simp only [hack, hparsed, hmetric, if_false]
  cases hdata : env.telemetry message.payload with
  | none =>
    rw [hdata] at h
    cases h
    rfl
  | some data =>
    rw [hdata] at h
    dsimp only at h ⊢
    cases hres : resolveDeviceForTopic env topic.tenantSlug topic.deviceSlug with
    | none =>
      rw [hres] at h
      cases h
    | some found =>
      rw [hres] at h
      have hdirectory : env.directory topic.tenantSlug topic.deviceSlug = found := by
        obtain ⟨-, hres⟩ := Option.ite_none_right_eq_some.mp hres
        exact Option.some.inj hres
      rw [hdirectory]
      cases found with
      | none =>
        cases h
        rfl
      | some device =>
        dsimp only at h ⊢
        by_cases hactive : device.status = .active
        · rw [if_pos hactive] at h ⊢
          dsimp only
          cases htime : readingTime data message.arrival with
          | none =>
            rw [htime] at h
            cases h
          | some timestamp =>
            rw [htime] at h
            cases h
            rfl
        · rw [if_neg hactive] at h ⊢
          cases h
          rfl

/-- **The loop goes on**: it comes through every sequence of acceptable messages. -/
theorem handleAll_isSome {messages : List Delivery} :
    ∀ s : IngestState F, (∀ message ∈ messages, message.Acceptable env) →
      (handleAll env messages s).isSome := by
  induction messages with
  | nil =>
    intro s _
    rfl
  | cons message rest ih =>
    intro s h
    have hhead := (handle_isSome_iff env message s).mpr (h message List.mem_cons_self)
    obtain ⟨s', hs'⟩ := Option.isSome_iff_exists.mp hhead
    unfold handleAll
    rw [hs']
    exact ih s' fun other hother => h other (List.mem_cons_of_mem _ hother)

/-- **Ingestion survives what fits.** A message whose values PostgreSQL and `datetime` can hold is
handled, whatever its topic and payload, and so is every sequence of them. What is not valid
telemetry of an active device leaves stream, readings and rule states alone, but for the states of
the rules that watch for the flip it is. -/
theorem ingest_survives (env : Environment F) :
    (∀ (message : Delivery) (s : IngestState F), message.Acceptable env →
      (message.handle env s).isSome) ∧
    (∀ (messages : List Delivery) (s : IngestState F),
      (∀ message ∈ messages, message.Acceptable env) → (handleAll env messages s).isSome) ∧
    ∀ (message : Delivery) (s s' : IngestState F), message.handle env s = some s' →
      ¬ message.IsTelemetry env →
        s'.stream = s.stream ∧ s'.worker.signalValueCache = s.worker.signalValueCache ∧
        ∀ id, ¬ message.Runs env s id →
          s'.worker.ruleStates.get id = s.worker.ruleStates.get id := by
  refine ⟨?_, ?_, ?_⟩
  · intro message s hacceptable
    exact (handle_isSome_iff env message s).mpr hacceptable
  · intro messages s hacceptable
    exact handleAll_isSome s hacceptable
  · intro message s s' h htelemetry
    exact handle_frame h htelemetry

/-! ## A device with a bad clock, and one that comes and goes -/

/-- One device; payload `[1]` reads 21 without a timestamp, or reports the device offline, and
payload `[2]` reads 21 in the year 10000. -/
def oneBoiler : Environment Int where
  telemetry := fun payload =>
    if payload = [1] then some ⟨21, none⟩
    else if payload = [2] then some ⟨21, some 253402300800⟩
    else none
  status := fun payload => if payload = [1] then some ⟨false, none, none, none, none⟩ else none
  ack := fun _ => none
  directory := fun tenantSlug deviceSlug =>
    if tenantSlug = "acme" ∧ deviceSlug = "boiler" then some ⟨"tenant", "device", .active⟩ else none
  targets := fun _ => some ⟨"device", "tenant", "acme", "boiler", .active⟩
  digest := fun _ _ => "digest"
  showFloat := fun value => toString value
  showTimestamp := fun timestamp => toString timestamp

/-- Watches for the boiler to go. -/
def offlineAlarm : Rule Int :=
  { id := "alarm"
    tenantId := "tenant"
    trigger := .deviceStatus "device" .disconnected
    condition := none }

/-- The boiler is on record as connected. -/
def connected : IngestState Int :=
  { worker := { caches := loadRuleCache (fun _ _ => "digest") [offlineAlarm] }
    deviceOnlineTracks := Dict.empty.set "device" true }

def warm : Delivery := ⟨0, "acme/boiler/temperature", [1]⟩
def badClock : Delivery := ⟨0, "acme/boiler/temperature", [2]⟩
def gone : Delivery := ⟨seconds 5, "acme/boiler/status", [1]⟩
def nonsense : Delivery := ⟨0, "nonsense", [2]⟩

theorem ingest_survives_oneBoiler :
    (warm.handle oneBoiler connected).isSome ∧
    (handleAll oneBoiler [warm, nonsense, gone] connected).isSome ∧
    (∀ s', nonsense.handle oneBoiler connected = some s' → s'.stream = connected.stream) := by
  obtain ⟨hreturns, hloop, hframe⟩ := ingest_survives oneBoiler
  have hwarm : warm.Acceptable oneBoiler :=
    (handle_isSome_iff oneBoiler warm connected).mp (by decide +kernel)
  have hnonsense : nonsense.Acceptable oneBoiler :=
    (handle_isSome_iff oneBoiler nonsense connected).mp (by decide +kernel)
  have hgone : gone.Acceptable oneBoiler :=
    (handle_isSome_iff oneBoiler gone connected).mp (by decide +kernel)
  refine ⟨hreturns warm connected hwarm, hloop _ connected ?_, ?_⟩
  · intro message hmessage
    simp only [List.mem_cons, List.not_mem_nil, or_false] at hmessage
    rcases hmessage with rfl | rfl | rfl
    · exact hwarm
    · exact hnonsense
    · exact hgone
  · intro s' h
    have hnone : ¬ nonsense.IsTelemetry oneBoiler := by
      rintro ⟨topic, data, device, hkind, _⟩
      have hunparseable : kindOf nonsense.topic = .unparseable := by decide +kernel
      rw [hunparseable] at hkind
      cases hkind
    exact (hframe nonsense connected s' h hnone).1

/-- **A timestamp in the year 10000 raises**, and **a status message that is a flip** changes the
state of the rule that watches for it. -/
theorem clock_stops_ingestion :
    (badClock.handle oneBoiler connected).isNone ∧
    (gone.handle oneBoiler connected).map
      (fun s' => (s'.worker.ruleStates.getD "alarm" {}).lastFiredAt) = some (some (seconds 5)) ∧
    (connected.worker.ruleStates.getD "alarm" {}).lastFiredAt = none := by
  decide +kernel

end Delivery

end IotSaas.Worker
