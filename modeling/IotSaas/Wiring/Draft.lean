import IotSaas.Lib.Record
import IotSaas.Wiring.Drivers

/-!
# `Wiring/Draft.lean` — wiring in the editor, and the config made of it

`lib/hardware/hardware-draft.ts` and `lib/hardware/device-config.ts`: the draft a person wires a
board in, the request it becomes (`hardwareToRequest`) and the config that is written to the board
(`buildFirmwareConfig`). In the draft a channel points at a row by the row's `uid`; a saved key that
no row has any more stays as `key:<key>`.

Of the config this is what drivers, pins and keys come from; broker, credential and phone setup are
left out, and so are the draft's element ids. JavaScript's conversions are parameters (`Js`).
-/

set_option autoImplicit false

namespace IotSaas.Wiring

open Lib Catalog Editor

/-- `Number(text)`, `parseInt(text, 10)`, `String(number)` and `toLowerCase()`. -/
structure Js where
  number : String → JsNumber ℚ
  parseInt : String → JsNumber ℤ
  showNumber : JsNumber ℚ → String
  toLowerCase : String → String

/-! ## The draft -/

/-- `BindingDraft`: a channel's text is the `uid` of a row, `key:<key>`, or empty. -/
structure BindingDraft where
  driver : String
  pins : Record (Option Int) := {}
  params : Record Param := {}
  channels : Record String := {}

/-- `HardwareDraft`. -/
structure HardwareDraft where
  board : String
  i2c : Option I2cBus := none
  inputs : List BindingDraft := []
  outputs : List BindingDraft := []

/-- `h[kind]`. -/
def HardwareDraft.bindings (h : HardwareDraft) : Kind → List BindingDraft
  | .input => h.inputs
  | .output => h.outputs

/-- `ref.startsWith(MISSING)`. -/
def isMissing (ref : String) : Bool := "key:".toList.isPrefixOf ref.toList

/-- `KeyedRow`. -/
structure KeyedRow where
  uid : String
  key : String
  name : String
  type : String
  /-- `uid()` makes "r1", "r2", …; elsewhere a row's uid is its wire id, which has no colon. -/
  present : isMissing uid = false := by decide

structure Rows where
  metrics : List KeyedRow
  actuators : List KeyedRow

/-- A metric's row in the template editor, with how the metric is published. -/
structure MetricRow extends KeyedRow where
  publish : PublishProfile := .periodic
  interval : Option Int := none
  deadband : Option ℚ := none

/-- The rows of a template, as they are typed. -/
structure Template where
  metrics : List MetricRow
  actuators : List KeyedRow

def KeyedRow.trimmed (row : KeyedRow) : KeyedRow :=
  { row with key := jsTrim row.key, name := jsTrim row.name }

/-- `keyedRows`: the rows wiring can point at. -/
def Template.rows (t : Template) : Rows :=
  { metrics := t.metrics.map fun row => row.toKeyedRow.trimmed
    actuators := t.actuators.map KeyedRow.trimmed }

/-- The rows a kind of binding points at. -/
def Rows.of (rows : Rows) : Kind → List KeyedRow
  | .input => rows.metrics
  | .output => rows.actuators

/-! ## The request -/

/-- A whole number as a number. -/
def ofInt : JsNumber ℤ → JsNumber ℚ
  | .finite n => .finite n
  | .infinite => .infinite
  | .nan => .nan

/-- `paramValue`. -/
def paramValue (js : Js) (value : Param) (type : Option ParamType) : Option Param :=
  match value, type with
  | .text s, some .int =>
      if jsTrim s = "" then none else some (.number (ofInt (js.parseInt s)))
  | .text s, some .float => if jsTrim s = "" then none else some (.number (js.number s))
  | .text s, some .bool => if jsTrim s = "" then none else some (.number (js.number s))
  | value, _ => some value

/-- `keyOf`. -/
def keyOf (list : List KeyedRow) (ref : String) : String :=
  if isMissing ref then String.ofList (ref.toList.drop "key:".toList.length)
  else
    match list.find? fun r => r.uid = ref with
    | some row => jsTrim row.key
    | none => ""

/-- The key a channel leads to, if it is used. -/
def leadsTo (list : List KeyedRow) (ref : String) : String :=
  if ref = "" then "" else keyOf list ref

/-- The type of a driver's param. -/
def paramType (spec : Option DriverSpec) (key : String) : Option ParamType :=
  spec.bind fun spec => (spec.params.find? fun p => p.key = key).map DriverParamSpec.type

/-- One binding of the request. -/
def requestBinding (js : Js) (drivers : Option (List DriverSpec)) (list : List KeyedRow)
    (b : BindingDraft) : HardwareBinding (JsNumber ℚ) :=
  { driver := b.driver
    pins := b.pins.items.filterMap fun item => item.2.map (Prod.mk item.1)
    params := b.params.items.filterMap fun item =>
      (paramValue js item.2 (paramType (findDriver drivers b.driver) item.1)).map (Prod.mk item.1)
    channels := b.channels.items.filterMap fun item =>
      if leadsTo list item.2 = "" then none else some (item.1, leadsTo list item.2) }

/-- `hardwareToRequest`, of a draft that is there. -/
def requestOf (js : Js) (h : HardwareDraft) (rows : Rows) (drivers : Option (List DriverSpec)) :
    HardwareConfig (JsNumber ℚ) :=
  { board := h.board
    i2c := h.i2c
    inputs := h.inputs.map (requestBinding js drivers rows.metrics)
    outputs := h.outputs.map (requestBinding js drivers rows.actuators) }

/-- `hardwareToRequest`. -/
def hardwareToRequest (js : Js) (h : Option HardwareDraft) (rows : Rows)
    (drivers : Option (List DriverSpec)) : Option (HardwareConfig (JsNumber ℚ)) :=
  h.map fun h => requestOf js h rows drivers

/-! ## The config -/

/-- `CatalogMetric`, with its type and its deadband. -/
structure TemplateMetric extends CatalogMetric where
  dataType : String
  publishDeadband : Option ℚ := none

/-- `CatalogActuator`. -/
structure CatalogActuator where
  name : String
  key : Option String := none
  valueType : String

/-- `m.key.trim() || null`. -/
def savedKey (row : KeyedRow) : Option String :=
  if jsTrim row.key = "" then none else some (jsTrim row.key)

/-- A metric of `draftToRequest`. -/
def MetricRow.toMetric (row : MetricRow) : TemplateMetric :=
  { name := jsTrim row.name
    key := savedKey row.toKeyedRow
    publish := row.publish
    publishIntervalSeconds := if row.publish = .onChange then none else row.interval
    dataType := row.type
    publishDeadband := if row.publish = .onChange then row.deadband else none }

/-- An actuator of `draftToRequest`. -/
def KeyedRow.toActuator (row : KeyedRow) : CatalogActuator :=
  { name := jsTrim row.name, key := savedKey row, valueType := row.type }

/-- `slugify`. -/
def slugify (js : Js) (name : String) : String :=
  String.ofList (trim (· = '-') (hyphenate (js.toLowerCase (jsTrim name)).toList))

/-- `wireId`. -/
def wireId (js : Js) (name : String) (key : Option String) : String :=
  match key with
  | none => slugify js name
  | some key => if key = "" then slugify js name else key

structure FirmwareMetric where
  key : String
  bool : Bool
  publish : PublishProfile
  intervalS : Option Int
  deadband : Option ℚ

structure FirmwareActuator where
  key : String
  type : String

/-- `board_io`. -/
structure BoardIo where
  resetPin : Int
  ledType : LedType
  ledPin : Int
  ledActiveLow : Bool

/-- `FirmwareConfig`. -/
structure FirmwareConfig where
  v : Int := 1
  board : String
  tenant : String
  device : String
  i2c : Option I2cBus
  boardIo : BoardIo
  metrics : List FirmwareMetric
  actuators : List FirmwareActuator
  inputs : List (HardwareBinding (JsNumber ℚ))
  outputs : List (HardwareBinding (JsNumber ℚ))

/-- `DeviceConfigInput`. -/
structure DeviceConfigInput where
  tenantSlug : String
  deviceSlug : String
  metrics : List TemplateMetric
  actuators : List CatalogActuator
  wiring : HardwareConfig (JsNumber ℚ)
  model : BoardModel

/-- An item of `metrics`; an interval of 0 is left out. -/
def firmwareMetric (js : Js) (m : TemplateMetric) : FirmwareMetric :=
  { key := wireId js m.name m.key
    bool := m.dataType = "bool"
    publish := m.publish
    intervalS := m.publishIntervalSeconds.filter fun seconds => seconds ≠ 0
    deadband := m.publishDeadband }

def firmwareActuator (js : Js) (a : CatalogActuator) : FirmwareActuator :=
  { key := wireId js a.name a.key, type := a.valueType }

/-- `buildFirmwareConfig`. -/
def buildFirmwareConfig (js : Js) (input : DeviceConfigInput) : FirmwareConfig :=
  { board := input.model.chip.id
    tenant := input.tenantSlug
    device := input.deviceSlug
    i2c := input.wiring.i2c
    boardIo :=
      { resetPin := input.model.resetPin
        ledType := input.model.led.kind
        ledPin := input.model.led.pin
        ledActiveLow := input.model.led.activeLow }
    metrics := input.metrics.map (firmwareMetric js)
    actuators := input.actuators.map (firmwareActuator js)
    inputs := input.wiring.inputs
    outputs := input.wiring.outputs }

/-- The config of a device of this template, with its wiring on its model. -/
def deviceConfig (js : Js) (tenantSlug deviceSlug : String) (t : Template)
    (wiring : HardwareConfig (JsNumber ℚ)) (model : BoardModel) : FirmwareConfig :=
  buildFirmwareConfig js
    { tenantSlug
      deviceSlug
      metrics := t.metrics.map MetricRow.toMetric
      actuators := t.actuators.map KeyedRow.toActuator
      wiring
      model }

/-! ## What the request keeps -/

section

variable (js : Js) (drivers : Option (List DriverSpec)) (list : List KeyedRow) (b : BindingDraft)

/-- A pin that is picked is in the request. -/
theorem request_pin (role : String) :
    (requestBinding js drivers list b).pins.lookup role = (b.pins.get role).join := by
  show List.lookup role (b.pins.items.filterMap fun item => item.2.map (Prod.mk item.1)) = _
  rw [Record.lookup_filterMap (fun _ pin => pin) b.pins.nodup]
  cases hget : b.pins.items.lookup role <;> simp [Record.get, hget]

/-- A param is in the request with the type its driver gives it. -/
theorem request_param (key : String) :
    (requestBinding js drivers list b).params.lookup key =
      (b.params.get key).bind fun value =>
        paramValue js value (paramType (findDriver drivers b.driver) key) :=
  Record.lookup_filterMap
    (fun key value => paramValue js value (paramType (findDriver drivers b.driver) key))
    b.params.nodup key

/-- A channel is in the request if it leads to a key. -/
theorem request_channel (channel : String) :
    (requestBinding js drivers list b).channels.lookup channel =
      (b.channels.get channel).bind fun ref =>
        if leadsTo list ref = "" then none else some (leadsTo list ref) := by
  have hitems : (requestBinding js drivers list b).channels =
      b.channels.items.filterMap fun item =>
        (if leadsTo list item.2 = "" then none else some (leadsTo list item.2)).map
          (Prod.mk item.1) := by
    unfold requestBinding
    dsimp only
    congr
    funext item
    split <;> rfl
  rw [hitems, Record.lookup_filterMap
    (fun _ ref => if leadsTo list ref = "" then none else some (leadsTo list ref)) b.channels.nodup]
  rfl

theorem mem_request_channels {channel key : String} :
    (channel, key) ∈ (requestBinding js drivers list b).channels ↔
      key ≠ "" ∧ ∃ ref, (channel, ref) ∈ b.channels.items ∧ leadsTo list ref = key := by
  simp only [requestBinding, List.mem_filterMap]
  constructor
  · rintro ⟨⟨ch, ref⟩, hmem, hitem⟩
    dsimp only at hitem
    split at hitem
    · cases hitem
    · rename_i hne
      cases hitem
      exact ⟨hne, ref, hmem, rfl⟩
  · rintro ⟨hne, ref, hmem, rfl⟩
    exact ⟨(channel, ref), hmem, by simp [hne]⟩

end

end IotSaas.Wiring
