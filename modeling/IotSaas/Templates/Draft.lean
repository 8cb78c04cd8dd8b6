import IotSaas.Catalog.Templates
import IotSaas.Editor.Draft

/-!
# `Templates/Draft.lean` — a device template in its editor

`lib/template-draft.ts`: a saved entry becomes rows of text fields (`templateRows`), and the rows a
request (`draftToRequest`). A number or a scalar is shown as text on the way, so an actuator's row
also holds the values as they were saved; what its texts still say is sent with the type it had.

The wiring is left out here: it has conversions of its own. Numbers are as JavaScript holds them
once the answer is parsed, a zero and its negative being one.
-/

set_option autoImplicit false

namespace IotSaas.Templates

open Lib Catalog Editor

variable {F : Type}

/-! ## The catalog's rows -/

/-- `MetricDataType`. -/
inductive MetricDataType where
  | float | bool
  deriving DecidableEq

/-- `ActuatorValueType`. -/
inductive ActuatorValueType where
  | bool | float | string
  deriving DecidableEq

/-- `boolean | number | string`. -/
inductive Scalar (F : Type) where
  | bool (b : Bool)
  | number (x : F)
  | string (s : String)
  deriving DecidableEq

/-- `CatalogMetric`, its numbers in `N`. -/
structure CatalogMetric (N : Type) where
  name : String
  key : Option String := none
  unit : Option String := none
  dataType : MetricDataType := .float
  decimals : Option N := none
  min : Option N := none
  max : Option N := none
  publish : PublishProfile := .periodic
  publishIntervalSeconds : Option N := none
  publishDeadband : Option N := none
  deriving DecidableEq

/-- `CatalogActuator`. -/
structure CatalogActuator (F : Type) where
  name : String
  key : Option String := none
  valueType : ActuatorValueType := .bool
  allowedValues : Option (List (Scalar F)) := none
  onValue : Option (Scalar F) := none
  offValue : Option (Scalar F) := none
  deriving DecidableEq

/-- `CatalogEntryResponse`, less its wiring and what only the lists show. -/
structure CatalogEntry (F : Type) where
  name : String
  active : Bool
  runsOn : RunsOn
  metrics : List (CatalogMetric F)
  actuators : List (CatalogActuator F)

/-- What `draftToRequest` makes, less the wiring; a typed number may be none. -/
structure TemplateRequest (F : Type) where
  name : String
  active : Bool
  runsOn : RunsOn
  metrics : List (CatalogMetric (JsNumber F))
  actuators : List (CatalogActuator F)

/-! ## The draft -/

/-- `MetricDraft`; `uid()` counts. -/
structure MetricDraft where
  uid : Nat
  name : String
  key : String
  keyAuto : Bool
  origKey : Option String
  dataType : MetricDataType
  unit : Option String
  decimals : String
  min : String
  max : String
  publish : PublishProfile
  interval : String
  deadband : String
  deriving DecidableEq

/-- `saved`, of an actuator. -/
structure SavedValues (F : Type) where
  on : Option (Scalar F) := none
  off : Option (Scalar F) := none
  allowed : Option (List (Scalar F)) := none
  deriving DecidableEq

/-- `ActuatorDraft`. -/
structure ActuatorDraft (F : Type) where
  uid : Nat
  name : String
  key : String
  keyAuto : Bool
  origKey : Option String
  valueType : ActuatorValueType
  on : String
  off : String
  allowed : String
  saved : SavedValues F
  deriving DecidableEq

/-- A `TemplateDraft`, less its wiring. -/
structure TemplateRows (F : Type) where
  name : String
  enabled : Bool
  runsOn : RunsOn
  metrics : List MetricDraft
  actuators : List (ActuatorDraft F)

/-! ## From the API -/

section

variable (js : Editor.Js F)

/-- `String(v)`. -/
def Scalar.text : Scalar F → String
  | .bool true => "true"
  | .bool false => "false"
  | .number x => js.showNumber x
  | .string s => s

/-- `str(v)`, of a number. -/
def numberText (x : Option F) : String := (x.map js.showNumber).getD ""

/-- `str(v)`, of a scalar. -/
def scalarText (v : Option (Scalar F)) : String := (v.map (Scalar.text js)).getD ""

/-- A metric of `templateRows`. -/
def metricRow (duplicate : Bool) (uid : Nat) (m : CatalogMetric F) : MetricDraft :=
  { uid
    name := m.name
    key := m.key.getD ""
    keyAuto := false
    origKey := if duplicate then none else m.key
    dataType := m.dataType
    unit := m.unit
    decimals := numberText js m.decimals
    min := numberText js m.min
    max := numberText js m.max
    publish := m.publish
    interval := numberText js m.publishIntervalSeconds
    deadband := numberText js m.publishDeadband }

/-- An actuator of `templateRows`. -/
def actuatorRow (duplicate : Bool) (uid : Nat) (a : CatalogActuator F) : ActuatorDraft F :=
  { uid
    name := a.name
    key := a.key.getD ""
    keyAuto := false
    origKey := if duplicate then none else a.key
    valueType := a.valueType
    on := scalarText js a.onValue
    off := scalarText js a.offValue
    allowed := ", ".intercalate ((a.allowedValues.getD []).map (Scalar.text js))
    saved := { on := a.onValue, off := a.offValue, allowed := a.allowedValues } }

/-- Rows with uids, counted on from `seq`. -/
def numbered {A B : Type} (row : Nat → A → B) : Nat → List A → List B
  | _, [] => []
  | seq, a :: rest => row (seq + 1) a :: numbered row (seq + 1) rest

/-- `templateRows`, when `seq` uids have been given out. -/
def templateRows (seq : Nat) (e : CatalogEntry F) (duplicate : Bool) : TemplateRows F :=
  { name := if duplicate then e.name ++ " (copy)" else e.name
    enabled := if duplicate then true else e.active
    runsOn := e.runsOn
    metrics := numbered (metricRow js duplicate) seq e.metrics
    actuators := numbered (actuatorRow js duplicate) (seq + e.metrics.length) e.actuators }

/-! ## To the API -/

/-- `num`. -/
def num (s : String) : Option (JsNumber F) :=
  if jsTrim s = "" then none else some (js.parseNumber s)

/-- `scalar`. -/
def scalar (text : String) (saved : Option (Scalar F)) : Option (Scalar F) :=
  if jsTrim text = "" then none
  else
    match saved with
    | some v => if v.text js = text then some v else some (.string text)
    | none => some (.string text)

/-- `text.trim() || null`. -/
def orNull (text : String) : Option String :=
  if jsTrim text = "" then none else some (jsTrim text)

/-- `allowedText`. -/
def allowedText (allowed : String) : List String :=
  ((allowed.toList.splitOn ',').map fun piece => jsTrim (String.ofList piece)).filter fun piece =>
    piece ≠ ""

/-- `allowed`, of an actuator of `draftToRequest`. -/
def allowedOf (allowed : String) (saved : Option (List (Scalar F))) : Option (List (Scalar F)) :=
  if allowedText allowed = [] then none
  else
    match saved with
    | some values =>
        if ", ".intercalate (values.map (Scalar.text js)) =
            ", ".intercalate (allowedText allowed) then some values
        else some ((allowedText allowed).map .string)
    | none => some ((allowedText allowed).map .string)

/-- A metric of `draftToRequest`. -/
def MetricDraft.toMetric [OfNat F 0] [OfNat F 1] (m : MetricDraft) : CatalogMetric (JsNumber F) :=
  { name := jsTrim m.name
    key := orNull m.key
    unit := if m.dataType = .bool then none else m.unit
    dataType := m.dataType
    decimals := if m.dataType = .bool then some (.finite 0) else num js m.decimals
    min := if m.dataType = .bool then some (.finite 0) else num js m.min
    max := if m.dataType = .bool then some (.finite 1) else num js m.max
    publish := m.publish
    publishIntervalSeconds := if m.publish = .onChange then none else num js m.interval
    publishDeadband := if m.publish = .onChange then num js m.deadband else none }

/-- An actuator of `draftToRequest`. -/
def ActuatorDraft.toActuator (a : ActuatorDraft F) : CatalogActuator F :=
  { name := jsTrim a.name
    key := orNull a.key
    valueType := a.valueType
    allowedValues := if a.valueType = .string then allowedOf js a.allowed a.saved.allowed else none
    onValue := if a.valueType = .bool then scalar js a.on a.saved.on else none
    offValue := if a.valueType = .bool then scalar js a.off a.saved.off else none }

/-- `draftToRequest`. -/
def draftToRequest [OfNat F 0] [OfNat F 1] (d : TemplateRows F) : TemplateRequest F :=
  { name := jsTrim d.name
    active := d.enabled
    runsOn := d.runsOn
    metrics := d.metrics.map (MetricDraft.toMetric js)
    actuators := d.actuators.map (ActuatorDraft.toActuator js) }

end

end IotSaas.Templates
