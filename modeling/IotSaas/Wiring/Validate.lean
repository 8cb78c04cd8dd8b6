import IotSaas.Lib.Dict
import IotSaas.Lib.Report
import IotSaas.Wiring.Draft

/-!
# `Wiring/Validate.lean` — what the editor checks

`validateHardware` of `lib/hardware/hardware-draft.ts`: one pass over the draft that reports errors,
which block the save, and warnings, by field path. Without the firmware's catalog only the mapping
of channels to rows is checked.

`Checked` says what a draft without errors has; `checked_of_clean` reads it off the pass, loop by
loop.
-/

set_option autoImplicit false

namespace IotSaas.Wiring

open Lib Catalog Editor

/-! ## Pins and the bus -/

/-- "inputs", "outputs". -/
def Kind.list : Kind → String
  | .input => "inputs"
  | .output => "outputs"

def Kind.word : Kind → String
  | .input => "input"
  | .output => "output"

/-- "input 1": a binding as messages name it. -/
def Kind.nth (kind : Kind) (i : Nat) : String := kind.word ++ " " ++ (i + 1).repr

/-- The path of a binding's fields. -/
def bindingPath (kind : Kind) (i : Nat) : String :=
  "hardware." ++ kind.list ++ "." ++ i.repr ++ "."

structure UsedPin where
  pin : Int
  path : String
  owner : String

/-- The pins a binding holds. -/
def pinsOf (kind : Kind) (item : BindingDraft × Nat) : List UsedPin :=
  item.1.pins.items.filterMap fun entry => entry.2.map fun pin =>
    { pin, path := bindingPath kind item.2 ++ "pins." ++ entry.1, owner := kind.nth item.2 }

def busPins (bus : I2cBus) : List UsedPin :=
  [{ pin := bus.sda, path := "hardware.i2c.sda", owner := "the I2C bus (SDA)" },
    { pin := bus.scl, path := "hardware.i2c.scl", owner := "the I2C bus (SCL)" }]

/-- `usedPins`. -/
def usedPins (h : HardwareDraft) : List UsedPin :=
  h.i2c.toList.flatMap busPins ++
    (h.inputs.zipIdx.flatMap (pinsOf .input) ++ h.outputs.zipIdx.flatMap (pinsOf .output))

/-- The pins that are picked in a binding. -/
def picked (b : BindingDraft) : List Int := b.pins.items.filterMap Prod.snd

theorem usedPins_eq (h : HardwareDraft) :
    (usedPins h).map UsedPin.pin = h.i2c.toList.flatMap (fun bus => [bus.sda, bus.scl]) ++
      (h.inputs.flatMap picked ++ h.outputs.flatMap picked) := by
  have hpins : ∀ kind (bindings : List BindingDraft),
      (bindings.zipIdx.flatMap (pinsOf kind)).map UsedPin.pin = bindings.flatMap picked := by
    intro kind bindings
    have hitem : ∀ item, (pinsOf kind item).map UsedPin.pin = picked item.1 := by
      intro item
      simp [pinsOf, picked, List.map_filterMap, Function.comp_def]
    rw [List.map_flatMap]
    simp only [hitem]
    conv_rhs => rw [← List.zipIdx_map_fst 0 bindings, List.flatMap_map]
  unfold usedPins
  rw [List.map_append, List.map_append, hpins, hpins, List.map_flatMap]
  rfl

/-- The loop over the used pins; `seen` has who took a pin first. -/
def checkUsed : List UsedPin → Dict Int String → Report → Report
  | [], _, r => r
  | u :: rest, seen, r =>
      match seen.get u.pin with
      | some other => checkUsed rest seen (r.error u.path (gpio u.pin ++ " is also used by " ++
          other ++ "."))
      | none => checkUsed rest (seen.set u.pin u.owner) r

/-- `usesI2c`. -/
def usesI2c (h : HardwareDraft) (drivers : Option (List DriverSpec)) : Bool :=
  (h.inputs ++ h.outputs).any fun b => (findDriver drivers b.driver).any DriverSpec.i2c

/-- One line of the bus. -/
def checkLine (model : BoardModel) (path : String) (pin : Int) (r : Report) : Report :=
  if r.has path then r else r.note path (pinProblem model .bus pin)

/-- The I2C bus: there when a driver needs it, on pins that can carry it. -/
def checkBus (h : HardwareDraft) (drivers : Option (List DriverSpec)) (model : Option BoardModel)
    (r : Report) : Report :=
  let r :=
    if usesI2c h drivers ∧ h.i2c.isNone then r.error "hardware.i2c.sda" "Pick the I2C bus pins."
    else r
  match h.i2c, model with
  | some bus, some model =>
      checkLine model "hardware.i2c.scl" bus.scl (checkLine model "hardware.i2c.sda" bus.sda r)
  | _, _ => r

/-- `String(value)`. -/
def asText (js : Js) : Param → String
  | .bool b => if b then "true" else "false"
  | .number n => js.showNumber n
  | .text s => s

/-- `i2cAddress`. -/
def i2cAddress (js : Js) (b : BindingDraft) (spec : DriverSpec) : String :=
  match b.params.get "address" with
  | some value => asText js value
  | none =>
      match spec.params.find? fun p => p.key = "address" with
      | some p => asText js p.default
      | none => ""

/-- Two parts on one bus need different addresses. -/
def checkAddresses (js : Js) (drivers : Option (List DriverSpec)) :
    List (Kind × BindingDraft × Nat) → Dict String String → Report → Report
  | [], _, r => r
  | (kind, b, i) :: rest, addresses, r =>
      match findDriver drivers b.driver with
      | none => checkAddresses js drivers rest addresses r
      | some spec =>
          if spec.i2c then
            let addr := i2cAddress js b spec
            match addresses.get addr with
            | some other =>
                checkAddresses js drivers rest addresses
                  (r.error (bindingPath kind i ++ "params.address") ("Address " ++ addr ++
                    " is also used by " ++ other ++
                    ". Set the other address on one of them (e.g. AD0 to 3.3 V)."))
            | none => checkAddresses js drivers rest (addresses.set addr (kind.nth i)) r
          else checkAddresses js drivers rest addresses r

/-- The bindings of both kinds, with their places. -/
def placed (h : HardwareDraft) : List (Kind × BindingDraft × Nat) :=
  h.inputs.zipIdx.map (Prod.mk .input) ++ h.outputs.zipIdx.map (Prod.mk .output)

/-! ## One binding -/

/-- `article`. -/
def article (word : String) : String :=
  match word.toList.head? with
  | some c => if c ∈ "aeiouAEIOU".toList then "an" else "a"
  | none => "a"

/-- The driver: there, of this kind, in this board's firmware. -/
def driverProblem (drivers : Option (List DriverSpec)) (model : Option BoardModel) (kind : Kind)
    (b : BindingDraft) : Option String :=
  match drivers, findDriver drivers b.driver with
  | some _, none =>
      some ("This firmware has no “" ++ b.driver ++ "” driver. Pick another, or update the firmware.")
  | _, some spec =>
      if spec.kind ≠ kind then
        some (spec.label ++ " is " ++ article spec.kind.word ++ " " ++ spec.kind.word ++ ", not " ++
          (match kind with
            | .input => "an input"
            | .output => "an output") ++ ".")
      else
        match model with
        | some model =>
            if runsOn spec (some model) then none
            else some ("The " ++ model.label ++ "'s firmware doesn't include " ++ spec.label ++
              ". Pick another part, or another board.")
        | none => none
  | none, none => none

/-- One role's pin. -/
def checkPin (model : Option BoardModel) (p : String) (b : BindingDraft) (r : Report)
    (role : DriverPinSpec) : Report :=
  let path := p ++ "pins." ++ role.role
  match (b.pins.get role.role).join with
  | none => r.error path "Pick a pin."
  | some pin =>
      match model with
      | some model => if r.has path then r else r.note path (pinProblem model role.needs pin)
      | none => r

/-- `Number(value)`. -/
def asNumber (js : Js) : Param → JsNumber ℚ
  | .bool b => .finite (if b then 1 else 0)
  | .number n => n
  | .text s => js.number s

/-- The blank text, which means the default. -/
def isBlank : Param → Bool
  | .text s => s = ""
  | _ => false

def isBool : Param → Bool
  | .bool _ => true
  | _ => false

/-- A bound in a message; one that is not given is "undefined". -/
def showBound (js : Js) : Option ℚ → String
  | some q => js.showNumber (.finite q)
  | none => "undefined"

/-- A number out of the range of its param. -/
def outOfRange (param : DriverParamSpec) (n : ℚ) : Bool :=
  (param.min.any fun low => n < low) || (param.max.any fun high => high < n)

/-- One param's value. -/
def paramProblem (js : Js) (param : DriverParamSpec) (raw : Option Param) : Option String :=
  match raw with
  | none => none
  | some raw =>
      if isBlank raw then none
      else if param.type = .int ∨ param.type = .float then
        match asNumber js raw with
        | .finite n =>
            if isBool raw then some "Enter a number."
            else if param.type = .int ∧ n.den ≠ 1 then some "Enter a whole number."
            else if outOfRange param n then
              some ("Enter a number from " ++ showBound js param.min ++ " to " ++
                showBound js param.max ++ ".")
            else none
        | _ => some "Enter a number."
      else if param.type = .enum ∧ asText js raw ∉ param.options.getD [] then
        some ("Pick one of " ++
          (match param.options with
            | some options => ", ".intercalate options
            | none => "undefined") ++ ".")
      else none

/-- A pull on a pin that has none. -/
def pullProblem (model : Option BoardModel) (b : BindingDraft) : Option String :=
  match model, b.params.get "pull", (b.pins.get "pin").join with
  | some model, some pull, some pin =>
      match pull with
      | .text "none" => none
      | _ =>
          if hasInternalPull model.chip pin then none
          else some (gpio pin ++
            " has no internal pull resistor. Set it to none and fit a 10 kΩ resistor.")
  | _, _, _ => none

/-- The channels a binding is checked for: its driver's, or its own where the driver is unknown. -/
def channelsOf (drivers : Option (List DriverSpec)) (b : BindingDraft) : List DriverChannelSpec :=
  match findDriver drivers b.driver with
  | some spec => spec.channels
  | none => b.channels.items.map fun item => { key := item.1 }

/-- What a channel points at, empty where it is not used. -/
def BindingDraft.ref (b : BindingDraft) (channel : String) : String :=
  (b.channels.get channel).getD ""

/-- The rows fed so far, each with the place of the binding that feeds it. -/
abbrev Fed := Dict String Nat

/-- "metric", "actuator". -/
def Kind.noun : Kind → String
  | .input => "metric"
  | .output => "actuator"

/-- A row as messages name it. -/
def KeyedRow.title (row : KeyedRow) : String := if row.name = "" then row.key else row.name

/-- What an output takes, or an actuator sends. -/
def typeWords (type other : String) : String :=
  if type = "bool" then "on/off" else if type = "float" then "a number" else other

/-- The warning about a channel and a row of different types. -/
def warnType (kind : Kind) (path : String) (ch : DriverChannelSpec) (row : KeyedRow) (r : Report) :
    Report :=
  match kind with
  | .input =>
      if ch.dataType = some "bool" ∧ row.type ≠ "bool" then
        r.warn path ("This reads on/off, but " ++ row.title ++
          " is a number. It will read 0 or 1.")
      else r
  | .output =>
      match ch.valueType with
      | some type =>
          if row.type ≠ type then
            r.warn path ("This output takes " ++ typeWords type "text" ++ ", but " ++ row.title ++
              " sends " ++ typeWords row.type "a choice" ++ ".")
          else r
      | none => r

/-- One channel. -/
def checkChannel (kind : Kind) (list : List KeyedRow) (item : BindingDraft × Nat)
    (s : Fed × Report) (ch : DriverChannelSpec) : Fed × Report :=
  let path := bindingPath kind item.2 ++ "channels." ++ ch.key
  let ref := item.1.ref ch.key
  if ref = "" then s
  else
    match list.find? fun r => r.uid = ref with
    | none =>
        (s.1, s.2.error path
          (if isMissing ref then
            "“" ++ keyOf list ref ++ "” isn't " ++ article kind.noun ++ " " ++ kind.noun ++
              " of this template any more. Pick another."
          else
            "The " ++ kind.noun ++ " it " ++
              (match kind with
                | .input => "fed"
                | .output => "drove") ++ " was removed. Pick another."))
    | some row =>
        match s.1.get row.uid with
        | some other =>
            (s.1, s.2.error path (row.title ++ " is already " ++
              (match kind with
                | .input => "read by"
                | .output => "driven by") ++ " " ++ kind.nth other ++ "."))
        | none => (s.1.set row.uid item.2, warnType kind path ch row s.2)

/-- An output that drives nothing, and an input that feeds nothing. -/
def checkUse (kind : Kind) (channels : List DriverChannelSpec) (p : String) (b : BindingDraft)
    (r : Report) : Report :=
  match kind, channels with
  | .output, _ =>
      if b.ref "value" = "" then r.error (p ++ "channels.value") "Pick the actuator it drives."
      else r
  | .input, [] => r
  | .input, first :: _ =>
      if channels.any fun ch => b.ref ch.key ≠ "" then r
      else r.warn (p ++ "channels." ++ first.key)
        "This input feeds no metric, so nothing from it is published. Pick the metric it reads."

/-- The driver, the pins and the params of one binding. -/
def checkPart (js : Js) (drivers : Option (List DriverSpec)) (model : Option BoardModel)
    (kind : Kind) (item : BindingDraft × Nat) (r : Report) : Report :=
  let p := bindingPath kind item.2
  let spec := findDriver drivers item.1.driver
  let r := r.note (p ++ "driver") (driverProblem drivers model kind item.1)
  let r := (spec.toList.flatMap DriverSpec.pins).foldl (checkPin model p item.1) r
  let r := (spec.toList.flatMap DriverSpec.params).foldl
    (fun r param =>
      r.note (p ++ "params." ++ param.key) (paramProblem js param (item.1.params.get param.key))) r
  r.note (p ++ "params.pull") (pullProblem model item.1)

/-- One binding. -/
def checkBinding (js : Js) (drivers : Option (List DriverSpec)) (model : Option BoardModel)
    (kind : Kind) (list : List KeyedRow) (s : Fed × Report) (item : BindingDraft × Nat) :
    Fed × Report :=
  let r := checkPart js drivers model kind item s.2
  let channels := channelsOf drivers item.1
  let r := checkUse kind channels (bindingPath kind item.2) item.1 r
  channels.foldl (checkChannel kind list item) (s.1, r)

/-- The bindings of one kind. -/
def checkKind (js : Js) (drivers : Option (List DriverSpec)) (model : Option BoardModel)
    (h : HardwareDraft) (rows : Rows) (kind : Kind) (r : Report) : Report :=
  ((h.bindings kind).zipIdx.foldl (checkBinding js drivers model kind (rows.of kind))
    (Dict.empty, r)).2

/-! ## The check -/

/-- `HardwareCatalog`. -/
structure HardwareCatalog where
  drivers : List DriverSpec
  models : List BoardModel

/-- `validateHardware`. -/
def validateHardware (js : Js) (h : Option HardwareDraft) (rows : Rows)
    (catalog : Option HardwareCatalog) : Report :=
  match h with
  | none => {}
  | some h =>
      let drivers := catalog.map HardwareCatalog.drivers
      let model := catalog.bind fun catalog => resolveModel catalog.models h.board
      let r : Report := {}
      let r :=
        if catalog.isSome ∧ model.isNone then
          r.error "hardware.board" ("This firmware has no “" ++ h.board ++ "” board. Pick one.")
        else r
      let r := checkUsed (usedPins h) Dict.empty r
      let r := checkBus h drivers model r
      let r := checkAddresses js drivers (placed h) Dict.empty r
      let r := checkKind js drivers model h rows .input r
      checkKind js drivers model h rows .output r

end IotSaas.Wiring
