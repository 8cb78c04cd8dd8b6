import IotSaas.Firmware.Drivers

/-!
# `Firmware/Io.lean` — the board comes up

`firmware/src/io.cpp`, and what `config.cpp` and `main.cpp` do before it: a config is loaded, the
reset button and the status LED keep their pins, and `ioBegin` declares the metrics, starts the I2C
bus, then the outputs, then the inputs, each of which may refuse. Logging, the cell that holds the
config and everything after the start are left out, and so are the parts of the config that other
modules read (broker, Wi-Fi, phone setup).
-/

set_option autoImplicit false

namespace IotSaas.Firmware

open Lib Catalog Editor Wiring

variable {F : Type}

/-! ## The config -/

/-- `DeviceConfig`. -/
structure DeviceConfig where
  tenant : String
  device : String
  i2cSda : Int
  i2cScl : Int
  resetPin : Int
  ledType : LedType
  ledPin : Int
  ledActiveLow : Bool
  metrics : List FirmwareMetric
  actuators : List FirmwareActuator
  inputs : List Binding
  outputs : List Binding

/-- `v | default`, of a pin. -/
def pinOr (default : Int) (pin : Option Int) : Int := (pin.filter fun pin => fits pin).getD default

/-- `DEFAULT_RESET_PIN`. -/
def defaultResetPin : Chip → Int
  | .esp32c3 => 9
  | .esp32 => 0
  | .esp32s3 => 0
  | .esp32c6 => 9
  | .esp32s2 => 0

/-- `loadConfig`, of a config with its `board_io`. -/
def loadConfig (board : Board F) (c : FirmwareConfig) : Except String DeviceConfig :=
  if c.v ≠ 1 then .error "unsupported config version"
  else if c.board ≠ board.chip.id then
    .error ("this config is for " ++ (if c.board = "" then "another board" else c.board) ++
      ", but this board is " ++ board.chip.id)
  else if c.tenant = "" then .error "missing device.tenant"
  else if c.device = "" then .error "missing device.device"
  else
    let ledPin := if c.boardIo.ledType = .none then -1 else pinOr (-1) (some c.boardIo.ledPin)
    if c.boardIo.ledType ≠ .none ∧ ledPin < 0 then .error "board_io.led needs a pin"
    else .ok
      { tenant := c.tenant
        device := c.device
        i2cSda := pinOr (-1) (c.i2c.map I2cBus.sda)
        i2cScl := pinOr (-1) (c.i2c.map I2cBus.scl)
        resetPin := pinOr (defaultResetPin board.chip) (some c.boardIo.resetPin)
        ledType := c.boardIo.ledType
        ledPin
        ledActiveLow := c.boardIo.ledActiveLow
        metrics := c.metrics
        actuators := c.actuators
        inputs := c.inputs
        outputs := c.outputs }

/-! ## Metrics -/

structure Metric (F : Type) where
  key : String
  topic : String
  isBool : Bool
  mode : PublishProfile
  intervalMs : Int
  deadband : F
  /-- The driver that feeds it, and from which channel. -/
  source : Option (Driver F × String) := none

structure Actuator (F : Type) where
  key : String
  cmdTopic : String
  stateTopic : String
  ackTopic : String
  output : Driver F

/-- `defaultIntervalMs`. -/
def defaultIntervalMs : PublishProfile → Int
  | .onChange => 300000
  | .streaming => 1000
  | .periodic => 15000

/-- A metric as it is declared; `unsigned long` has 32 bits. -/
def newMetric (board : Board F) (base : String) (item : FirmwareMetric) : Metric F :=
  let interval := (item.intervalS.filter fun interval => fits interval).getD 0
  { key := item.key
    topic := base ++ item.key
    isBool := item.bool
    mode := item.publish
    intervalMs := if 0 < interval then interval * 1000 % 2 ^ 32 else defaultIntervalMs item.publish
    deadband := board.asFloat (item.deadband.getD 0) }

/-- One round of `beginMetrics`. -/
def declareMetric (board : Board F) (base : String) (metrics : List (Metric F))
    (item : FirmwareMetric) : Except String (List (Metric F)) :=
  if item.key = "" ∨ item.key = "status" ∨ item.key = "config" then
    .error ("metric key \"" ++ item.key ++ "\" isn't allowed")
  else if item.key ∈ metrics.map Metric.key then
    .error ("metric " ++ item.key ++ " is declared twice")
  else .ok (metrics ++ [newMetric board base item])

/-- `beginMetrics`. -/
def beginMetrics (board : Board F) (base : String) (items : List FirmwareMetric) :
    Except String (List (Metric F)) :=
  items.foldlM (declareMetric board base) []

/-! ## Outputs -/

/-- `binding["channels"]["value"] | ""`. -/
def outputKey (b : Binding) : String := (b.channels.lookup "value").getD ""

/-- An actuator with its topics and its driver. -/
def newActuator (base key : String) (output : Driver F) : Actuator F :=
  { key
    cmdTopic := base ++ "cmd/" ++ key
    stateTopic := base ++ "state/" ++ key
    ackTopic := base ++ "ack/" ++ key
    output }

/-- One round of `beginOutputs`. -/
def beginOutput [LinearOrder F] (board : Board F) (declared : List FirmwareActuator)
    (base : String) (s : List (Actuator F) × Globals) (b : Binding) :
    Except String (List (Actuator F) × Globals) :=
  let key := outputKey b
  match makeOutputDriver board.chip b.driver with
  | none =>
      .error ("output driver \"" ++ b.driver ++ "\" isn't in this firmware; update the firmware")
  | some driver =>
      if key ∉ declared.map FirmwareActuator.key then
        .error (b.driver ++ " drives \"" ++ key ++ "\", which isn't an actuator of this device")
      else if key ∈ s.1.map Actuator.key then
        .error ("actuator " ++ key ++ " is driven by two outputs")
      else do
        let g ← driver.begin board b s.2
        .ok (s.1 ++ [newActuator base key driver], g)

/-- `beginOutputs`. -/
def beginOutputs [LinearOrder F] (board : Board F) (declared : List FirmwareActuator)
    (base : String) (bindings : List Binding) (g : Globals) :
    Except String (List (Actuator F) × Globals) :=
  bindings.foldlM (beginOutput board declared base) ([], g)

/-! ## Inputs -/

/-- The source of the metric `findMetric` finds. -/
def sourceOf (metrics : List (Metric F)) (key : String) : Option (Driver F × String) :=
  (metrics.find? fun m => m.key = key).bind Metric.source

/-- `m->source = driver`, of the metric `findMetric` finds. -/
def setSource (key : String) (source : Driver F × String) : List (Metric F) → List (Metric F)
  | [] => []
  | m :: rest =>
      if m.key = key then { m with source := some source } :: rest
      else m :: setSource key source rest

/-- One channel of a binding. -/
def bindChannel (id : String) (driver : Driver F) (metrics : List (Metric F))
    (item : String × String) : Except String (List (Metric F)) :=
  let (channel, key) := item
  if channel ∉ driver.channels then .error (id ++ " has no channel \"" ++ channel ++ "\"")
  else if key ∉ metrics.map Metric.key then
    .error (id ++ "." ++ channel ++ " maps to \"" ++ key ++
      "\", which isn't a metric of this device")
  else if (sourceOf metrics key).isSome then
    .error ("metric " ++ key ++ " is read by two inputs")
  else .ok (setSource key (driver, channel) metrics)

/-- One round of `beginInputs`. -/
def beginInput [LinearOrder F] (board : Board F) (s : List (Metric F) × Globals) (b : Binding) :
    Except String (List (Metric F) × Globals) :=
  match makeInputDriver board.chip b.driver with
  | none =>
      .error ("input driver \"" ++ b.driver ++ "\" isn't in this firmware; update the firmware")
  | some driver => do
      let g ← driver.begin board b s.2
      let metrics ← b.channels.foldlM (bindChannel b.driver driver) s.1
      .ok (metrics, g)

/-- `beginInputs`. -/
def beginInputs [LinearOrder F] (board : Board F) (bindings : List Binding)
    (metrics : List (Metric F)) (g : Globals) : Except String (List (Metric F) × Globals) :=
  bindings.foldlM (beginInput board) (metrics, g)

/-! ## `ioBegin` -/

/-- What is there once the board is up. -/
structure Io (F : Type) where
  metrics : List (Metric F)
  actuators : List (Actuator F)
  globals : Globals

/-- The I2C bus, where there is one. -/
def beginBus (board : Board F) (sda scl : Int) (g : Globals) : Except String Globals :=
  if 0 ≤ sda ∨ 0 ≤ scl then do
    let g ← claimRawPin board.chip sda .bus "i2c.sda" g
    let g ← claimRawPin board.chip scl .bus "i2c.scl" g
    if board.wireBegin sda scl then .ok { g with i2cReady := true }
    else .error ("couldn't start the I2C bus on " ++ gpio sda ++ "/" ++ toString scl)
  else .ok g

/-- `ioBegin`. -/
def ioBegin [LinearOrder F] (board : Board F) (cfg : DeviceConfig) (g : Globals) :
    Except String (Io F) := do
  let base := cfg.tenant ++ "/" ++ cfg.device ++ "/"
  let metrics ← beginMetrics board base cfg.metrics
  let g ← beginBus board cfg.i2cSda cfg.i2cScl g
  let (actuators, g) ← beginOutputs board cfg.actuators base cfg.outputs g
  let (metrics, g) ← beginInputs board cfg.inputs metrics g
  .ok { metrics, actuators, globals := g }

/-- The pins `setup` keeps before `ioBegin`. -/
def reserved (cfg : DeviceConfig) : Globals :=
  reservePin cfg.ledPin "the status LED" (reservePin cfg.resetPin "the reset button" {})

/-- `setup`, from a loaded config on. -/
def setup [LinearOrder F] (board : Board F) (cfg : DeviceConfig) : Except String (Io F) :=
  ioBegin board cfg (reserved cfg)

end IotSaas.Firmware
