import IotSaas.Catalog.Hardware
import IotSaas.Wiring.Boards

/-!
# `Wiring/Drivers.lean` — the driver catalog

`firmware/drivers.json`, as the editor reads it (`lib/hardware/driver-catalog.ts`): for each driver
its pins, its params with their types and ranges, its channels, and the chips whose build carries
it. Descriptions, wiring notes and the labels of pins, params and channels are left out.

A param's number is what JavaScript has: finite, infinite or not a number.
-/

set_option autoImplicit false

namespace IotSaas.Wiring

open Catalog Editor

/-- `number | boolean | string`. -/
abbrev Param := ParamValue (JsNumber ℚ)

/-- What a driver does, and the two lists of bindings of a wiring. -/
inductive Kind where
  | input | output
  deriving DecidableEq

inductive ParamType where
  | int | float | bool | enum
  deriving DecidableEq

/-- `DriverPinSpec`. -/
structure DriverPinSpec where
  role : String
  needs : PinNeed

/-- `DriverParamSpec`. -/
structure DriverParamSpec where
  key : String
  type : ParamType
  default : Param
  min : Option ℚ := none
  max : Option ℚ := none
  options : Option (List String) := none

/-- `DriverChannelSpec`: `data_type` is an input's, `value_type` an output's. -/
structure DriverChannelSpec where
  key : String
  dataType : Option String := none
  valueType : Option String := none

/-- `DriverSpec`; `i2c` says that the driver is on the shared bus. -/
structure DriverSpec where
  id : String
  kind : Kind
  label : String
  i2c : Bool := false
  chips : Option (List Chip) := none
  pins : List DriverPinSpec
  params : List DriverParamSpec
  channels : List DriverChannelSpec

/-- `runsOn`. -/
def runsOn (spec : DriverSpec) (model : Option BoardModel) : Bool :=
  match model, spec.chips with
  | some model, some chips => decide (model.chip ∈ chips)
  | _, _ => true

/-- `findDriver`. -/
def findDriver (drivers : Option (List DriverSpec)) (id : String) : Option DriverSpec :=
  drivers.bind fun drivers => drivers.find? fun d => d.id = id

theorem findDriver_some {drivers : List DriverSpec} {id : String} {spec : DriverSpec}
    (h : findDriver (some drivers) id = some spec) : spec ∈ drivers ∧ spec.id = id := by
  simp only [findDriver, Option.bind_some] at h
  exact ⟨List.mem_of_find?_eq_some h, by simpa using List.find?_some h⟩

/-! ## `drivers.json` -/

def intSpec (key : String) (default min max : Int) : DriverParamSpec :=
  { key
    type := .int
    default := .number (.finite default)
    min := some min
    max := some max }

def floatSpec (key : String) (default : ℚ) : DriverParamSpec :=
  { key, type := .float, default := .number (.finite default) }

def boolSpec (key : String) : DriverParamSpec :=
  { key, type := .bool, default := .bool false }

def enumSpec (key default : String) (options : List String) : DriverParamSpec :=
  { key, type := .enum, default := .text default, options := some options }

section

variable (key : String)

@[simp] theorem intSpec_key (default min max : Int) : (intSpec key default min max).key = key := rfl

@[simp] theorem floatSpec_key (default : ℚ) : (floatSpec key default).key = key := rfl

@[simp] theorem boolSpec_key : (boolSpec key).key = key := rfl

@[simp] theorem enumSpec_key (default : String) (options : List String) :
    (enumSpec key default options).key = key := rfl

end

def readingSpec (key dataType : String) : DriverChannelSpec := { key, dataType := some dataType }

def digitalIn : DriverSpec :=
  { id := "digital_in"
    kind := .input
    label := "Digital input"
    pins := [⟨"pin", .input⟩]
    params := [enumSpec "pull" "up" ["up", "down", "none"], boolSpec "invert",
      intSpec "debounce_ms" 30 0 1000]
    channels := [readingSpec "value" "bool"] }

def analogIn : DriverSpec :=
  { id := "analog_in"
    kind := .input
    label := "Analog input"
    pins := [⟨"pin", .adc1⟩]
    params := [floatSpec "scale" 1, floatSpec "offset" 0, intSpec "samples" 8 1 64]
    channels := [readingSpec "value" "float"] }

def ds18b20 : DriverSpec :=
  { id := "ds18b20"
    kind := .input
    label := "DS18B20 temperature"
    chips := some [.esp32, .esp32c3, .esp32s3, .esp32s2]
    pins := [⟨"pin", .bus⟩]
    params := [intSpec "resolution" 12 9 12, intSpec "interval_ms" 2000 1000 60000]
    channels := [readingSpec "temp_1" "float", readingSpec "temp_2" "float",
      readingSpec "temp_3" "float", readingSpec "temp_4" "float"] }

def dht22 : DriverSpec :=
  { id := "dht22"
    kind := .input
    label := "DHT22 / AM2302"
    pins := [⟨"pin", .bus⟩]
    params := [intSpec "interval_ms" 2500 2000 60000]
    channels := [readingSpec "temperature" "float", readingSpec "humidity" "float"] }

def pulseCounter : DriverSpec :=
  { id := "pulse_counter"
    kind := .input
    label := "Pulse counter"
    pins := [⟨"pin", .input⟩]
    params := [enumSpec "edge" "falling" ["falling", "rising"],
      enumSpec "pull" "up" ["up", "down", "none"], floatSpec "pulses_per_unit" 1,
      intSpec "min_gap_us" 0 0 100000, intSpec "window_s" 5 1 60]
    channels := [readingSpec "total" "float", readingSpec "rate_per_min" "float"] }

def hcsr04 : DriverSpec :=
  { id := "hcsr04"
    kind := .input
    label := "HC-SR04 distance"
    pins := [⟨"trig", .output⟩, ⟨"echo", .input⟩]
    params := [intSpec "interval_ms" 500 60 5000, floatSpec "max_cm" 400]
    channels := [readingSpec "distance_cm" "float"] }

def mpu6050 : DriverSpec :=
  { id := "mpu6050"
    kind := .input
    label := "MPU6050 / GY-521 motion"
    i2c := true
    pins := []
    params := [enumSpec "address" "0x68" ["0x68", "0x69"],
      enumSpec "accel_range" "4" ["2", "4", "8", "16"], intSpec "sample_hz" 50 10 200,
      intSpec "window_ms" 1000 200 10000]
    channels := ["tilt_x", "tilt_y", "vibration_rms", "temperature", "accel_x", "accel_y",
      "accel_z", "gyro_x", "gyro_y", "gyro_z"].map fun key => readingSpec key "float" }

def relay : DriverSpec :=
  { id := "relay"
    kind := .output
    label := "Relay / on-off output"
    pins := [⟨"pin", .output⟩]
    params := [boolSpec "active_low", boolSpec "boot_state"]
    channels := [{ key := "value", valueType := some "bool" }] }

def pwm : DriverSpec :=
  { id := "pwm"
    kind := .output
    label := "PWM output"
    pins := [⟨"pin", .output⟩]
    params := [intSpec "freq_hz" 1000 1 40000, intSpec "resolution_bits" 10 8 14,
      floatSpec "in_min" 0, floatSpec "in_max" 100, floatSpec "boot_value" 0, boolSpec "invert"]
    channels := [{ key := "value", valueType := some "float" }] }

def servo : DriverSpec :=
  { id := "servo"
    kind := .output
    label := "Servo"
    pins := [⟨"pin", .output⟩]
    params := [floatSpec "min_angle" 0, floatSpec "max_angle" 180, floatSpec "min_us" 500,
      floatSpec "max_us" 2500, floatSpec "boot_angle" 90]
    channels := [{ key := "value", valueType := some "float" }] }

/-- The drivers of `drivers.json`. -/
def drivers : List DriverSpec :=
  [digitalIn, analogIn, ds18b20, dht22, pulseCounter, hcsr04, mpu6050, relay, pwm, servo]

end IotSaas.Wiring
