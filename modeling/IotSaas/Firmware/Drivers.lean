import IotSaas.Firmware.Pins
import Mathlib.Order.Defs.LinearOrder

/-!
# `Firmware/Drivers.lean` — the drivers, as they begin

`firmware/src/drivers/`: each driver's `begin`, which claims its pins, reads its params and refuses
what it can't work with, and the registry that a chip's build carries. `poll`, `read` and `apply`
come later in a driver's life and are left out, and so are the fields `begin` fills in for them.

Every `begin` comes to the same three things (`Begins`): the claims of the catalog entry's roles, its
params, each of its type and range, and what is the driver's own — a pull on a pin that has one, two
ends that differ, pulse widths a servo can take, a bus that runs.
-/

set_option autoImplicit false

namespace IotSaas.Firmware

open Lib Catalog Editor Wiring

variable {F : Type}

/-! ## Claims -/

/-- The use a pin role needs its pin for. -/
@[simp] def useOf : PinNeed → PinUse
  | .input => .input
  | .output => .output
  | .adc1 => .analog
  | .bus => .bus

/-- The claims of a driver's roles, in their order. -/
def claimRoles (chip : Chip) (b : Binding) : List DriverPinSpec → Globals → Except String Globals
  | [], g => .ok g
  | role :: rest, g => do
      let (_, g) ← claimPin chip b role.role (useOf role.needs) g
      claimRoles chip b rest g

@[simp] theorem claimRoles_nil {chip : Chip} {b : Binding} {g g' : Globals} :
    claimRoles chip b [] g = .ok g' ↔ g = g' := by
  rw [claimRoles, Except.ok.injEq]

@[simp] theorem claimRoles_cons {chip : Chip} {b : Binding} {role : DriverPinSpec}
    {rest : List DriverPinSpec} {g g' : Globals} :
    claimRoles chip b (role :: rest) g = .ok g' ↔
      ∃ pin g₁, claimPin chip b role.role (useOf role.needs) g = .ok (pin, g₁) ∧
        claimRoles chip b rest g₁ = .ok g' := by
  rw [claimRoles, bind_eq_ok, Prod.exists]

/-! ## Inputs -/

/-- `DigitalIn::begin`. -/
def digitalInBegin (board : Board F) (b : Binding) (g : Globals) : Except String Globals := do
  let (pin, g) ← claimPin board.chip b "pin" .input g
  let _ ← boolParam b "invert" false
  let _ ← intParam b "debounce_ms" 30 0 1000
  let pull := (param b "pull").textOr "up"
  if pull ≠ "none" ∧ ¬hasPull board.chip pin then
    .error ("digital_in: " ++ gpio pin ++
      " has no internal pull resistor; set pull to none and fit one")
  else if pull = "up" then .ok g
  else if pull = "down" then .ok g
  else if pull = "none" then .ok g
  else .error "digital_in: pull must be up, down or none"

/-- `AnalogIn::begin`. -/
def analogInBegin (board : Board F) (b : Binding) (g : Globals) : Except String Globals := do
  let (_, g) ← claimPin board.chip b "pin" .analog g
  let _ ← floatParam b "scale" board (board.asFloat 1)
  let _ ← floatParam b "offset" board (board.asFloat 0)
  let _ ← intParam b "samples" 8 1 64
  .ok g

/-- `Ds18b20::begin`. -/
def ds18b20Begin (board : Board F) (b : Binding) (g : Globals) : Except String Globals := do
  let (_, g) ← claimPin board.chip b "pin" .bus g
  let _ ← intParam b "resolution" 12 9 12
  let _ ← intParam b "interval_ms" 2000 1000 60000
  .ok g

/-- `Dht22::begin`. -/
def dht22Begin (board : Board F) (b : Binding) (g : Globals) : Except String Globals := do
  let (_, g) ← claimPin board.chip b "pin" .bus g
  let _ ← intParam b "interval_ms" 2500 2000 60000
  .ok g

/-- `PulseCounter::begin`. -/
def pulseCounterBegin [LinearOrder F] (board : Board F) (b : Binding) (g : Globals) :
    Except String Globals := do
  let (pin, g) ← claimPin board.chip b "pin" .input g
  let _ ← enumParam b "edge" "falling" ["falling", "rising"]
  let pull ← enumParam b "pull" "up" ["up", "down", "none"]
  let perUnit ← floatParam b "pulses_per_unit" board (board.asFloat 1)
  let _ ← intParam b "min_gap_us" 0 0 100000
  let _ ← intParam b "window_s" 5 1 60
  if perUnit ≤ board.asFloat 0 then .error "pulse_counter: pulses_per_unit must be above 0"
  else if pull ≠ "none" ∧ ¬hasPull board.chip pin then
    .error ("pulse_counter: " ++ gpio pin ++
      " has no internal pull resistor; set pull to none and fit one")
  else .ok g

/-- `Hcsr04::begin`. -/
def hcsr04Begin (board : Board F) (b : Binding) (g : Globals) : Except String Globals := do
  let (_, g) ← claimPin board.chip b "trig" .output g
  let (_, g) ← claimPin board.chip b "echo" .input g
  let _ ← intParam b "interval_ms" 500 60 5000
  let _ ← floatParam b "max_cm" board (board.asFloat 400)
  .ok g

/-- `NAMES` of `mpu6050.cpp`. -/
def mpu6050Channels : List String :=
  ["accel_x", "accel_y", "accel_z", "temperature", "gyro_x", "gyro_y", "gyro_z", "tilt_x", "tilt_y",
    "vibration_rms"]

/-- `Mpu6050::begin`: a chip that does not answer is no error. -/
def mpu6050Begin (_board : Board F) (b : Binding) (g : Globals) : Except String Globals := do
  if ¬g.i2cReady then .error "mpu6050: set the I2C bus pins (SDA/SCL) in the wiring"
  else do
    let _ ← enumParam b "address" "0x68" ["0x68", "0x69"]
    let _ ← enumParam b "accel_range" "4" ["2", "4", "8", "16"]
    let _ ← intParam b "sample_hz" 50 10 200
    let _ ← intParam b "window_ms" 1000 200 10000
    .ok g

/-! ## Outputs -/

/-- `Relay::begin`. -/
def relayBegin (board : Board F) (b : Binding) (g : Globals) : Except String Globals := do
  let (_, g) ← claimPin board.chip b "pin" .output g
  let _ ← boolParam b "active_low" false
  let _ ← boolParam b "boot_state" false
  .ok g

/-- `Pwm::begin`. -/
def pwmBegin [LinearOrder F] (board : Board F) (b : Binding) (g : Globals) :
    Except String Globals := do
  let (pin, g) ← claimPin board.chip b "pin" .output g
  let freq ← intParam b "freq_hz" 1000 1 40000
  let bits ← intParam b "resolution_bits" 10 8 14
  let inMin ← floatParam b "in_min" board (board.asFloat 0)
  let inMax ← floatParam b "in_max" board (board.asFloat 100)
  let _ ← boolParam b "invert" false
  let _ ← floatParam b "boot_value" board inMin
  if inMax = inMin then .error "pwm: in_min and in_max must differ"
  else if ¬board.ledcAttach pin freq bits then
    .error ("pwm: can't run " ++ toString freq ++ " Hz at " ++ toString bits ++ " bits on " ++
      gpio pin ++ " (try a lower frequency)")
  else .ok g

/-- `Servo::begin`. -/
def servoBegin [LinearOrder F] (board : Board F) (b : Binding) (g : Globals) :
    Except String Globals := do
  let (pin, g) ← claimPin board.chip b "pin" .output g
  let minUs ← floatParam b "min_us" board (board.asFloat 500)
  let maxUs ← floatParam b "max_us" board (board.asFloat 2500)
  let _ ← floatParam b "min_angle" board (board.asFloat 0)
  let _ ← floatParam b "max_angle" board (board.asFloat 180)
  let _ ← floatParam b "boot_angle" board (board.asFloat 90)
  if minUs < board.asFloat 200 ∨ board.asFloat 3000 < maxUs ∨ maxUs ≤ minUs then
    .error "servo: pulse widths must be 200-3000 us, min below max"
  else if ¬board.ledcAttach pin 50 14 then .error ("servo: can't drive " ++ gpio pin)
  else .ok g

/-! ## The registry -/

/-- A driver in a build: the channels it offers, and how it begins. -/
structure Driver (F : Type) where
  id : String
  channels : List String
  begin : Board F → Binding → Globals → Except String Globals

/-- `INPUTS`. -/
def inputEntries [LinearOrder F] : List (Driver F) :=
  [ { id := "digital_in", channels := ["value"], begin := digitalInBegin },
    { id := "analog_in", channels := ["value"], begin := analogInBegin },
    { id := "ds18b20"
      channels := ["temp_1", "temp_2", "temp_3", "temp_4"]
      begin := ds18b20Begin },
    { id := "dht22", channels := ["temperature", "humidity"], begin := dht22Begin },
    { id := "pulse_counter", channels := ["total", "rate_per_min"], begin := pulseCounterBegin },
    { id := "hcsr04", channels := ["distance_cm"], begin := hcsr04Begin },
    { id := "mpu6050", channels := mpu6050Channels, begin := mpu6050Begin } ]

/-- `OUTPUTS`; an output offers no channels. -/
def outputEntries [LinearOrder F] : List (Driver F) :=
  [ { id := "relay", channels := [], begin := relayBegin },
    { id := "pwm", channels := [], begin := pwmBegin },
    { id := "servo", channels := [], begin := servoBegin } ]

/-- `IOD_DRIVER_<ID>` is defined for this chip. -/
def built (chip : Chip) (id : String) : Bool :=
  drivers.any fun d => d.id = id && decide (chip ∈ d.chips.getD [chip])

/-- `makeInputDriver`. -/
def makeInputDriver [LinearOrder F] (chip : Chip) (id : String) : Option (Driver F) :=
  (inputEntries.filter fun e => built chip e.id).find? fun e => e.id = id

/-- `makeOutputDriver`. -/
def makeOutputDriver [LinearOrder F] (chip : Chip) (id : String) : Option (Driver F) :=
  (outputEntries.filter fun e => built chip e.id).find? fun e => e.id = id

/-! ## When a driver begins -/

/-- A driver begins when its roles are claimed, its params are read and its own rule is kept, which
may ask for the bus. -/
def Begins (board : Board F) (begin : Board F → Binding → Globals → Except String Globals)
    (spec : DriverSpec) (rule : Binding → Bool → Prop) : Prop :=
  ∀ b g g', begin board b g = .ok g' ↔ claimRoles board.chip b spec.pins g = .ok g' ∧
    (∀ p ∈ spec.params, Reads (param b p.key) p) ∧ rule b g.i2cReady

/-- A pull only on a pin that has one. -/
def PullRule (chip : Chip) (b : Binding) : Prop :=
  (param b "pull").textOr "up" ≠ "none" → ∀ pin, b.pins.lookup "pin" = some pin →
    hasPull chip pin = true

/-- Pulses per unit above 0. -/
def PulseRule [LinearOrder F] (board : Board F) (b : Binding) : Prop :=
  board.asFloat 0 < floatAt b "pulses_per_unit" board (board.asFloat 1)

/-- Two ends that differ. -/
def SpanRule (board : Board F) (b : Binding) : Prop :=
  floatAt b "in_max" board (board.asFloat 100) ≠ floatAt b "in_min" board (board.asFloat 0)

/-- Pulse widths a servo can take. -/
def WidthRule [LinearOrder F] (board : Board F) (b : Binding) : Prop :=
  let minUs := floatAt b "min_us" board (board.asFloat 500)
  let maxUs := floatAt b "max_us" board (board.asFloat 2500)
  board.asFloat 200 ≤ minUs ∧ maxUs ≤ board.asFloat 3000 ∧ minUs < maxUs

theorem pullRule_iff {chip : Chip} {b : Binding} {pin : Int}
    (hpin : b.pins.lookup "pin" = some pin) :
    PullRule chip b ↔ ((param b "pull").textOr "up" ≠ "none" → hasPull chip pin = true) := by
  simp [PullRule, hpin]

/-- The three `pinMode` branches of `DigitalIn::begin`. -/
theorem pinMode_ok {pull e : String} {g g' : Globals} :
    (if pull = "up" then .ok g else if pull = "down" then .ok g
      else if pull = "none" then .ok g else .error e : Except String Globals) = .ok g' ↔
      pull ∈ ["up", "down", "none"] ∧ g = g' := by
  split
  · simp [*]
  split
  · simp [*]
  split <;> simp [*]

section

variable (board : Board F)

theorem digitalIn_begins :
    Begins board digitalInBegin digitalIn fun b _ => PullRule board.chip b := by
  intro b g g'
  have hmode : ReadsEnum ["up", "down", "none"] (param b "pull") ↔
      (param b "pull").textOr "up" ∈ ["up", "down", "none"] := readsEnum_iff List.mem_cons_self
  simp only [digitalInBegin, digitalIn, bind_eq_ok, Prod.exists, ite_error_eq_ok, boolParam_ok,
    intParam_ok, pinMode_ok, claimRoles_cons, claimRoles_nil, useOf, List.forall_mem_cons,
    reads_enum, reads_bool, reads_int, enumSpec_key, boolSpec_key, intSpec_key, hmode]
  constructor
  · rintro ⟨pin, g₁, hclaim, _, ⟨hinvert, -⟩, _, ⟨hdebounce, -⟩, hpull, hmode, rfl⟩
    refine ⟨⟨pin, g₁, hclaim, rfl⟩, ⟨hmode, hinvert, hdebounce, by simp⟩, ?_⟩
    rw [pullRule_iff (claimPin_ok.mp hclaim).1]
    simpa using hpull
  · rintro ⟨⟨pin, g₁, hclaim, rfl⟩, ⟨hmode, hinvert, hdebounce, -⟩, hpull⟩
    rw [pullRule_iff (claimPin_ok.mp hclaim).1] at hpull
    exact ⟨pin, g₁, hclaim, _, ⟨hinvert, rfl⟩, _, ⟨hdebounce, rfl⟩, by simpa using hpull, hmode,
      rfl⟩

theorem analogIn_begins : Begins board analogInBegin analogIn fun _ _ => True := by
  intro b g g'
  simp [analogInBegin, analogIn, bind_eq_ok]

theorem ds18b20_begins : Begins board ds18b20Begin ds18b20 fun _ _ => True := by
  intro b g g'
  simp [ds18b20Begin, ds18b20, bind_eq_ok]

theorem dht22_begins : Begins board dht22Begin dht22 fun _ _ => True := by
  intro b g g'
  simp [dht22Begin, dht22, bind_eq_ok]

theorem hcsr04_begins : Begins board hcsr04Begin hcsr04 fun _ _ => True := by
  intro b g g'
  have hroles : claimRoles board.chip b hcsr04.pins g = .ok g' ↔
      ∃ trig g₁, claimPin board.chip b "trig" .output g = .ok (trig, g₁) ∧
        ∃ echo, claimPin board.chip b "echo" .input g₁ = .ok (echo, g') := by
    simp [hcsr04]
  rw [hroles]
  simp [hcsr04Begin, hcsr04, bind_eq_ok, ← and_assoc]

theorem mpu6050_begins :
    Begins board mpu6050Begin mpu6050 fun _ ready => ready = true := by
  intro b g g'
  by_cases hready : g.i2cReady = true
  · simp [mpu6050Begin, mpu6050, bind_eq_ok, hready, and_comm, and_left_comm]
  · simp [mpu6050Begin, hready]

theorem relay_begins : Begins board relayBegin relay fun _ _ => True := by
  intro b g g'
  simp [relayBegin, relay, bind_eq_ok]

variable [LinearOrder F]

theorem pulseCounter_begins :
    Begins board pulseCounterBegin pulseCounter
      fun b _ => PulseRule board b ∧ PullRule board.chip b := by
  intro b g g'
  simp only [pulseCounterBegin, pulseCounter, bind_eq_ok, Prod.exists, ite_error_eq_ok, intParam_ok,
    floatParam_ok, claimRoles_cons, claimRoles_nil, useOf, List.forall_mem_cons, reads_enum,
    reads_float, reads_int, enumSpec_key, floatSpec_key, intSpec_key, PulseRule,
    enumParam_ok (List.mem_cons_self (a := "falling")),
    enumParam_ok (List.mem_cons_self (a := "up")), not_le, Except.ok.injEq]
  constructor
  · rintro ⟨pin, g₁, hclaim, _, ⟨hedge, -⟩, _, ⟨hmode, rfl⟩, _, ⟨hunits, rfl⟩, _, ⟨hgap, -⟩, _,
      ⟨hwindow, -⟩, hpulses, hpull, rfl⟩
    refine ⟨⟨pin, g₁, hclaim, rfl⟩, ⟨hedge, hmode, hunits, hgap, hwindow, by simp⟩, hpulses, ?_⟩
    rw [pullRule_iff (claimPin_ok.mp hclaim).1]
    simpa using hpull
  · rintro ⟨⟨pin, g₁, hclaim, rfl⟩, ⟨hedge, hmode, hunits, hgap, hwindow, -⟩, hpulses, hpull⟩
    rw [pullRule_iff (claimPin_ok.mp hclaim).1] at hpull
    exact ⟨pin, g₁, hclaim, _, ⟨hedge, rfl⟩, _, ⟨hmode, rfl⟩, _, ⟨hunits, rfl⟩, _, ⟨hgap, rfl⟩, _,
      ⟨hwindow, rfl⟩, hpulses, by simpa using hpull, rfl⟩

theorem pwm_begins (works : board.Works) :
    Begins board pwmBegin pwm fun b _ => SpanRule board b := by
  intro b g g'
  simp only [pwmBegin, pwm, bind_eq_ok, Prod.exists, ite_error_eq_ok, intParam_ok, floatParam_ok,
    boolParam_ok, claimRoles_cons, claimRoles_nil, useOf, List.forall_mem_cons, reads_bool,
    reads_float, reads_int, boolSpec_key, floatSpec_key, intSpec_key, works.ledcAttach,
    Except.ok.injEq]
  constructor
  · rintro ⟨pin, g₁, hclaim, _, ⟨hfreq, -⟩, _, ⟨hbits, -⟩, _, ⟨hmin, rfl⟩, _, ⟨hmax, rfl⟩, _,
      ⟨hinvert, -⟩, _, ⟨hboot, -⟩, hspan, -, rfl⟩
    exact ⟨⟨pin, g₁, hclaim, rfl⟩, ⟨hfreq, hbits, hmin, hmax, hboot, hinvert, by simp⟩, hspan⟩
  · rintro ⟨⟨pin, g₁, hclaim, rfl⟩, ⟨hfreq, hbits, hmin, hmax, hboot, hinvert, -⟩, hspan⟩
    exact ⟨pin, g₁, hclaim, _, ⟨hfreq, rfl⟩, _, ⟨hbits, rfl⟩, _, ⟨hmin, rfl⟩, _, ⟨hmax, rfl⟩, _,
      ⟨hinvert, rfl⟩, _, ⟨hboot, rfl⟩, hspan, by simp, rfl⟩

theorem servo_begins (works : board.Works) :
    Begins board servoBegin servo fun b _ => WidthRule board b := by
  intro b g g'
  simp only [servoBegin, servo, bind_eq_ok, Prod.exists, ite_error_eq_ok, floatParam_ok,
    claimRoles_cons, claimRoles_nil, useOf, List.forall_mem_cons, reads_float, floatSpec_key,
    works.ledcAttach, Except.ok.injEq, not_or, not_lt, not_le]
  constructor
  · rintro ⟨pin, g₁, hclaim, _, ⟨hminUs, rfl⟩, _, ⟨hmaxUs, rfl⟩, _, ⟨hmin, -⟩, _, ⟨hmax, -⟩, _,
      ⟨hboot, -⟩, hwidth, -, rfl⟩
    exact ⟨⟨pin, g₁, hclaim, rfl⟩, ⟨hmin, hmax, hminUs, hmaxUs, hboot, by simp⟩, hwidth⟩
  · rintro ⟨⟨pin, g₁, hclaim, rfl⟩, ⟨hmin, hmax, hminUs, hmaxUs, hboot, -⟩, hwidth⟩
    exact ⟨pin, g₁, hclaim, _, ⟨hminUs, rfl⟩, _, ⟨hmaxUs, rfl⟩, _, ⟨hmin, rfl⟩, _, ⟨hmax, rfl⟩, _,
      ⟨hboot, rfl⟩, hwidth, by simp, rfl⟩

end

/-! ## Every driver of the catalog -/

/-- What a driver of the catalog asks beyond its roles and params. -/
def OwnRule [LinearOrder F] (board : Board F) (id : String) (b : Binding) (ready : Bool) : Prop :=
  match id with
  | "digital_in" => PullRule board.chip b
  | "pulse_counter" => PulseRule board b ∧ PullRule board.chip b
  | "mpu6050" => ready = true
  | "pwm" => SpanRule board b
  | "servo" => WidthRule board b
  | _ => True

theorem built_of_runsOn {spec : DriverSpec} (hspec : spec ∈ drivers) {model : BoardModel}
    (hruns : runsOn spec (some model) = true) : built model.chip spec.id = true := by
  refine List.any_eq_true.mpr ⟨spec, hspec, ?_⟩
  cases hchips : spec.chips with
  | none => simp
  | some chips => simpa [runsOn, hchips] using hruns

/-- An entry that is built is found under its id. -/
theorem find_entry {entries : List (Driver F)} (hnodup : (entries.map Driver.id).Nodup)
    {p : Driver F → Bool} {e : Driver F} (he : e ∈ entries) (hp : p e = true) :
    (entries.filter p).find? (fun d => d.id = e.id) = some e := by
  induction entries with
  | nil => cases he
  | cons d rest ih =>
    obtain ⟨hfresh, hrest⟩ := List.nodup_cons.mp hnodup
    rcases List.mem_cons.mp he with rfl | he
    · rw [List.filter_cons_of_pos hp, List.find?_cons_of_pos (by simp)]
    · have hne : d.id ≠ e.id := by
        intro heq
        exact hfresh (heq ▸ List.mem_map_of_mem he)
      rw [List.filter_cons]
      split
      · rw [List.find?_cons_of_neg (by simpa using hne)]
        exact ih hrest he
      · exact ih hrest he

variable [LinearOrder F]

/-- The entry of a driver of the catalog: its channels, and how it begins. -/
structure EntryOf (board : Board F) (spec : DriverSpec) (e : Driver F) : Prop where
  id : e.id = spec.id
  channels : spec.kind = .input → e.channels.Perm (spec.channels.map DriverChannelSpec.key)
  begins : Begins board e.begin spec (OwnRule board spec.id)

/-- **Every input of the catalog has its entry.** -/
theorem input_entry (board : Board F) {spec : DriverSpec} (hspec : spec ∈ drivers)
    (hkind : spec.kind = .input) : ∃ e ∈ inputEntries, EntryOf board spec e := by
  simp only [drivers, List.mem_cons, List.not_mem_nil, or_false] at hspec
  rcases hspec with rfl | rfl | rfl | rfl | rfl | rfl | rfl | rfl | rfl | rfl
  · exact ⟨inputEntries.get ⟨0, by simp [inputEntries]⟩, List.get_mem _ _, rfl,
      fun _ => .refl _, digitalIn_begins board⟩
  · exact ⟨inputEntries.get ⟨1, by simp [inputEntries]⟩, List.get_mem _ _, rfl,
      fun _ => .refl _, analogIn_begins board⟩
  · exact ⟨inputEntries.get ⟨2, by simp [inputEntries]⟩, List.get_mem _ _, rfl,
      fun _ => .refl _, ds18b20_begins board⟩
  · exact ⟨inputEntries.get ⟨3, by simp [inputEntries]⟩, List.get_mem _ _, rfl,
      fun _ => .refl _, dht22_begins board⟩
  · exact ⟨inputEntries.get ⟨4, by simp [inputEntries]⟩, List.get_mem _ _, rfl,
      fun _ => .refl _, pulseCounter_begins board⟩
  · exact ⟨inputEntries.get ⟨5, by simp [inputEntries]⟩, List.get_mem _ _, rfl,
      fun _ => .refl _, hcsr04_begins board⟩
  · exact ⟨inputEntries.get ⟨6, by simp [inputEntries]⟩, List.get_mem _ _, rfl,
      fun _ => (by decide : mpu6050Channels.Perm _), mpu6050_begins board⟩
  all_goals cases hkind

/-- **Every output of the catalog has its entry.** -/
theorem output_entry (board : Board F) (works : board.Works) {spec : DriverSpec}
    (hspec : spec ∈ drivers) (hkind : spec.kind = .output) :
    ∃ e ∈ outputEntries, EntryOf board spec e := by
  simp only [drivers, List.mem_cons, List.not_mem_nil, or_false] at hspec
  rcases hspec with rfl | rfl | rfl | rfl | rfl | rfl | rfl | rfl | rfl | rfl
  all_goals try cases hkind
  · exact ⟨outputEntries.get ⟨0, by simp [outputEntries]⟩, List.get_mem _ _, rfl,
      nofun, relay_begins board⟩
  · exact ⟨outputEntries.get ⟨1, by simp [outputEntries]⟩, List.get_mem _ _, rfl,
      nofun, pwm_begins board works⟩
  · exact ⟨outputEntries.get ⟨2, by simp [outputEntries]⟩, List.get_mem _ _, rfl,
      nofun, servo_begins board works⟩

end IotSaas.Firmware
