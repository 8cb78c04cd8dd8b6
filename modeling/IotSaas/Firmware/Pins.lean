import IotSaas.Lib.Dict
import IotSaas.Lib.Except
import IotSaas.Wiring.Validate
import Mathlib.Algebra.Order.Ring.Rat
import Mathlib.Data.Int.Cast.Lemmas
import Mathlib.Algebra.Order.Ring.Cast

/-!
# `Firmware/Pins.lean` — what a driver asks of its binding

`firmware/src/pins.cpp` and the helpers of `firmware/src/drivers/driver.h`: claiming a GPIO, and
reading a param out of a binding's JSON. Each helper gets a theorem that says when it answers and
with what, in terms of the JSON it finds; a driver's `begin` is then read line by line.

A binding arrives as JSON: numbers that are not finite were written as `null`. `long` and `int` have
32 bits. What a `float` holds of a number is a parameter of the board, and texts are C strings.
-/

set_option autoImplicit false

namespace IotSaas.Firmware

open Lib Catalog Editor Wiring

/-! ## JSON -/

/-- What stands in the config under a key. -/
inductive JsonVariant where
  | null
  | bool (b : Bool)
  | number (q : ℚ)
  | text (s : String)
  deriving DecidableEq

abbrev Binding := HardwareBinding (JsNumber ℚ)

/-- A param as `JSON.stringify` writes it. -/
def ofParam : Param → JsonVariant
  | .bool b => .bool b
  | .number (.finite q) => .number q
  | .number _ => .null
  | .text s => .text s

/-- `binding["params"][key]`. -/
def param (b : Binding) (key : String) : JsonVariant :=
  match b.params.lookup key with
  | some value => ofParam value
  | none => .null

/-- It fits an `int` or a `long`. -/
def fits (n : Int) : Bool := decide (-(2 : Int) ^ 31 ≤ n ∧ n < (2 : Int) ^ 31)

/-- `v.as<long>()`, where `v.is<long>()`. -/
def JsonVariant.asLong : JsonVariant → Option Int
  | .number q => if q.den = 1 ∧ fits q.num then some q.num else none
  | _ => none

/-- `v | def`, of a text. -/
def JsonVariant.textOr (v : JsonVariant) (default : String) : String :=
  match v with
  | .text s => s
  | _ => default

/-! ## The board -/

/-- A build, on its board: the chip, what a `float` holds of a number, and the hardware calls. -/
structure Board (F : Type) where
  chip : Chip
  asFloat : ℚ → F
  wireBegin : Int → Int → Bool
  ledcAttach : Int → Int → Int → Bool

variable {F : Type}

/-- The hardware calls succeed. -/
structure Board.Works (board : Board F) : Prop where
  wireBegin : ∀ sda scl, board.wireBegin sda scl = true
  ledcAttach : ∀ pin freq bits, board.ledcAttach pin freq bits = true

/-- What `pins.cpp` and `io.cpp` keep for the whole firmware: who owns a pin, and whether the I2C
bus runs. -/
structure Globals where
  owners : Dict Int String := Dict.empty
  i2cReady : Bool := false

/-! ## `pins.cpp` -/

inductive PinUse where
  | input | output | analog | bus
  deriving DecidableEq

/-- `USABLE`. -/
def usable : Chip → List Int
  | .esp32c3 => [0, 1, 3, 4, 5, 6, 7, 10, 20, 21]
  | .esp32 => [4, 13, 14, 16, 17, 18, 21, 22, 23, 25, 26, 27, 32, 33, 34, 35, 36, 39]
  | .esp32s3 =>
      [1, 2, 4, 5, 6, 7, 8, 9, 10, 11, 12, 13, 14, 15, 16, 17, 18, 21, 38, 39, 40, 41, 42, 47, 48]
  | .esp32c6 => [0, 1, 2, 3, 6, 7, 10, 11, 14, 18, 19, 20, 21, 22, 23]
  | .esp32s2 =>
      [1, 2, 3, 4, 5, 6, 7, 8, 9, 10, 11, 12, 13, 14, 16, 17, 18, 21, 33, 34, 35, 36, 37, 38, 39,
        40, 41, 42]

/-- `ADC1`. -/
def adc1 : Chip → List Int
  | .esp32c3 => [0, 1, 3, 4]
  | .esp32 => [32, 33, 34, 35, 36, 39]
  | .esp32s3 => [1, 2, 4, 5, 6, 7, 8, 9, 10]
  | .esp32c6 => [0, 1, 2, 3, 6]
  | .esp32s2 => [1, 2, 3, 4, 5, 6, 7, 8, 9, 10]

/-- `INPUT_ONLY`; -1 stands for none. -/
def inputOnly : Chip → List Int
  | .esp32 => [34, 35, 36, 39]
  | _ => [-1]

/-- `hasInternalPull`. -/
def hasPull (chip : Chip) (pin : Int) : Bool := decide (pin ∉ inputOnly chip)

/-- `reservePin`. -/
def reservePin (pin : Int) (owner : String) (g : Globals) : Globals :=
  if 0 ≤ pin then { g with owners := g.owners.set pin owner } else g

/-- `claimRawPin`. -/
def claimRawPin (chip : Chip) (pin : Int) (use : PinUse) (owner : String) (g : Globals) :
    Except String Globals :=
  let place := gpio pin ++ " (" ++ owner ++ ")"
  if pin ∉ usable chip then .error (place ++ " isn't a pin this board hands out")
  else if (use = .output ∨ use = .bus) ∧ pin ∈ inputOnly chip then
    .error (place ++ " is input-only")
  else if use = .analog ∧ pin ∉ adc1 chip then
    .error (place ++ " can't read analog while Wi-Fi is on (ADC1 pins only)")
  else
    match g.owners.get pin with
    | some taken => .error (place ++ " is already used by " ++ taken)
    | none => .ok { g with owners := g.owners.set pin owner }

/-- `claimPin`: the pin a binding has for a role. -/
def claimPin (chip : Chip) (b : Binding) (role : String) (use : PinUse) (g : Globals) :
    Except String (Int × Globals) :=
  let owner := b.driver ++ "." ++ role
  match b.pins.lookup role with
  | none => .error (owner ++ ": no pin set")
  | some pin =>
      if fits pin then do
        let g ← claimRawPin chip pin use owner g
        return (pin, g)
      else .error (owner ++ ": no pin set")

theorem claimPin_ok {chip : Chip} {b : Binding} {role : String} {use : PinUse} {g g' : Globals}
    {pin : Int} :
    claimPin chip b role use g = .ok (pin, g') ↔
      b.pins.lookup role = some pin ∧ fits pin = true ∧
        claimRawPin chip pin use (b.driver ++ "." ++ role) g = .ok g' := by
  unfold claimPin
  cases hpin : b.pins.lookup role with
  | none => simp
  | some p =>
    by_cases hfits : fits p = true
    · simp only [hfits, if_true, bind_eq_ok, pure_eq_ok, Prod.mk.injEq, Option.some.injEq]
      constructor
      · rintro ⟨_, hclaim, rfl, rfl⟩
        exact ⟨rfl, hfits, hclaim⟩
      · rintro ⟨rfl, _, hclaim⟩
        exact ⟨g', hclaim, rfl, rfl⟩
    · simp only [hfits, Bool.false_eq_true, if_false, reduceCtorEq, Option.some.injEq, false_iff]
      rintro ⟨rfl, h, _⟩
      exact hfits h

/-! ## Params -/

section

variable (b : Binding) (key : String)

/-- `intParam`. -/
def intParam (default min max : Int) : Except String Int :=
  match param b key with
  | .null => .ok default
  | v =>
      let refused := b.driver ++ ": " ++ key ++ " must be a whole number from " ++ toString min ++
        " to " ++ toString max
      match v.asLong with
      | some n => if n < min ∨ max < n then .error refused else .ok n
      | none => .error refused

/-- `floatParam`. -/
def floatParam (board : Board F) (default : F) : Except String F :=
  match param b key with
  | .null => .ok default
  | .number q => .ok (board.asFloat q)
  | _ => .error (b.driver ++ ": " ++ key ++ " must be a number")

/-- `boolParam`. -/
def boolParam (default : Bool) : Except String Bool :=
  match param b key with
  | .null => .ok default
  | .bool value => .ok value
  | _ => .error (b.driver ++ ": " ++ key ++ " must be true or false")

/-- `enumParam`. -/
def enumParam (default : String) (options : List String) : Except String String :=
  let value := (param b key).textOr default
  if value ∈ options then .ok value
  else .error (b.driver ++ ": " ++ key ++ " must be one of" ++
    String.join (options.map fun o => " " ++ o))

end

/-! ## What a driver reads -/

/-- A whole number of a range, or nothing. -/
def ReadsInt (min max : Int) (v : JsonVariant) : Prop :=
  v = .null ∨ ∃ n, v.asLong = some n ∧ min ≤ n ∧ n ≤ max

/-- A number, or nothing. -/
def ReadsFloat (v : JsonVariant) : Prop := v = .null ∨ ∃ q, v = .number q

/-- True or false, or nothing. -/
def ReadsBool (v : JsonVariant) : Prop := v = .null ∨ ∃ x, v = .bool x

/-- One of the options; what is not a text is read as the default. -/
def ReadsEnum (options : List String) (v : JsonVariant) : Prop := ∀ s, v = .text s → s ∈ options

theorem readsEnum_iff {options : List String} {v : JsonVariant} {default : String}
    (hdefault : default ∈ options) : ReadsEnum options v ↔ v.textOr default ∈ options := by
  cases v <;> simp [ReadsEnum, JsonVariant.textOr, hdefault]

/-- A value that the driver takes for a param of its catalog entry. -/
def Reads (v : JsonVariant) (spec : DriverParamSpec) : Prop :=
  match spec.type with
  | .int => v = .null ∨ ∃ n : Int, v.asLong = some n ∧ outOfRange spec n = false
  | .float => ReadsFloat v
  | .bool => ReadsBool v
  | .enum => ReadsEnum (spec.options.getD []) v

section

variable {v : JsonVariant} {key : String}

@[simp] theorem reads_int {default min max : Int} :
    Reads v (intSpec key default min max) ↔ ReadsInt min max v := by
  have hrange : ∀ n : Int, outOfRange (intSpec key default min max) n = false ↔
      min ≤ n ∧ n ≤ max := by
    intro n
    simp [outOfRange, intSpec, Int.cast_lt]
  show (_ ∨ ∃ n : Int, _ ∧ outOfRange (intSpec key default min max) n = false) ↔ _
  simp only [hrange]
  rfl

@[simp] theorem reads_float {default : ℚ} : Reads v (floatSpec key default) ↔ ReadsFloat v :=
  Iff.rfl

@[simp] theorem reads_bool : Reads v (boolSpec key) ↔ ReadsBool v := Iff.rfl

@[simp] theorem reads_enum {default : String} {options : List String} :
    Reads v (enumSpec key default options) ↔ ReadsEnum options v := Iff.rfl

end

section

variable (b : Binding) (key : String)

/-- What a float param is read as. -/
def floatAt (board : Board F) (default : F) : F :=
  match param b key with
  | .number q => board.asFloat q
  | _ => default

/-- What a whole-number param is read as. -/
def intAt (default : Int) : Int := (param b key).asLong.getD default

/-- What an on/off param is read as. -/
def boolAt (default : Bool) : Bool :=
  match param b key with
  | .bool value => value
  | _ => default

end

section

variable {b : Binding} {key : String}

@[simp] theorem intParam_ok {default min max n : Int} :
    intParam b key default min max = .ok n ↔
      ReadsInt min max (param b key) ∧ n = intAt b key default := by
  unfold intParam ReadsInt intAt
  cases param b key with
  | null => simp [JsonVariant.asLong, eq_comm]
  | bool x => simp [JsonVariant.asLong]
  | text s => simp [JsonVariant.asLong]
  | number q =>
    dsimp only
    cases (JsonVariant.number q).asLong with
    | none => simp
    | some m =>
      rw [ite_error_eq_ok]
      simp [eq_comm]

@[simp] theorem floatParam_ok {board : Board F} {default x : F} :
    floatParam b key board default = .ok x ↔
      ReadsFloat (param b key) ∧ x = floatAt b key board default := by
  unfold floatParam floatAt ReadsFloat
  cases param b key <;> simp [eq_comm]

@[simp] theorem boolParam_ok {default x : Bool} :
    boolParam b key default = .ok x ↔ ReadsBool (param b key) ∧ x = boolAt b key default := by
  unfold boolParam boolAt ReadsBool
  cases param b key <;> simp [eq_comm]

@[simp] theorem enumParam_ok {default : String} {options : List String} {x : String}
    (hdefault : default ∈ options) :
    enumParam b key default options = .ok x ↔
      ReadsEnum options (param b key) ∧ x = (param b key).textOr default := by
  unfold enumParam
  rw [readsEnum_iff hdefault]
  dsimp only
  split
  · simp [*, eq_comm]
  · simp [*]

end

end IotSaas.Firmware
