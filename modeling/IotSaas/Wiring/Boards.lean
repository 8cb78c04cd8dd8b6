import IotSaas.Editor.Draft
import Mathlib.Data.Rat.Defs

/-!
# `Wiring/Boards.lean` — the boards and their pins

`lib/hardware/board-pins.ts` and `firmware/boards.json`: which GPIOs a chip has for what, and which
of them a board has on its header. A board model keeps its reset button and its status LED off the
pins it offers, which the release checks before it publishes a model; here the model carries the
proof.

Labels of pins, default I2C pins, notes and capabilities are left out: nothing on the way to a
device's config reads them.
-/

set_option autoImplicit false

namespace IotSaas.Wiring

/-! ## Chips -/

/-- `SketchBoard`: the chips with a firmware build. -/
inductive Chip where
  | esp32 | esp32c3 | esp32s3 | esp32c6 | esp32s2
  deriving DecidableEq

def Chip.id : Chip → String
  | .esp32 => "esp32"
  | .esp32c3 => "esp32c3"
  | .esp32s3 => "esp32s3"
  | .esp32c6 => "esp32c6"
  | .esp32s2 => "esp32s2"

theorem Chip.id_injective {a b : Chip} (h : a.id = b.id) : a = b := by
  cases a <;> cases b <;> first | rfl | exact absurd h (by decide)

/-- What a pin role needs. -/
inductive PinNeed where
  | input | output | adc1 | bus
  deriving DecidableEq

structure ChipPins where
  usable : List Int
  adc1 : List Int
  inputOnly : List Int

/-- `CHIP_PINS`. -/
def chipPins : Chip → ChipPins
  | .esp32 =>
      { usable := [4, 13, 14, 16, 17, 18, 21, 22, 23, 25, 26, 27, 32, 33, 34, 35, 36, 39]
        adc1 := [32, 33, 34, 35, 36, 39]
        inputOnly := [34, 35, 36, 39] }
  | .esp32c3 =>
      { usable := [0, 1, 3, 4, 5, 6, 7, 10, 20, 21]
        adc1 := [0, 1, 3, 4]
        inputOnly := [] }
  | .esp32s3 =>
      { usable := [1, 2, 4, 5, 6, 7, 8, 9, 10, 11, 12, 13, 14, 15, 16, 17, 18, 21, 38, 39, 40, 41,
          42, 47, 48]
        adc1 := [1, 2, 4, 5, 6, 7, 8, 9, 10]
        inputOnly := [] }
  | .esp32c6 =>
      { usable := [0, 1, 2, 3, 6, 7, 10, 11, 14, 18, 19, 20, 21, 22, 23]
        adc1 := [0, 1, 2, 3, 6]
        inputOnly := [] }
  | .esp32s2 =>
      { usable := [1, 2, 3, 4, 5, 6, 7, 8, 9, 10, 11, 12, 13, 14, 16, 17, 18, 21, 33, 34, 35, 36,
          37, 38, 39, 40, 41, 42]
        adc1 := [1, 2, 3, 4, 5, 6, 7, 8, 9, 10]
        inputOnly := [] }

/-! ## Board models -/

/-- `led.type`. -/
inductive LedType where
  | gpio | rgb | none
  deriving DecidableEq

/-- The status LED; releases before LED types had plain GPIO LEDs only and no `type`. -/
structure Led where
  type : Option LedType := none
  pin : Int
  activeLow : Bool

/-- `led.type ?? "gpio"`. -/
def Led.kind (led : Led) : LedType := led.type.getD .gpio

/-- `BoardModel`. -/
structure BoardModel where
  id : String
  chip : Chip
  label : String
  pins : List Int
  resetPin : Int
  led : Led
  /-- `check_board_models`: the reset button is on none of the pins it offers … -/
  resetApart : resetPin ∉ pins := by decide
  /-- … and neither is the LED, where there is one. -/
  ledApart : led.kind ≠ .none → led.pin ∉ pins := by decide

/-- The models of `boards.json`. -/
def boardModels : List BoardModel :=
  [ { id := "esp32-devkit-30"
      chip := .esp32
      label := "ESP32 DevKit (30-pin)"
      pins := [4, 13, 14, 16, 17, 18, 21, 22, 23, 25, 26, 27, 32, 33, 34, 35, 36, 39]
      resetPin := 0
      led := { type := some .gpio, pin := 2, activeLow := false } },
    { id := "esp32-devkit-38"
      chip := .esp32
      label := "ESP32 DevKit (38-pin)"
      pins := [4, 13, 14, 16, 17, 18, 21, 22, 23, 25, 26, 27, 32, 33, 34, 35, 36, 39]
      resetPin := 0
      led := { type := some .gpio, pin := 2, activeLow := false } },
    { id := "esp32c3-supermini"
      chip := .esp32c3
      label := "ESP32-C3 Super Mini"
      pins := [0, 1, 3, 4, 5, 6, 7, 10, 20, 21]
      resetPin := 9
      led := { type := some .gpio, pin := 8, activeLow := true } },
    { id := "esp32s3-devkitc-1"
      chip := .esp32s3
      label := "ESP32-S3 DevKitC-1"
      pins := [1, 2, 4, 5, 6, 7, 8, 9, 10, 11, 12, 13, 14, 15, 16, 17, 18, 21, 38, 39, 40, 41, 42,
        47]
      resetPin := 0
      led := { type := some .rgb, pin := 48, activeLow := false } },
    { id := "esp32s3-devkitc-1-v11"
      chip := .esp32s3
      label := "ESP32-S3 DevKitC-1 v1.1"
      pins := [1, 2, 4, 5, 6, 7, 8, 9, 10, 11, 12, 13, 14, 15, 16, 17, 18, 21, 39, 40, 41, 42, 47,
        48]
      resetPin := 0
      led := { type := some .rgb, pin := 38, activeLow := false } },
    { id := "esp32c6-devkitc-1"
      chip := .esp32c6
      label := "ESP32-C6 DevKitC-1"
      pins := [0, 1, 2, 3, 6, 7, 10, 11, 14, 18, 19, 20, 21, 22, 23]
      resetPin := 9
      led := { type := some .rgb, pin := 8, activeLow := false } },
    { id := "lolin-s2-mini"
      chip := .esp32s2
      label := "Lolin S2 Mini"
      pins := [1, 2, 3, 4, 5, 6, 7, 8, 9, 10, 11, 12, 13, 14, 16, 17, 18, 21, 33, 34, 35, 36, 37,
        38, 39, 40]
      resetPin := 0
      led := { type := some .gpio, pin := 15, activeLow := false } } ]

/-- `resolveModel`: by model id, else the first model of the chip of that id. -/
def resolveModel (models : List BoardModel) (id : String) : Option BoardModel :=
  (models.find? fun m => m.id = id) <|> models.find? fun m => m.chip.id = id

/-- "GPIO 4". -/
def gpio (pin : Int) : String := "GPIO " ++ toString pin

/-- `pinProblem`: why a pin can't take this role on this board. -/
def pinProblem (model : BoardModel) (needs : PinNeed) (pin : Int) : Option String :=
  let chip := chipPins model.chip
  if pin ∉ model.pins ∨ pin ∉ chip.usable then
    some (gpio pin ++ " isn't free on the " ++ model.label ++ ". Pick another pin.")
  else if needs = .adc1 ∧ pin ∉ chip.adc1 then
    some (gpio pin ++ " can't read analog while Wi-Fi is on. Pick an ADC1 pin.")
  else if (needs = .output ∨ needs = .bus) ∧ pin ∈ chip.inputOnly then
    some (gpio pin ++ " is input-only. Pick another pin.")
  else none

/-- `hasInternalPull`. -/
def hasInternalPull (chip : Chip) (pin : Int) : Bool := decide (pin ∉ (chipPins chip).inputOnly)

/-- A pin on the header that can do what the role needs. -/
structure Suits (model : BoardModel) (needs : PinNeed) (pin : Int) : Prop where
  offered : pin ∈ model.pins
  usable : pin ∈ (chipPins model.chip).usable
  analog : needs = .adc1 → pin ∈ (chipPins model.chip).adc1
  drives : needs = .output ∨ needs = .bus → pin ∉ (chipPins model.chip).inputOnly

theorem pinProblem_none {model : BoardModel} {needs : PinNeed} {pin : Int} :
    pinProblem model needs pin = none ↔ Suits model needs pin := by
  unfold pinProblem
  dsimp only
  constructor
  · intro h
    split at h
    · cases h
    split at h
    · cases h
    split at h
    · cases h
    rename_i hfree hanalog hdrives
    simp only [not_or, not_not] at hfree
    exact ⟨hfree.1, hfree.2, fun hneeds => by simpa [hneeds] using hanalog,
      fun hneeds => by simpa [hneeds] using hdrives⟩
  · intro h
    rw [if_neg (by simp [h.offered, h.usable]), if_neg fun hn => hn.2 (h.analog hn.1),
      if_neg fun hn => h.drives hn.1 hn.2]

end IotSaas.Wiring
