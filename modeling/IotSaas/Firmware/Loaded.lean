import IotSaas.Firmware.Granted

/-!
# `Firmware/Loaded.lean` — a loaded config, before its loops

What `loadConfig` made of a config, the pins `setup` keeps of it for the reset button and the LED,
and the I2C bus. None of this refuses a pin or a bus that the editor found in order.
-/

set_option autoImplicit false

namespace IotSaas.Firmware

open Lib Catalog Editor Wiring

variable {F : Type}

/-! ## What is loaded -/

theorem pinOr_eq (default : Int) (pin : Option Int) :
    pinOr default pin = default ∨ pin = some (pinOr default pin) := by
  unfold pinOr
  cases hpin : pin.filter fun pin => fits pin with
  | none => exact .inl rfl
  | some p => exact .inr (Option.filter_eq_some_iff.mp hpin).1

theorem pinOr_some {default pin : Int} (h : fits pin = true) : pinOr default (some pin) = pin := by
  simp [pinOr, Option.filter, h]

/-- The pin of the LED in a loaded config. -/
def ledPin (c : FirmwareConfig) : Int :=
  if c.boardIo.ledType = .none then -1 else pinOr (-1) (some c.boardIo.ledPin)

theorem loadConfig_ok {board : Board F} {c : FirmwareConfig} {cfg : DeviceConfig}
    (h : loadConfig board c = .ok cfg) : c.board = board.chip.id ∧ cfg =
      { tenant := c.tenant
        device := c.device
        i2cSda := pinOr (-1) (c.i2c.map I2cBus.sda)
        i2cScl := pinOr (-1) (c.i2c.map I2cBus.scl)
        resetPin := pinOr (defaultResetPin board.chip) (some c.boardIo.resetPin)
        ledType := c.boardIo.ledType
        ledPin := ledPin c
        ledActiveLow := c.boardIo.ledActiveLow
        metrics := c.metrics
        actuators := c.actuators
        inputs := c.inputs
        outputs := c.outputs } := by
  unfold loadConfig at h
  rw [ite_error_eq_ok, ite_error_eq_ok, ite_error_eq_ok, ite_error_eq_ok] at h
  obtain ⟨_, hboard, _, _, h⟩ := h
  dsimp only at h
  rw [ite_error_eq_ok, Except.ok.injEq] at h
  exact ⟨not_not.mp hboard, h.2.symm⟩

/-! ## Before the loops -/

theorem reservePin_get {p pin : Int} (owner : String) (g : Globals) (hne : p ≠ pin) :
    (reservePin p owner g).owners.get pin = g.owners.get pin := by
  unfold reservePin
  split
  · exact Dict.get_set_ne _ _ hne.symm
  · rfl

/-- What a config keeps of its model: the reset button and the LED. -/
def ModelPins (c : FirmwareConfig) (model : BoardModel) : Prop :=
  c.boardIo =
    { resetPin := model.resetPin
      ledType := model.led.kind
      ledPin := model.led.pin
      ledActiveLow := model.led.activeLow }

/-- A pin the model offers is not one that `setup` keeps. -/
theorem reserved_free {board : Board F} {model : BoardModel} {c : FirmwareConfig}
    {cfg : DeviceConfig} (hload : loadConfig board c = .ok cfg) (hio : ModelPins c model)
    (hchip : board.chip = model.chip) {needs : PinNeed} {pin : Int} (h : Suits model needs pin) :
    (reserved cfg).owners.get pin = none := by
  obtain ⟨_, rfl⟩ := loadConfig_ok hload
  have husable := usable_of_suits h
  have hpos := (usable_fits husable).1
  have hreset : pinOr (defaultResetPin board.chip) (some c.boardIo.resetPin) ≠ pin := by
    rintro heq
    rcases pinOr_eq (defaultResetPin board.chip) (some c.boardIo.resetPin) with hp | hp
    · rw [hp] at heq
      rw [← heq, hchip] at husable
      exact defaultResetPin_apart model.chip husable
    · rw [heq, Option.some.injEq, hio] at hp
      have hoffered := h.offered
      rw [← hp] at hoffered
      exact model.resetApart hoffered
  have hled : ledPin c ≠ pin := by
    intro heq
    unfold ledPin at heq
    split at heq
    · omega
    · rename_i hkind
      rcases pinOr_eq (-1) (some c.boardIo.ledPin) with hp | hp
      · omega
      · rw [heq, Option.some.injEq, hio] at hp
        rw [hio] at hkind
        have hoffered := h.offered
        rw [← hp] at hoffered
        exact model.ledApart hkind hoffered
  unfold reserved
  dsimp only
  rw [reservePin_get _ _ hled, reservePin_get _ _ hreset]
  rfl

theorem reserved_bus (cfg : DeviceConfig) : (reserved cfg).i2cReady = false := by
  unfold reserved reservePin
  split <;> split <;> rfl

/-- The bus starts on the pins of the editor, where there is one. -/
theorem beginBus_granted {board : Board F} (works : board.Works) {model : BoardModel}
    (hchip : board.chip = model.chip) {i2c : Option I2cBus} {g : Globals}
    (hlines : ∀ bus, i2c = some bus → Suits model .bus bus.sda ∧ Suits model .bus bus.scl)
    (hdistinct : (i2c.toList.flatMap fun bus => [bus.sda, bus.scl]).Nodup)
    (hfree : Free g (i2c.toList.flatMap fun bus => [bus.sda, bus.scl]))
    (hidle : g.i2cReady = false) :
    ∃ g₀, beginBus board (pinOr (-1) (i2c.map I2cBus.sda)) (pinOr (-1) (i2c.map I2cBus.scl)) g =
        .ok g₀ ∧ g₀.i2cReady = i2c.isSome ∧
      ∀ pin, pin ∉ i2c.toList.flatMap (fun bus => [bus.sda, bus.scl]) →
        g₀.owners.get pin = g.owners.get pin := by
  cases i2c with
  | none => exact ⟨g, rfl, hidle, fun _ _ => rfl⟩
  | some bus =>
    obtain ⟨hsda, hscl⟩ := hlines bus rfl
    simp only [Option.toList_some, List.flatMap_singleton, List.nodup_cons, List.mem_singleton,
      List.not_mem_nil, not_false_eq_true, List.nodup_nil, and_true] at hdistinct
    have hsdaFits := usable_fits (usable_of_suits hsda)
    have hsclFits := usable_fits (usable_of_suits hscl)
    have hclaimSda := claimRawPin_suits hsda (hfree bus.sda (by simp)) "i2c.sda"
    have hclaimScl := claimRawPin_suits (g := { g with owners := g.owners.set bus.sda "i2c.sda" })
      hscl (by
        show (g.owners.set bus.sda "i2c.sda").get bus.scl = none
        rw [Dict.get_set_ne _ _ (Ne.symm hdistinct)]
        exact hfree bus.scl (by simp)) "i2c.scl"
    refine ⟨{ owners := (g.owners.set bus.sda "i2c.sda").set bus.scl "i2c.scl", i2cReady := true },
      ?_, rfl, fun pin hpin => ?_⟩
    · simp only [Option.map_some, pinOr_some hsdaFits.2, pinOr_some hsclFits.2]
      unfold beginBus
      rw [if_pos (.inl hsdaFits.1), bind_eq_ok]
      refine ⟨_, hchip ▸ hclaimSda, bind_eq_ok.mpr ⟨_, hchip ▸ hclaimScl, ?_⟩⟩
      rw [if_pos (works.wireBegin _ _)]
    · simp only [Option.toList_some, List.flatMap_singleton, List.mem_cons, List.not_mem_nil,
        or_false, not_or] at hpin
      show ((g.owners.set bus.sda "i2c.sda").set bus.scl "i2c.scl").get pin = _
      rw [Dict.get_set_ne _ _ hpin.2, Dict.get_set_ne _ _ hpin.1]

end IotSaas.Firmware
