import IotSaas.Firmware.Start

/-!
# `Firmware/Granted.lean` — the pins of the editor are granted

`pins.cpp` has the pin tables of `board-pins.ts` once more, in C++. They agree wherever it matters,
and so a pin that suits its role is granted while it is free: first one pin (`claimRawPin_suits`),
then the roles of a driver (`claimRoles_granted`), the I2C bus, and what `setup` keeps for itself.
-/

set_option autoImplicit false

namespace IotSaas.Firmware

open Lib Catalog Editor Wiring

/-! ## The tables -/

section

variable {chip : Chip} {pin : Int}

theorem usable_eq (chip : Chip) : usable chip = (chipPins chip).usable := by
  cases chip <;> rfl

theorem adc1_eq (chip : Chip) : adc1 chip = (chipPins chip).adc1 := by
  cases chip <;> rfl

theorem usable_fits (h : pin ∈ usable chip) : 0 ≤ pin ∧ fits pin = true := by
  have hall : ∀ pin ∈ usable chip, 0 ≤ pin ∧ fits pin = true := by
    cases chip <;> decide
  exact hall pin h

/-- The -1 of a table without input-only pins is no pin. -/
theorem inputOnly_iff (h : pin ∈ usable chip) :
    pin ∈ inputOnly chip ↔ pin ∈ (chipPins chip).inputOnly := by
  have hall : ∀ pin ∈ usable chip, pin ∈ inputOnly chip ↔ pin ∈ (chipPins chip).inputOnly := by
    cases chip <;> decide
  exact hall pin h

theorem hasPull_eq (h : pin ∈ usable chip) : hasPull chip pin = hasInternalPull chip pin := by
  simp [hasPull, hasInternalPull, inputOnly_iff h]

theorem defaultResetPin_apart (chip : Chip) : defaultResetPin chip ∉ usable chip := by
  cases chip <;> decide

end

/-! ## One pin -/

theorem claimRawPin_ok {chip : Chip} {pin : Int} {use : PinUse} {owner : String} {g g' : Globals} :
    claimRawPin chip pin use owner g = .ok g' ↔ pin ∈ usable chip ∧
      (use = .output ∨ use = .bus → pin ∉ inputOnly chip) ∧ (use = .analog → pin ∈ adc1 chip) ∧
        g.owners.get pin = none ∧ g' = { g with owners := g.owners.set pin owner } := by
  unfold claimRawPin
  dsimp only
  rw [ite_error_eq_ok, ite_error_eq_ok, ite_error_eq_ok, not_and, not_and, not_not, not_not]
  cases g.owners.get pin with
  | none => simp only [Except.ok.injEq, true_and, eq_comm (a := g')]
  | some taken => simp

section

variable {model : BoardModel} {needs : PinNeed} {pin : Int} {g : Globals}

theorem usable_of_suits (h : Suits model needs pin) : pin ∈ usable model.chip := by
  rw [usable_eq]
  exact h.usable

/-- A pin that suits its role is granted while it is free. -/
theorem claimRawPin_suits (h : Suits model needs pin) (hfree : g.owners.get pin = none)
    (owner : String) :
    claimRawPin model.chip pin (useOf needs) owner g =
      .ok { g with owners := g.owners.set pin owner } := by
  have husable := usable_of_suits h
  refine claimRawPin_ok.mpr ⟨husable, fun huse => ?_, fun huse => ?_, hfree, rfl⟩
  · rw [inputOnly_iff husable]
    apply h.drives
    cases needs <;> simp_all
  · rw [adc1_eq]
    apply h.analog
    cases needs <;> simp_all

end

theorem keeps_set (g : Globals) (pin : Int) (owner : String) {pins : List Int} (h : pin ∈ pins) :
    Keeps g { g with owners := g.owners.set pin owner } pins := by
  refine ⟨fun pin' hpin' => ?_, rfl⟩
  apply Dict.get_set_ne
  rintro rfl
  exact hpin' h

/-! ## The roles of a driver -/

/-- Two roles on one pin are one role, where no pin is there twice. -/
theorem role_unique {items : List (String × Int)} (hnodup : (items.map Prod.snd).Nodup)
    {role role' : String} {pin : Int} (h : items.lookup role = some pin)
    (h' : items.lookup role' = some pin) : role = role' := by
  have heq := List.inj_on_of_nodup_map hnodup (Record.mem_of_lookup h) (Record.mem_of_lookup h') rfl
  exact congrArg Prod.fst heq

section

variable {model : BoardModel} {b : Binding}

/-- Roles on free pins of their own, each of which suits its role, are claimed. -/
theorem claimRoles_granted (hpins : (b.pins.map Prod.snd).Nodup) {roles : List DriverPinSpec} :
    ∀ {g : Globals}, (roles.map DriverPinSpec.role).Nodup →
      (∀ role ∈ roles, ∃ pin, b.pins.lookup role.role = some pin ∧ Suits model role.needs pin ∧
        g.owners.get pin = none) →
      ∃ g', claimRoles model.chip b roles g = .ok g' := by
  induction roles with
  | nil => exact fun {g} _ _ => ⟨g, rfl⟩
  | cons role rest ih =>
    intro g hroles hsuits
    obtain ⟨hfresh, hroles⟩ := List.nodup_cons.mp hroles
    obtain ⟨⟨pin, hpin, hsuit, hfree⟩, hrest⟩ := List.forall_mem_cons.mp hsuits
    have hclaim := claimRawPin_suits hsuit hfree (b.driver ++ "." ++ role.role)
    have hfits := (usable_fits (usable_of_suits hsuit)).2
    have hrest' : ∀ role' ∈ rest, ∃ pin', b.pins.lookup role'.role = some pin' ∧
        Suits model role'.needs pin' ∧
          (g.owners.set pin (b.driver ++ "." ++ role.role)).get pin' = none := by
      intro role' hrole'
      obtain ⟨pin', hpin', hsuit', hfree'⟩ := hrest role' hrole'
      refine ⟨pin', hpin', hsuit', ?_⟩
      rw [Dict.get_set_ne _ _ _, hfree']
      rintro rfl
      exact hfresh (role_unique hpins hpin hpin' ▸ List.mem_map_of_mem hrole')
    obtain ⟨g', hg'⟩ :=
      ih (g := { g with owners := g.owners.set pin (b.driver ++ "." ++ role.role) }) hroles hrest'
    exact ⟨g', claimRoles_cons.mpr ⟨pin, _, claimPin_ok.mpr ⟨hpin, hfits, hclaim⟩, hg'⟩⟩

/-- Claiming roles touches the pins of these roles. -/
theorem claimRoles_keeps {chip : Chip} {pins : List Int} {roles : List DriverPinSpec} :
    ∀ {g g' : Globals}, (∀ role ∈ roles, ∀ pin, b.pins.lookup role.role = some pin → pin ∈ pins) →
      claimRoles chip b roles g = .ok g' → Keeps g g' pins := by
  induction roles with
  | nil =>
    intro g g' _ h
    rw [claimRoles_nil] at h
    exact h ▸ Keeps.refl g pins
  | cons role rest ih =>
    intro g g' hroles h
    obtain ⟨pin, g₁, hclaim, hrest⟩ := claimRoles_cons.mp h
    obtain ⟨hpin, _, hraw⟩ := claimPin_ok.mp hclaim
    obtain ⟨_, _, _, _, rfl⟩ := claimRawPin_ok.mp hraw
    have hmem := hroles role List.mem_cons_self pin hpin
    exact (keeps_set g pin _ hmem).trans
      (ih (fun role' hrole' => hroles role' (List.mem_cons_of_mem _ hrole')) hrest)

end

/-! ## The pins of a draft -/

theorem request_pins (js : Js) (catalog : Option (List DriverSpec)) (list : List KeyedRow)
    (b : BindingDraft) : (requestBinding js catalog list b).pins.map Prod.snd = picked b := by
  simp [requestBinding, picked, List.map_filterMap, Function.comp_def]

section

variable (js : Js) (list : List KeyedRow) {b : BindingDraft}

/-- Every driver of the catalog names its roles apart. -/
theorem roles_nodup {spec : DriverSpec} (h : spec ∈ drivers) :
    (spec.pins.map DriverPinSpec.role).Nodup := by
  have hall : ∀ spec ∈ drivers, (spec.pins.map DriverPinSpec.role).Nodup := by
    decide +kernel
  exact hall spec h

variable {model : BoardModel} {kind : Kind} {spec : DriverSpec}

theorem held_request (hspec : findDriver (some drivers) b.driver = some spec) :
    held (requestBinding js (some drivers) list b) =
      spec.pins.filterMap fun role => (b.pins.get role.role).join := by
  have hfound : findDriver (some drivers) (requestBinding js (some drivers) list b).driver =
      some spec := hspec
  simp only [held, hfound, Option.toList_some, List.flatMap_singleton, request_pin]

/-- A driver claims pins that are picked … -/
theorem held_subset (hspec : findDriver (some drivers) b.driver = some spec) :
    held (requestBinding js (some drivers) list b) ⊆ picked b := by
  rw [held_request js list hspec]
  intro pin hpin
  obtain ⟨role, _, hget⟩ := List.mem_filterMap.mp hpin
  rw [Option.join_eq_some_iff] at hget
  exact List.mem_filterMap.mpr ⟨_, Record.get_eq_some.mp hget, rfl⟩

/-- … each of them once. -/
theorem held_nodup (hspec : findDriver (some drivers) b.driver = some spec)
    (hpicked : (picked b).Nodup) : (held (requestBinding js (some drivers) list b)).Nodup := by
  have hpins := hpicked
  rw [← request_pins js (some drivers) list] at hpins
  have hroles := roles_nodup (findDriver_some hspec).1
  rw [held_request js list hspec]
  generalize spec.pins = roles at hroles
  induction roles with
  | nil => exact List.nodup_nil
  | cons role rest ih =>
    obtain ⟨hfresh, hrest⟩ := List.nodup_cons.mp hroles
    rw [List.filterMap_cons]
    cases hget : (b.pins.get role.role).join with
    | none => exact ih hrest
    | some pin =>
      refine List.nodup_cons.mpr ⟨fun hin => ?_, ih hrest⟩
      obtain ⟨role', hrole', hget'⟩ := List.mem_filterMap.mp hin
      rw [← request_pin js (some drivers) list] at hget hget'
      exact hfresh (role_unique hpins hget hget' ▸ List.mem_map_of_mem hrole')

end

end IotSaas.Firmware
