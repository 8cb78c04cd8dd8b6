import IotSaas.Lib.Allocation
import IotSaas.Wiring.Validate

/-!
# `Wiring/Move.lean` — wiring on another board

`moveToBoard` of `lib/hardware/hardware-draft.ts`. The I2C bus takes the new board's default pins,
each role keeps its pin if it still suits, and the others are given the first free one, outputs
before the pins that click at power-up. That is an allocation in two passes (`Lib/Allocation.lean`)
over the roles of all parts.

What it tells the author is short of one change: a bus that no driver of the catalog uses is
dropped, and `moved` does not say so. Otherwise the wiring is as promised, save that a part which
holds one pin in two roles keeps it in one (`rewired_iff`).
-/

set_option autoImplicit false

namespace IotSaas.Wiring

open Lib Catalog Editor

/-! ## Pins of a board -/

/-- A `BoardModel` with its default I2C pins. -/
structure BusBoardModel extends BoardModel where
  i2c : Option I2cBus

/-- `resolveModel`, of these. -/
def resolveBusModel (models : List BusBoardModel) (id : String) : Option BusBoardModel :=
  (models.find? fun m => m.id = id) <|> models.find? fun m => m.chip.id = id

/-- A `HardwareCatalog` of such boards; a pin's label is looked up by its driver and role. -/
structure BoardCatalog where
  drivers : List DriverSpec
  models : List BusBoardModel
  pinLabel : String → String → String

structure Pools where
  inputs : List Int
  outputs : List Int

/-- The pools of `BOARDS`. -/
def pools : Chip → Pools
  | .esp32 =>
      { inputs := [4, 13, 14, 16, 17, 18]
        outputs := [23, 27, 26, 25, 33, 32, 21, 22] }
  | .esp32c3 =>
      { inputs := [4, 5, 6, 7, 10]
        outputs := [3, 1, 0, 20, 21] }
  | .esp32s3 =>
      { inputs := [4, 5, 6, 7, 15, 16, 17, 18]
        outputs := [10, 11, 12, 13, 14, 21, 47, 8, 9] }
  | .esp32c6 =>
      { inputs := [2, 3, 6, 7, 10, 11]
        outputs := [18, 19, 20, 21, 14, 0, 1, 23, 22] }
  | .esp32s2 =>
      { inputs := [3, 4, 5, 6, 7, 8, 9, 10]
        outputs := [11, 12, 13, 14, 16, 17, 18, 21, 33, 35] }

/-- `pinsFor`. -/
def pinsFor (model : BoardModel) (needs : PinNeed) : List Int :=
  let chip := chipPins model.chip
  let usable := model.pins.filter fun p => chip.usable.contains p
  match needs with
  | .adc1 => usable.filter fun p => chip.adc1.contains p
  | .output | .bus => usable.filter fun p => !chip.inputOnly.contains p
  | .input => usable

/-- `preferredPins`. -/
def preferredPins (model : BoardModel) (needs : PinNeed) : List Int :=
  let allowed := pinsFor model needs
  let pool :=
    match needs with
    | .output | .bus => (pools model.chip).outputs
    | .input => (pools model.chip).inputs
    | .adc1 => []
  (pool.filter fun p => allowed.contains p) ++ allowed.filter fun p => !pool.contains p

theorem mem_pinsFor {model : BoardModel} {needs : PinNeed} {p : Int} :
    p ∈ pinsFor model needs ↔ Suits model needs p := by
  constructor
  · intro h
    cases needs with
    | input =>
      simp only [pinsFor, List.mem_filter, List.contains_iff_mem] at h
      exact ⟨h.1, h.2, fun hn => (by cases hn), fun hn => (by simp at hn)⟩
    | adc1 =>
      simp only [pinsFor, List.mem_filter, List.contains_iff_mem] at h
      exact ⟨h.1.1, h.1.2, fun _ => h.2, fun hn => (by simp at hn)⟩
    | output | bus =>
      simp only [pinsFor, List.mem_filter, Bool.not_eq_true', List.contains_eq_mem,
        decide_eq_false_iff_not] at h
      exact ⟨h.1.1, by simpa using h.1.2, fun hn => (by cases hn), fun _ => h.2⟩
  · intro h
    cases needs with
    | input => simp [pinsFor, h.offered, h.usable]
    | adc1 => simp [pinsFor, h.offered, h.usable, h.analog rfl]
    | output => simp [pinsFor, h.offered, h.usable, h.drives (.inl rfl)]
    | bus => simp [pinsFor, h.offered, h.usable, h.drives (.inr rfl)]

/-- The preference is an order of what suits. -/
theorem mem_preferredPins {model : BoardModel} {needs : PinNeed} {p : Int} :
    p ∈ preferredPins model needs ↔ Suits model needs p := by
  rw [← mem_pinsFor]
  unfold preferredPins
  dsimp only
  rw [List.mem_append, List.mem_filter, List.mem_filter, List.contains_iff_mem]
  constructor
  · rintro (⟨-, h⟩ | ⟨h, -⟩)
    · exact h
    · exact h
  · intro h
    by_cases hpool : (match needs with
        | .output | .bus => (pools model.chip).outputs
        | .input => (pools model.chip).inputs
        | .adc1 => []).contains p = true
    · exact .inl ⟨List.contains_iff_mem.mp hpool, h⟩
    · exact .inr ⟨h, by simpa using hpool⟩

/-! ## Roles -/

/-- The key of `placed`: `inputs.0.pin`. -/
structure Slot where
  kind : Kind
  i : Nat
  role : String
  deriving DecidableEq

/-- A role of a part, with its pin. -/
structure PinRole where
  slot : Slot
  pin : Option Int
  needs : PinNeed
  owner : String

section

variable (js : Js) (catalog : BoardCatalog)

def pinRole (kind : Kind) (i : Nat) (b : BindingDraft) (entry : String × Option Int) : PinRole :=
  let spec := findDriver (some catalog.drivers) b.driver
  let p := spec.bind fun spec => spec.pins.find? fun x => x.role = entry.1
  let label := if p.isSome then catalog.pinLabel b.driver entry.1 else entry.1
  { slot := ⟨kind, i, entry.1⟩
    pin := entry.2
    needs := (p.map DriverPinSpec.needs).getD .input
    owner := (spec.map DriverSpec.label).getD b.driver ++ " " ++ js.toLowerCase label }

/-- `roles`. -/
def roles (h : HardwareDraft) (kind : Kind) : List PinRole :=
  (h.bindings kind).zipIdx.flatMap fun item =>
    item.1.pins.items.map (pinRole js catalog kind item.2 item.1)

/-- `all`. -/
def allRoles (h : HardwareDraft) : List PinRole :=
  roles js catalog h .input ++ roles js catalog h .output

end

/-- What a role asks for on a board. -/
def PinRole.request (model : BoardModel) (r : PinRole) : Request Slot Int :=
  { slot := r.slot
    wish := r.pin
    fits := fun p => (pinProblem model r.needs p).isNone
    prefer := preferredPins model r.needs }

/-! ## `moveToBoard` -/

/-- `MovedPin`. -/
structure MovedPin where
  owner : String
  fromPin : Int
  toPin : Option Int
  deriving DecidableEq

/-- What `moveToBoard` returns. -/
structure BoardMove where
  hardware : HardwareDraft
  moved : List MovedPin
  unsupported : List String

/-- The bus on a board: `usesI2c(h, catalog) && model.i2c`. -/
def busOn (h : HardwareDraft) (catalog : BoardCatalog) (model : BusBoardModel) :
    Option I2cBus :=
  if usesI2c h (some catalog.drivers) = true then model.i2c else none

def busLines (i2c : Option I2cBus) : List Int := i2c.toList.flatMap fun bus => [bus.sda, bus.scl]

/-- What is told of a bus that is put on `bus`. -/
def movedBus (old : Option I2cBus) (bus : I2cBus) : List MovedPin :=
  match old with
  | none => []
  | some old =>
      (if old.sda ≠ bus.sda then [⟨"the I2C bus (SDA)", old.sda, some bus.sda⟩] else []) ++
        if old.scl ≠ bus.scl then [⟨"the I2C bus (SCL)", old.scl, some bus.scl⟩] else []

/-- The second loop, with `moved`. -/
def placeRole (model : BoardModel) (state : Allocation Slot Int × List MovedPin) (r : PinRole) :
    Allocation Slot Int × List MovedPin :=
  if (state.1.placed r.slot).isSome then state
  else
    let free := (preferredPins model r.needs).find? fun n => decide (n ∉ state.1.taken)
    (state.1.put r.slot free,
      match r.pin with
      | some pin => state.2 ++ [⟨r.owner, pin, free⟩]
      | none => state.2)

/-- A part on the pins its roles were given. -/
def rebound (placed : Slot → Option (Option Int)) (kind : Kind) (item : BindingDraft × Nat) :
    BindingDraft :=
  { item.1 with
    pins :=
      { items := item.1.pins.items.map fun entry =>
          (entry.1, (placed ⟨kind, item.2, entry.1⟩).join)
        nodup := by
          rw [List.map_map]
          exact item.1.pins.nodup } }

/-- `rebind`. -/
def rebind (placed : Slot → Option (Option Int)) (kind : Kind) (bindings : List BindingDraft) :
    List BindingDraft :=
  bindings.zipIdx.map (rebound placed kind)

/-- The parts that the board's firmware lacks, each label once. -/
def unsupportedOn (h : HardwareDraft) (catalog : BoardCatalog) (model : BoardModel) :
    List String :=
  let specs := (h.inputs ++ h.outputs).filterMap fun b =>
    findDriver (some catalog.drivers) b.driver
  ((specs.filter fun spec => !runsOn spec (some model)).map DriverSpec.label).eraseDups

section

variable (js : Js) (catalog : BoardCatalog) (h : HardwareDraft) (model : BusBoardModel)

/-- Who keeps their pin: the first loop. -/
def keptPins : Allocation Slot Int :=
  (Allocation.start (busLines (busOn h catalog model))).keepAll
    ((allRoles js catalog h).map (PinRole.request model.toBoardModel))

/-- Both loops. -/
def placing : Allocation Slot Int × List MovedPin :=
  (allRoles js catalog h).foldl (placeRole model.toBoardModel)
    (keptPins js catalog h model, (busOn h catalog model).toList.flatMap (movedBus h.i2c))

/-- `moveToBoard`. -/
def moveToBoard (h : HardwareDraft) (board : String) (catalog : BoardCatalog) : BoardMove :=
  match resolveBusModel catalog.models board with
  | none => { hardware := { h with board, i2c := none }, moved := [], unsupported := [] }
  | some model =>
      let (alloc, moved) := placing js catalog h model
      { hardware :=
          { board := model.id
            i2c := busOn h catalog model
            inputs := rebind alloc.placed .input h.inputs
            outputs := rebind alloc.placed .output h.outputs }
        moved
        unsupported := unsupportedOn h catalog model.toBoardModel }

end

/-! ## The roles of a draft -/

/-- A part that comes before another: inputs before outputs, then by their places. -/
def Slot.Earlier (s t : Slot) : Prop :=
  s.kind = .input ∧ t.kind = .output ∨ s.kind = t.kind ∧ s.i < t.i

def Slot.SamePart (s t : Slot) : Prop := s.kind = t.kind ∧ s.i = t.i

/-- The pin that a draft has in a role. -/
def HardwareDraft.pinAt (h : HardwareDraft) (s : Slot) : Option Int :=
  ((h.bindings s.kind)[s.i]?.bind fun b => b.pins.get s.role).join

section

variable {js : Js} {catalog : BoardCatalog} {h : HardwareDraft} {r : PinRole}

theorem mem_roles {kind : Kind} : r ∈ roles js catalog h kind ↔ ∃ i b, ∃ entry ∈ b.pins.items,
    (h.bindings kind)[i]? = some b ∧ pinRole js catalog kind i b entry = r := by
  simp only [roles, List.mem_flatMap, List.mem_map]
  constructor
  · rintro ⟨⟨b, i⟩, hb, entry, hentry, hr⟩
    exact ⟨i, b, entry, hentry, List.mem_zipIdx_iff_getElem?.mp hb, hr⟩
  · rintro ⟨i, b, entry, hentry, hb, hr⟩
    exact ⟨(b, i), List.mem_zipIdx_iff_getElem?.mpr hb, entry, hentry, hr⟩

theorem kind_of_mem_roles {kind : Kind} (hr : r ∈ roles js catalog h kind) :
    r.slot.kind = kind := by
  obtain ⟨i, b, entry, -, -, rfl⟩ := mem_roles.mp hr
  rfl

theorem mem_allRoles : r ∈ allRoles js catalog h ↔ r ∈ roles js catalog h r.slot.kind := by
  rw [allRoles, List.mem_append]
  constructor
  · rintro (hr | hr)
    · rwa [kind_of_mem_roles hr]
    · rwa [kind_of_mem_roles hr]
  · intro hr
    cases hkind : r.slot.kind with
    | input => exact .inl (hkind ▸ hr)
    | output => exact .inr (hkind ▸ hr)

/-- A role has the pin that the draft has there. -/
theorem pinAt_of_mem (hr : r ∈ allRoles js catalog h) : h.pinAt r.slot = r.pin := by
  obtain ⟨i, b, entry, hentry, hb, hrole⟩ := mem_roles.mp (mem_allRoles.mp hr)
  have hslot : r.slot = ⟨r.slot.kind, i, entry.1⟩ := by
    rw [← hrole]
    rfl
  have hget : b.pins.get entry.1 = some entry.2 := Record.get_eq_some.mpr hentry
  rw [hslot, HardwareDraft.pinAt]
  simp only [hb, Option.bind_some, hget, Option.join_some]
  rw [← hrole]
  rfl

/-- The roles come part by part, and each once. -/
theorem allRoles_pairwise (js : Js) (catalog : BoardCatalog) (h : HardwareDraft) :
    (allRoles js catalog h).Pairwise fun r t =>
      r.slot ≠ t.slot ∧ (r.slot.Earlier t.slot ∨ r.slot.SamePart t.slot) := by
  have hkind : ∀ kind, (roles js catalog h kind).Pairwise fun r t =>
      r.slot ≠ t.slot ∧ (r.slot.Earlier t.slot ∨ r.slot.SamePart t.slot) := by
    intro kind
    refine List.pairwise_flatMap.mpr ⟨fun item _ => ?_, ?_⟩
    · refine List.pairwise_map.mpr ((List.pairwise_map.mp item.1.pins.nodup).imp fun hne => ?_)
      exact ⟨fun heq => hne (congrArg Slot.role heq), .inr ⟨rfl, rfl⟩⟩
    · have hplaces : (h.bindings kind).zipIdx.Pairwise fun a b => a.2 < b.2 := by
        have hrange := List.pairwise_lt_range' (s := 0) (n := (h.bindings kind).length)
        rw [← List.zipIdx_map_snd 0 (h.bindings kind)] at hrange
        exact List.pairwise_map.mp hrange
      refine hplaces.imp fun hlt r hr t ht => ?_
      obtain ⟨entry, -, rfl⟩ := List.mem_map.mp hr
      obtain ⟨entry', -, rfl⟩ := List.mem_map.mp ht
      exact ⟨fun heq => absurd (congrArg Slot.i heq) (Nat.ne_of_lt hlt), .inl (.inr ⟨rfl, hlt⟩)⟩
  refine List.pairwise_append.mpr ⟨hkind .input, hkind .output, fun r hr t ht => ?_⟩
  have hr := kind_of_mem_roles hr
  have ht := kind_of_mem_roles ht
  exact ⟨fun heq => by simp [heq, ht] at hr, .inl (.inl ⟨hr, ht⟩)⟩

theorem slots_nodup (js : Js) (catalog : BoardCatalog) (h : HardwareDraft) :
    ((allRoles js catalog h).map PinRole.slot).Nodup :=
  List.pairwise_map.mpr ((allRoles_pairwise js catalog h).imp And.left)

theorem role_eq {t : PinRole} (hr : r ∈ allRoles js catalog h) (ht : t ∈ allRoles js catalog h)
    (hslot : r.slot = t.slot) : r = t :=
  List.inj_on_of_nodup_map (slots_nodup js catalog h) hr ht hslot

/-- The pins in use are those of the bus and of the roles. -/
theorem usedPins_roles (js : Js) (catalog : BoardCatalog) (h : HardwareDraft) :
    (usedPins h).map UsedPin.pin =
      busLines h.i2c ++ (allRoles js catalog h).filterMap PinRole.pin := by
  have hkind : ∀ kind, (roles js catalog h kind).filterMap PinRole.pin =
      (h.bindings kind).flatMap picked := by
    intro kind
    have hitem : ∀ item : BindingDraft × Nat,
        (item.1.pins.items.map (pinRole js catalog kind item.2 item.1)).filterMap PinRole.pin =
          picked item.1 := fun item => by
      rw [List.filterMap_map]
      rfl
    rw [roles, List.filterMap_flatMap]
    simp only [hitem]
    conv_rhs => rw [← List.zipIdx_map_fst 0 (h.bindings kind), List.flatMap_map]
  rw [usedPins_eq, allRoles, List.filterMap_append, hkind, hkind]
  rfl

end

/-! ## The roles on the new board -/

section

variable {js : Js} {catalog : BoardCatalog} {h : HardwareDraft} {model : BusBoardModel}

/-- A draft whose parts were rebound. -/
def HardwareDraft.onPins (h : HardwareDraft) (board : String) (i2c : Option I2cBus)
    (placed : Slot → Option (Option Int)) : HardwareDraft :=
  { board, i2c, inputs := rebind placed .input h.inputs, outputs := rebind placed .output h.outputs }

theorem allRoles_onPins (board : String) (i2c : Option I2cBus)
    (placed : Slot → Option (Option Int)) : allRoles js catalog (h.onPins board i2c placed) =
      (allRoles js catalog h).map fun r => { r with pin := (placed r.slot).join } := by
  have hkind : ∀ kind, roles js catalog (h.onPins board i2c placed) kind =
      (roles js catalog h kind).map fun r => { r with pin := (placed r.slot).join } := by
    intro kind
    have hbindings : (h.onPins board i2c placed).bindings kind =
        rebind placed kind (h.bindings kind) := by
      cases kind with
      | input => rfl
      | output => rfl
    have hzip : (rebind placed kind (h.bindings kind)).zipIdx =
        (h.bindings kind).zipIdx.map fun item => (rebound placed kind item, item.2) := by
      refine List.ext_getElem? fun i => ?_
      simp only [rebind, List.getElem?_zipIdx, List.getElem?_map, Option.map_map]
      rfl
    rw [roles, hbindings, hzip, roles, List.flatMap_map, List.map_flatMap]
    refine List.flatMap_congr fun item _ => ?_
    simp only [rebound, List.map_map]
    rfl
  rw [allRoles, hkind, hkind, allRoles, List.map_append]

/-- What a role is given is found in the draft again. -/
theorem pinAt_onPins {r : PinRole} (hr : r ∈ allRoles js catalog h) (board : String)
    (i2c : Option I2cBus) (placed : Slot → Option (Option Int)) :
    (h.onPins board i2c placed).pinAt r.slot = (placed r.slot).join := by
  have hmem : { r with pin := (placed r.slot).join } ∈
      allRoles js catalog (h.onPins board i2c placed) := by
    rw [allRoles_onPins]
    exact List.mem_map_of_mem hr
  exact pinAt_of_mem hmem

/-! ## Both loops -/

/-- What a role is told of, once everything is placed. -/
def movedRole (keptAt finalAt : Slot → Option (Option Int)) (r : PinRole) : Option MovedPin :=
  if (keptAt r.slot).isSome then none
  else r.pin.map fun pin => ⟨r.owner, pin, (finalAt r.slot).join⟩

theorem placeRole_foldl {model : BoardModel} {rs : List PinRole}
    (hslots : (rs.map PinRole.slot).Nodup) (a : Allocation Slot Int) (told : List MovedPin) :
    rs.foldl (placeRole model) (a, told) =
      (a.fillAll (rs.map (PinRole.request model)), told ++ rs.filterMap
        (movedRole a.placed (a.fillAll (rs.map (PinRole.request model))).placed)) := by
  induction rs generalizing a told with
  | nil => simp [Allocation.fillAll]
  | cons r rest ih =>
    obtain ⟨hfresh, hrest⟩ := List.nodup_cons.mp hslots
    have hfill : a.fillAll ((r :: rest).map (PinRole.request model)) =
        (a.fill (r.request model)).fillAll (rest.map (PinRole.request model)) := rfl
    cases hturn : a.placed r.slot with
    | some v =>
      have hsame : a.fill (r.request model) = a := Allocation.fill_of_placed hturn
      have hstep : placeRole model (a, told) r = (a, told) := if_pos (by simp [hturn])
      have hnothing : movedRole a.placed
          (a.fillAll ((r :: rest).map (PinRole.request model))).placed r = none :=
        if_pos (by simp [hturn])
      rw [List.foldl_cons, hstep, ih hrest, List.filterMap_cons_none hnothing, hfill, hsame]
    | none =>
      let free := (preferredPins model r.needs).find? fun n => decide (n ∉ a.taken)
      have hput : a.fill (r.request model) = a.put r.slot free := Allocation.fill_of_none hturn
      have hstep : placeRole model (a, told) r = (a.put r.slot free, told ++
          (r.pin.map fun pin => MovedPin.mk r.owner pin free).toList) := by
        unfold placeRole
        rw [if_neg (by simp [hturn])]
        cases r.pin with
        | none => simp [free]
        | some pin => rfl
      have hfinal : ((a.put r.slot free).fillAll (rest.map (PinRole.request model))).placed r.slot =
          some free := Allocation.fillAll_placed (Allocation.placed_put ..)
      have hothers : rest.filterMap (movedRole (a.put r.slot free).placed
            ((a.put r.slot free).fillAll (rest.map (PinRole.request model))).placed) =
          rest.filterMap (movedRole a.placed
            ((a.put r.slot free).fillAll (rest.map (PinRole.request model))).placed) := by
        refine List.filterMap_congr fun t ht => ?_
        have hne : t.slot ≠ r.slot := fun heq => hfresh (heq ▸ List.mem_map_of_mem ht)
        rw [movedRole, Allocation.placed_put_of_ne _ _ hne]
        rfl
      rw [List.foldl_cons, hstep, ih hrest, hothers, hfill, hput, List.append_assoc]
      have htold : movedRole a.placed
          ((a.put r.slot free).fillAll (rest.map (PinRole.request model))).placed r =
          r.pin.map fun pin => MovedPin.mk r.owner pin free := by
        rw [movedRole, if_neg (by simp [hturn]), hfinal]
        rfl
      congr 2
      rw [List.filterMap_cons, htold]
      cases r.pin with
      | none => rfl
      | some pin => rfl

variable (js catalog h model)

/-- Where everything is in the end. -/
def finalPins : Allocation Slot Int :=
  (keptPins js catalog h model).fillAll
    ((allRoles js catalog h).map (PinRole.request model.toBoardModel))

theorem placing_eq : placing js catalog h model =
    (finalPins js catalog h model, (busOn h catalog model).toList.flatMap (movedBus h.i2c) ++
      (allRoles js catalog h).filterMap
        (movedRole (keptPins js catalog h model).placed (finalPins js catalog h model).placed)) :=
  placeRole_foldl (slots_nodup js catalog h) _ _

theorem request_slots (rs : List PinRole) : (rs.map (PinRole.request model.toBoardModel)).map
    Request.slot = rs.map PinRole.slot := by
  rw [List.map_map]
  rfl

theorem kept_sound : (keptPins js catalog h model).Sound (busLines (busOn h catalog model)) := by
  refine Allocation.keepAll_sound ?_
  rw [request_slots]
  exact slots_nodup js catalog h

theorem final_sound : (finalPins js catalog h model).Sound (busLines (busOn h catalog model)) :=
  Allocation.fillAll_sound (kept_sound js catalog h model) _

variable {js catalog h model}

section

variable {r : PinRole} (hr : r ∈ allRoles js catalog h)

include hr

/-- What is kept is the role's own pin. -/
theorem kept_pin {v : Option Int} (hv : (keptPins js catalog h model).placed r.slot = some v) :
    ∃ p, v = some p ∧ r.pin = some p ∧ pinProblem model.toBoardModel r.needs p = none := by
  obtain ⟨request, hrequest, hslot, p, hp, hwish, hfits⟩ := Allocation.keepAll_wish hv
  obtain ⟨t, ht, rfl⟩ := List.mem_map.mp hrequest
  cases role_eq ht hr hslot
  exact ⟨p, hp, hwish, Option.isNone_iff_eq_none.mp hfits⟩

theorem final_some : ∃ v, (finalPins js catalog h model).placed r.slot = some v :=
  Allocation.fillAll_isSome (List.mem_map_of_mem hr)

theorem final_suits {p : Int} (hp : (finalPins js catalog h model).placed r.slot = some (some p)) :
    pinProblem model.toBoardModel r.needs p = none := by
  rcases Allocation.fillAll_prefer hp with hkept | ⟨-, request, hrequest, hslot, hprefer⟩
  · obtain ⟨q, hq, -, hsuits⟩ := kept_pin hr hkept
    cases hq
    exact hsuits
  · obtain ⟨t, ht, rfl⟩ := List.mem_map.mp hrequest
    cases role_eq ht hr hslot
    exact pinProblem_none.mpr (mem_preferredPins.mp (hprefer p rfl))

/-- A role that does not keep its pin is not given it again. -/
theorem final_moved (hnone : (keptPins js catalog h model).placed r.slot = none) {p : Int}
    (hpin : r.pin = some p) : (finalPins js catalog h model).placed r.slot ≠ some (some p) := by
  intro hfinal
  have hfits : (r.request model.toBoardModel).fits p = true :=
    Option.isNone_iff_eq_none.mpr (final_suits hr hfinal)
  have htaken : p ∈ (keptPins js catalog h model).taken :=
    Allocation.mem_taken_keepAll (List.mem_map_of_mem hr) hpin hfits
  rcases ((kept_sound js catalog h model).taken_iff p).mp htaken with hbus | ⟨s, hs⟩
  · exact (final_sound js catalog h model).apart _ p hfinal hbus
  · have hsame := (final_sound js catalog h model).distinct _ _ p hfinal
      (Allocation.fillAll_placed hs)
    rw [← hsame, hnone] at hs
    cases hs

end

/-- **A role keeps its pin**, unless a role before it keeps that one. -/
theorem final_kept {before after : List PinRole} {r : PinRole}
    (hall : allRoles js catalog h = before ++ r :: after) {p : Int} (hpin : r.pin = some p)
    (hsuits : pinProblem model.toBoardModel r.needs p = none)
    (hbus : p ∉ busLines (busOn h catalog model)) :
    (finalPins js catalog h model).placed r.slot = some (some p) ∨ ∃ t ∈ before, t.pin = some p ∧
      pinProblem model.toBoardModel t.needs p = none := by
  have hrequests : (allRoles js catalog h).map (PinRole.request model.toBoardModel) =
      before.map (PinRole.request model.toBoardModel) ++ r.request model.toBoardModel ::
        after.map (PinRole.request model.toBoardModel) := by
    rw [hall, List.map_append, List.map_cons]
  have hslots := slots_nodup js catalog h
  rw [← request_slots model, hrequests] at hslots
  have hfits : (r.request model.toBoardModel).fits p = true := Option.isNone_iff_eq_none.mpr hsuits
  rcases Allocation.keepAll_kept hslots hpin hfits hbus with hkept | ⟨request, hrequest, hwish, hfits⟩
  · rw [← hrequests] at hkept
    exact .inl (Allocation.fillAll_placed hkept)
  · obtain ⟨t, ht, rfl⟩ := List.mem_map.mp hrequest
    exact .inr ⟨t, ht, hwish, Option.isNone_iff_eq_none.mp hfits⟩

/-- **Somebody keeps a pin** that a role has and could keep: the role itself, or one before it. -/
theorem final_keeper : ∀ {before after : List PinRole} {r : PinRole},
    allRoles js catalog h = before ++ r :: after → ∀ {p : Int}, r.pin = some p →
    pinProblem model.toBoardModel r.needs p = none → p ∉ busLines (busOn h catalog model) →
    ∃ t ∈ before ++ [r], t.pin = some p ∧
      (finalPins js catalog h model).placed t.slot = some (some p) := by
  intro before
  induction hlength : before.length using Nat.strong_induction_on generalizing before with
  | _ n ih =>
    intro after r hall p hpin hsuits hbus
    rcases final_kept hall hpin hsuits hbus with hkept | ⟨t, ht, htpin, htsuits⟩
    · exact ⟨r, by simp, hpin, hkept⟩
    · obtain ⟨first, second, rfl⟩ := List.append_of_mem ht
      obtain ⟨u, hu, hkeeps⟩ := ih first.length (by rw [← hlength]; simp) rfl
        (by rw [hall, List.append_assoc]; rfl) htpin htsuits hbus
      refine ⟨u, ?_, hkeeps⟩
      rcases List.mem_append.mp hu with hu | hu
      · simp [hu]
      · simp [List.mem_singleton.mp hu]

/-- **A role is left without a pin** if all that suit it were gone. -/
theorem final_empty {before after : List PinRole} {r : PinRole}
    (hall : allRoles js catalog h = before ++ r :: after)
    (hempty : (finalPins js catalog h model).placed r.slot = some none) {p : Int}
    (hsuits : pinProblem model.toBoardModel r.needs p = none) :
    p ∈ busLines (busOn h catalog model) ∨ ∃ t ∈ allRoles js catalog h,
      (finalPins js catalog h model).placed t.slot = some (some p) ∧
        (t.pin = some p ∨ t ∈ before) := by
  have hr : r ∈ allRoles js catalog h := by
    rw [hall]
    simp
  have hrequests : (allRoles js catalog h).map (PinRole.request model.toBoardModel) =
      before.map (PinRole.request model.toBoardModel) ++ r.request model.toBoardModel ::
        after.map (PinRole.request model.toBoardModel) := by
    rw [hall, List.map_append, List.map_cons]
  have hnone : (keptPins js catalog h model).placed r.slot = none := by
    cases hkept : (keptPins js catalog h model).placed r.slot with
    | none => rfl
    | some v =>
      obtain ⟨q, rfl, -, -⟩ := kept_pin hr hkept
      cases (Allocation.fillAll_placed hkept).symm.trans hempty
  have hslots := slots_nodup js catalog h
  rw [hall, List.map_append, List.map_cons] at hslots
  have hfresh : r.slot ∉ before.map PinRole.slot := fun hmem =>
    (List.nodup_append.mp hslots).2.2 _ hmem _ List.mem_cons_self rfl
  rw [finalPins, hrequests] at hempty
  rw [← request_slots model] at hfresh
  have htaken := Allocation.fillAll_empty (r := r.request model.toBoardModel) hnone hfresh hempty p
    (mem_preferredPins.mpr (pinProblem_none.mp hsuits))
  have hsound := Allocation.fillAll_sound (kept_sound js catalog h model)
    (before.map (PinRole.request model.toBoardModel))
  rcases (hsound.taken_iff p).mp htaken with hbus | ⟨s, hs⟩
  · exact .inl hbus
  · have hfinal : (finalPins js catalog h model).placed s = some (some p) := by
      rw [finalPins, hrequests, Allocation.fillAll_append]
      exact Allocation.fillAll_placed hs
    rcases Allocation.fillAll_prefer hs with hkept | ⟨-, request, hrequest, hslot, -⟩
    · obtain ⟨request, hrequest, hslot, q, hq, hwish, -⟩ := Allocation.keepAll_wish hkept
      obtain ⟨t, ht, rfl⟩ := List.mem_map.mp hrequest
      cases hq
      subst hslot
      exact .inr ⟨t, ht, hfinal, .inl hwish⟩
    · obtain ⟨t, ht, rfl⟩ := List.mem_map.mp hrequest
      have hmem : t ∈ allRoles js catalog h := by
        rw [hall]
        exact List.mem_append_left _ ht
      subst hslot
      exact .inr ⟨t, hmem, hfinal, .inr ht⟩

end

/-! ## The promise -/

/-- A line of the bus that is on another pin, or on none. -/
def lineChange (owner : String) (old : Int) (new : Option Int) : Option MovedPin :=
  if new = some old then none else some ⟨owner, old, new⟩

def busChanges (old new : Option I2cBus) : List MovedPin :=
  old.toList.flatMap fun old =>
    (lineChange "the I2C bus (SDA)" old.sda (new.map I2cBus.sda)).toList ++
      (lineChange "the I2C bus (SCL)" old.scl (new.map I2cBus.scl)).toList

/-- A role that had a pin and has another one, or none. -/
def roleChange (h' : HardwareDraft) (r : PinRole) : Option MovedPin :=
  r.pin.bind fun pin =>
    if h'.pinAt r.slot = some pin then none else some ⟨r.owner, pin, h'.pinAt r.slot⟩

/-- Wiring as it should be on the new board. -/
structure Rewired (js : Js) (catalog : BoardCatalog) (h : HardwareDraft) (model : BoardModel)
    (out : BoardMove) : Prop where
  /-- No pin is used twice, by parts or by the bus. -/
  distinct : ((usedPins out.hardware).map UsedPin.pin).Nodup
  bus : ∀ pin ∈ busLines out.hardware.i2c, pinProblem model .bus pin = none
  suits : ∀ r ∈ allRoles js catalog out.hardware, ∀ pin, r.pin = some pin →
    pinProblem model r.needs pin = none
  /-- A pin that still suits its role, and that neither the bus nor an earlier part holds on the new
  board, is kept. -/
  kept : ∀ r ∈ allRoles js catalog h, ∀ pin, r.pin = some pin →
    pinProblem model r.needs pin = none → pin ∉ busLines out.hardware.i2c →
    (∀ t ∈ allRoles js catalog h, t.slot.Earlier r.slot → t.pin = some pin →
      out.hardware.pinAt t.slot ≠ some pin) →
    out.hardware.pinAt r.slot = some pin
  /-- A role is without a pin only where each that suits it is the bus's, was kept, or was given to
  a role before it. -/
  empty : ∀ before r after, allRoles js catalog h = before ++ r :: after →
    out.hardware.pinAt r.slot = none → ∀ pin, pinProblem model r.needs pin = none →
    pin ∈ busLines out.hardware.i2c ∨ ∃ t ∈ allRoles js catalog h,
      out.hardware.pinAt t.slot = some pin ∧ (t.pin = some pin ∨ t ∈ before)
  /-- What is told is what had a pin and changed it. -/
  moved : out.moved = busChanges h.i2c out.hardware.i2c ++
    (allRoles js catalog h).filterMap (roleChange out.hardware)

/-- No part has one pin, free for it to keep, in two of its roles. It is free if it is not the bus's
and no earlier part has it in a role that it still suits. -/
def OnePinEach (js : Js) (catalog : BoardCatalog) (h : HardwareDraft) (model : BusBoardModel) :
    Prop :=
  ∀ r ∈ allRoles js catalog h, ∀ t ∈ allRoles js catalog h, r.slot.SamePart t.slot →
    ∀ pin, r.pin = some pin → t.pin = some pin →
    pinProblem model.toBoardModel r.needs pin = none →
    pinProblem model.toBoardModel t.needs pin = none →
    pin ∉ busLines (busOn h catalog model) →
    (∀ u ∈ allRoles js catalog h, u.slot.Earlier r.slot → u.pin = some pin →
      pinProblem model.toBoardModel u.needs pin ≠ none) → r = t

section

variable {js : Js} {catalog : BoardCatalog} {h : HardwareDraft} {model : BusBoardModel}
  {board : String}

/-- The draft that is returned. -/
def movedDraft (js : Js) (catalog : BoardCatalog) (h : HardwareDraft) (model : BusBoardModel) :
    HardwareDraft :=
  h.onPins model.id (busOn h catalog model) (finalPins js catalog h model).placed

theorem moveToBoard_hardware (js : Js) (h : HardwareDraft)
    (hmodel : resolveBusModel catalog.models board = some model) :
    (moveToBoard js h board catalog).hardware = movedDraft js catalog h model := by
  simp only [moveToBoard, hmodel, placing_eq]
  rfl

theorem pinAt_movedDraft {r : PinRole} (hr : r ∈ allRoles js catalog h) :
    (finalPins js catalog h model).placed r.slot =
      some ((movedDraft js catalog h model).pinAt r.slot) := by
  obtain ⟨v, hv⟩ : ∃ v, (finalPins js catalog h model).placed r.slot = some v := final_some hr
  rw [movedDraft, pinAt_onPins hr, hv]
  rfl

theorem moveToBoard_moved (js : Js) (h : HardwareDraft)
    (hmodel : resolveBusModel catalog.models board = some model) :
    (moveToBoard js h board catalog).moved =
      (busOn h catalog model).toList.flatMap (movedBus h.i2c) ++
        (allRoles js catalog h).filterMap (roleChange (movedDraft js catalog h model)) := by
  have htold : (moveToBoard js h board catalog).moved = (placing js catalog h model).2 := by
    simp only [moveToBoard, hmodel]
  rw [htold, placing_eq]
  show _ ++ _ = _ ++ _
  congr 1
  refine List.filterMap_congr fun r hr => ?_
  have hfinal : (finalPins js catalog h model).placed r.slot = _ := pinAt_movedDraft hr
  unfold movedRole roleChange
  cases hkept : (keptPins js catalog h model).placed r.slot with
  | some v =>
    obtain ⟨p, rfl, hpin, -⟩ := kept_pin hr hkept
    have hsame := hfinal.symm.trans (Allocation.fillAll_placed hkept)
    simp [hpin, Option.some.inj hsame]
  | none =>
    cases hpin : r.pin with
    | none => rfl
    | some p =>
      have hchanged := final_moved hr hkept hpin
      rw [hfinal] at hchanged ⊢
      have hne : (movedDraft js catalog h model).pinAt r.slot ≠ some p := fun heq =>
        hchanged (congrArg some heq)
      simp [hne]

/-- Of an earlier part, or of the same. -/
def Slot.UpTo (s t : Slot) : Prop := s.Earlier t ∨ s.SamePart t

theorem Slot.UpTo.earlier {s t u : Slot} (h : s.UpTo t) (htu : t.Earlier u) : s.Earlier u := by
  unfold UpTo Earlier SamePart at *
  rcases h with (⟨hs, ht⟩ | ⟨hkind, hlt⟩) | ⟨hkind, hi⟩
  · rcases htu with ⟨ht', -⟩ | ⟨hkind', -⟩
    · rw [ht] at ht'
      cases ht'
    · exact .inl ⟨hs, hkind' ▸ ht⟩
  · rw [hkind]
    exact htu.imp id fun h => ⟨h.1, hlt.trans h.2⟩
  · rw [hkind, hi]
    exact htu

theorem exists_keeper {r : PinRole} (hr : r ∈ allRoles js catalog h) {pin : Int}
    (hpin : r.pin = some pin) (hsuits : pinProblem model.toBoardModel r.needs pin = none)
    (hbus : pin ∉ busLines (busOn h catalog model)) :
    ∃ t ∈ allRoles js catalog h, t.slot.UpTo r.slot ∧ t.pin = some pin ∧
      (finalPins js catalog h model).placed t.slot = some (some pin) := by
  obtain ⟨before, after, hall⟩ := List.append_of_mem hr
  obtain ⟨t, ht, hkeeps⟩ := final_keeper hall hpin hsuits hbus
  have horder := allRoles_pairwise js catalog h
  rw [hall] at horder
  rcases List.mem_append.mp ht with hbefore | hself
  · refine ⟨t, hall ▸ List.mem_append_left _ hbefore, ?_, hkeeps⟩
    exact ((List.pairwise_append.mp horder).2.2 t hbefore r List.mem_cons_self).2
  · obtain rfl := List.mem_singleton.mp hself
    exact ⟨t, hr, .inr ⟨rfl, rfl⟩, hkeeps⟩

theorem moveToBoard_distinct (js : Js) {h : HardwareDraft}
    (hmodel : resolveBusModel catalog.models board = some model)
    (hbus : (busLines (busOn h catalog model)).Nodup) :
    ((usedPins (moveToBoard js h board catalog).hardware).map UsedPin.pin).Nodup := by
  have hsound := final_sound js catalog h model
  have hpins : (allRoles js catalog (movedDraft js catalog h model)).filterMap PinRole.pin =
      ((allRoles js catalog h).map PinRole.slot).filterMap fun s =>
        ((finalPins js catalog h model).placed s).join := by
    rw [movedDraft, allRoles_onPins, List.filterMap_map, List.filterMap_map]
    rfl
  rw [moveToBoard_hardware js h hmodel, usedPins_roles js catalog, hpins]
  refine List.nodup_append.mpr ⟨hbus, ?_, fun p hp q hq heq => ?_⟩
  · refine List.Nodup.filterMap (fun s t p hs ht => ?_) (slots_nodup js catalog h)
    exact hsound.distinct s t p (Option.join_eq_some_iff.mp hs) (Option.join_eq_some_iff.mp ht)
  · obtain ⟨s, -, hs⟩ := List.mem_filterMap.mp hq
    exact hsound.apart s q (Option.join_eq_some_iff.mp hs) (heq ▸ hp)

/-- What is told of the bus is all there is to tell, unless it is dropped. -/
theorem movedBus_eq {bus : I2cBus} (hbus : model.i2c = some bus) :
    (busOn h catalog model).toList.flatMap (movedBus h.i2c) =
      busChanges h.i2c (busOn h catalog model) ↔
        h.i2c = none ∨ usesI2c h (some catalog.drivers) = true := by
  unfold busOn
  by_cases huses : usesI2c h (some catalog.drivers) = true
  · rw [if_pos huses, hbus]
    refine iff_of_true ?_ (.inr huses)
    cases hold : h.i2c with
    | none => rfl
    | some old =>
      have hline : ∀ (owner : String) (a b : Int), (if a ≠ b then [MovedPin.mk owner a (some b)]
          else []) = (lineChange owner a (some b)).toList := by
        intro owner a b
        unfold lineChange
        by_cases hab : a = b
        · simp [hab]
        · simp [hab, Ne.symm hab]
      show movedBus (some old) bus ++ [] = _ ++ []
      simp only [movedBus, hline, Option.map_some]
  · rw [if_neg huses]
    cases hold : h.i2c with
    | none => exact iff_of_true rfl (.inl rfl)
    | some old =>
      refine iff_of_false (fun hnothing => ?_) (by simp [huses])
      cases hnothing

/-- **On another board the wiring is as promised** exactly where it drops no bus unsaid, and where
no part has to give one of two roles on one pin another one. -/
theorem rewired_iff (hmodel : resolveBusModel catalog.models board = some model) {bus : I2cBus}
    (hbus : model.i2c = some bus) (hlines : bus.sda ≠ bus.scl)
    (hsda : pinProblem model.toBoardModel .bus bus.sda = none)
    (hscl : pinProblem model.toBoardModel .bus bus.scl = none) :
    Rewired js catalog h model.toBoardModel (moveToBoard js h board catalog) ↔
      (h.i2c = none ∨ usesI2c h (some catalog.drivers) = true) ∧ OnePinEach js catalog h model := by
  have hon : busOn h catalog model = some bus ∨ busOn h catalog model = none := by
    unfold busOn
    split
    · exact .inl hbus
    · exact .inr rfl
  have hnodup : (busLines (busOn h catalog model)).Nodup := by
    rcases hon with hon | hon
    · simpa [hon, busLines] using hlines
    · simp [hon, busLines]
  have hdistinct := moveToBoard_distinct js hmodel hnodup
  have hhardware := moveToBoard_hardware js h hmodel
  have hi2c : (movedDraft js catalog h model).i2c = busOn h catalog model := rfl
  have hmoved := moveToBoard_moved js h hmodel
  constructor
  · intro hrewired
    constructor
    · -- a bus that is dropped would have to be told of
      have htold := hrewired.moved
      rw [hmoved, hhardware, hi2c] at htold
      exact (movedBus_eq hbus).mp (List.append_cancel_right htold)
    · intro r hr t ht hpart pin hrpin htpin hrsuits htsuits hfree hearlier
      -- who holds it on the new board had it there and could keep it
      have hkeeps : ∀ u ∈ allRoles js catalog h, u.slot.Earlier r.slot → u.pin = some pin →
          (moveToBoard js h board catalog).hardware.pinAt u.slot ≠ some pin := by
        intro u hu htime hupin hkept
        have hplaced : (finalPins js catalog h model).placed u.slot = some (some pin) := by
          rw [pinAt_movedDraft hu, ← hhardware, hkept]
        exact hearlier u hu htime hupin (final_suits hu hplaced)
      have hpartKeeps : ∀ u ∈ allRoles js catalog h, u.slot.Earlier t.slot → u.pin = some pin →
          (moveToBoard js h board catalog).hardware.pinAt u.slot ≠ some pin := by
        intro u hu htime
        refine hkeeps u hu ?_
        unfold Slot.Earlier at htime ⊢
        rwa [hpart.1, hpart.2]
      have hrkept := hrewired.kept r hr pin hrpin hrsuits (by rwa [hhardware, hi2c]) hkeeps
      have htkept := hrewired.kept t ht pin htpin htsuits (by rwa [hhardware, hi2c]) hpartKeeps
      rw [hhardware] at hrkept htkept
      refine role_eq hr ht ((final_sound js catalog h model).distinct _ _ pin ?_ ?_)
      · rw [pinAt_movedDraft hr, hrkept]
      · rw [pinAt_movedDraft ht, htkept]
  · rintro ⟨hdropped, hone⟩
    refine ⟨hdistinct, ?_, ?_, ?_, ?_, ?_⟩
    · rw [hhardware, hi2c]
      rcases hon with hon | hon
      · rw [hon]
        intro pin hpin
        rcases List.mem_cons.mp hpin with rfl | hpin
        · exact hsda
        · cases List.mem_singleton.mp hpin
          exact hscl
      · rw [hon]
        intro pin hpin
        cases hpin
    · rw [hhardware, movedDraft, allRoles_onPins]
      intro r' hr' pin hpin
      obtain ⟨r, hr, rfl⟩ := List.mem_map.mp hr'
      exact final_suits hr (Option.join_eq_some_iff.mp hpin)
    · rw [hhardware, hi2c]
      intro r hr pin hpin hsuits hfree hearlier
      -- nobody of an earlier part keeps it, so nobody there could
      have hnobody : ∀ u ∈ allRoles js catalog h, u.slot.Earlier r.slot → u.pin = some pin →
          pinProblem model.toBoardModel u.needs pin ≠ none := by
        intro u hu htime hupin husuits
        obtain ⟨t, ht, hupto, htpin, hkeeps⟩ := exists_keeper hu hupin husuits hfree
        refine hearlier t ht (hupto.earlier htime) htpin ?_
        exact Option.some.inj ((pinAt_movedDraft ht).symm.trans hkeeps)
      obtain ⟨t, ht, hupto, htpin, hkeeps⟩ := exists_keeper hr hpin hsuits hfree
      have hkept : (movedDraft js catalog h model).pinAt t.slot = some pin :=
        Option.some.inj ((pinAt_movedDraft ht).symm.trans hkeeps)
      rcases hupto with hbefore | hpart
      · exact absurd hkept (hearlier t ht hbefore htpin)
      · rwa [hone r hr t ht ⟨hpart.1.symm, hpart.2.symm⟩ pin hpin htpin hsuits
          (final_suits ht hkeeps) hfree hnobody]
    · rw [hhardware, hi2c]
      intro before r after hall hnone pin hsuits
      have hr : r ∈ allRoles js catalog h := by
        rw [hall]
        simp
      have hempty : (finalPins js catalog h model).placed r.slot = _ := pinAt_movedDraft hr
      rw [hnone] at hempty
      rcases final_empty hall hempty hsuits with hbusPin | ⟨t, ht, hpin, hwhy⟩
      · exact .inl hbusPin
      · rw [pinAt_movedDraft ht] at hpin
        exact .inr ⟨t, ht, Option.some.inj hpin, hwhy⟩
    · rw [hmoved, hhardware, hi2c, (movedBus_eq hbus).mpr hdropped]

end

theorem devkit38_resetApart :
    (0 : Int) ∉ [4, 13, 14, 16, 17, 18, 21, 22, 23, 25, 26, 27, 32, 33, 34, 35, 36, 39] := by
  decide

theorem devkit38_ledApart :
    ({ type := some .gpio, pin := 2, activeLow := false } : Led).kind ≠ .none →
    (2 : Int) ∉ [4, 13, 14, 16, 17, 18, 21, 22, 23, 25, 26, 27, 32, 33, 34, 35, 36, 39] := by
  decide

/-- The DevKit, with its I2C pins. -/
def devkit38 : BusBoardModel :=
  { id := "esp32-devkit-38"
    chip := .esp32
    label := "ESP32 DevKit (38-pin)"
    pins := [4, 13, 14, 16, 17, 18, 21, 22, 23, 25, 26, 27, 32, 33, 34, 35, 36, 39]
    resetPin := 0
    led := { type := some .gpio, pin := 2, activeLow := false }
    resetApart := devkit38_resetApart
    ledApart := devkit38_ledApart
    i2c := some ⟨21, 22⟩ }

/-- The release's drivers, whose pins are all labelled `Signal` here. -/
def signalCatalog : BoardCatalog :=
  { drivers := drivers, models := [devkit38], pinLabel := fun _ _ => "Signal" }

/-- Texts without capitals and numbers in them. -/
def lowerJs : Js :=
  { number := fun _ => .nan
    parseInt := fun _ => .nan
    showNumber := fun _ => "NaN"
    toLowerCase := fun s => s }

/-- A relay on a pin that the new board keeps free. -/
def relayDraft : HardwareDraft :=
  { board := "esp32c3-supermini"
    outputs :=
      [{ driver := "relay"
         pins := ⟨[("pin", some 4)], List.nodup_singleton "pin"⟩
         params := ⟨[], List.nodup_nil⟩
         channels := ⟨[], List.nodup_nil⟩ }] }

theorem rewired_relay :
    Rewired lowerJs signalCatalog relayDraft devkit38.toBoardModel
        (moveToBoard lowerJs relayDraft "esp32-devkit-38" signalCatalog) ↔
      (relayDraft.i2c = none ∨ usesI2c relayDraft (some signalCatalog.drivers) = true) ∧
        OnePinEach lowerJs signalCatalog relayDraft devkit38 :=
  rewired_iff (by rfl) rfl (by decide) (by decide) (by decide)

/-- A part of an older release on the bus, whose driver the catalog does not have. -/
def retiredDraft : HardwareDraft :=
  { board := "esp32-devkit-30"
    i2c := some ⟨21, 22⟩
    inputs :=
      [{ driver := "bmp180"
         pins := ⟨[], List.nodup_nil⟩
         params := ⟨[], List.nodup_nil⟩
         channels := ⟨[], List.nodup_nil⟩ }] }

theorem bus_dropped :
    (moveToBoard lowerJs retiredDraft "esp32-devkit-38" signalCatalog).hardware.i2c = none ∧
    (moveToBoard lowerJs retiredDraft "esp32-devkit-38" signalCatalog).moved = [] ∧
    ¬ Rewired lowerJs signalCatalog retiredDraft devkit38.toBoardModel
      (moveToBoard lowerJs retiredDraft "esp32-devkit-38" signalCatalog) := by
  have hi2c : (moveToBoard lowerJs retiredDraft "esp32-devkit-38" signalCatalog).hardware.i2c =
      none := by rfl
  have hmoved : (moveToBoard lowerJs retiredDraft "esp32-devkit-38" signalCatalog).moved = [] := by
    rfl
  refine ⟨hi2c, hmoved, fun hrewired => ?_⟩
  have htold := hrewired.moved
  rw [hmoved, hi2c] at htold
  cases htold

end IotSaas.Wiring
