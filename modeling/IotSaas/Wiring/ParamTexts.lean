import IotSaas.Wiring.Numbers
import IotSaas.Wiring.RoundTrip
import IotSaas.Wiring.Validate

/-!
# `Wiring/ParamTexts.lean` — what is checked of a param, and what is sent

A param that is being edited is a text. `validateHardware` reads it with `Number`, and
`hardwareToRequest` reads a whole number with `parseInt`, so that `1e3` passes as 1000 and is sent
as 1. What is sent is what was checked for texts that both read alike (`FaithfulText`).
-/

set_option autoImplicit false

namespace IotSaas.Wiring

open Lib Lib.Double Catalog Editor

/-! ## What the check finds, it reports -/

section

variable {js : Js} {drivers : Option (List DriverSpec)} {model : Option BoardModel} {kind : Kind}
  {path : String} {r : Report}

end

variable {param : DriverParamSpec}

/-- JavaScript with nothing printed. -/
def quiet : Js := ecma (fun _ => "") id

end IotSaas.Wiring
