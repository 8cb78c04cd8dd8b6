import IotSaas.Firmware.Granted
import IotSaas.Wiring.Checked

/-!
# `Firmware/Settings.lean` — which settings a driver takes

The editor keeps a param as it was typed and checks it with `Number(…)`; the request types it with
`parseInt` or `Number`, and JSON writes what is not finite as `null`; the driver reads the JSON and
has its own idea of what it can work with. Here a driver's reading is put in terms of what was
typed: which params of a checked part a driver takes (`reads_request`), and when its own rule is
kept (`ownRule_request`).
-/

set_option autoImplicit false

namespace IotSaas.Firmware

open Lib Catalog Editor Wiring

/-! ## What is sent of a param -/

/-- What the config has of a param. -/
def sent (js : Js) (raw : Option Param) (type : ParamType) : JsonVariant :=
  match raw.bind fun value => paramValue js value (some type) with
  | some value => ofParam value
  | none => .null

/-- The number that was typed, if one was. -/
def entered (js : Js) (raw : Option Param) : Option ℚ :=
  match raw with
  | some (.number (.finite q)) => some q
  | some (.text s) =>
      if jsTrim s = "" then none
      else
        match js.number s with
        | .finite q => some q
        | _ => none
  | _ => none

/-- What `parseInt` makes of a text that was typed. -/
def parsed (js : Js) (raw : Option Param) : Option Int :=
  match raw with
  | some (.text s) =>
      if jsTrim s = "" then none
      else
        match js.parseInt s with
        | .finite n => some n
        | _ => none
  | _ => none

section

variable (js : Js) {s : String} {type : ParamType}

@[simp] theorem sent_none : sent js none type = .null := rfl

@[simp] theorem sent_bool (x : Bool) : sent js (some (.bool x)) type = .bool x := rfl

@[simp] theorem sent_number (n : JsNumber ℚ) :
    sent js (some (.number n)) type = ofParam (.number n) := rfl

@[simp] theorem sent_enum : sent js (some (.text s)) .enum = .text s := rfl

/-- A blank text is the default. -/
theorem sent_blank (htype : type ≠ .enum) (hblank : jsTrim s = "") :
    sent js (some (.text s)) type = .null := by
  cases type <;> simp_all [sent, paramValue]

theorem sent_int (hs : jsTrim s ≠ "") :
    sent js (some (.text s)) .int = ofParam (.number (ofInt (js.parseInt s))) := by
  simp [sent, paramValue, hs]

theorem sent_text (htype : type = .bool ∨ type = .float) (hs : jsTrim s ≠ "") :
    sent js (some (.text s)) type = ofParam (.number (js.number s)) := by
  rcases htype with rfl | rfl <;> simp [sent, paramValue, hs]

end

/-- On/off and float params are sent as the number that was typed. -/
theorem sent_entered {js : Js} {raw : Option Param} {type : ParamType}
    (htype : type = .bool ∨ type = .float) (hraw : ∀ x, raw ≠ some (.bool x)) :
    sent js raw type = ((entered js raw).map JsonVariant.number).getD .null := by
  have hne : type ≠ .enum := by
    rintro rfl
    simp at htype
  cases raw with
  | none => rfl
  | some value =>
    cases value with
    | bool x => exact absurd rfl (hraw x)
    | number n => cases n <;> rfl
    | text s =>
      by_cases hblank : jsTrim s = ""
      · simp [sent_blank js hne hblank, entered, hblank]
      · rw [sent_text js htype hblank]
        cases hnumber : js.number s <;> simp [entered, hblank, hnumber, ofParam]

/-- Every driver of the catalog names its params apart, so each is sent with its own type. -/
theorem paramType_eq {spec : DriverSpec} (hspec : spec ∈ drivers) {p : DriverParamSpec}
    (hp : p ∈ spec.params) : paramType (some spec) p.key = some p.type := by
  have hall : ∀ spec ∈ drivers, ∀ p ∈ spec.params, paramType (some spec) p.key = some p.type := by
    decide +kernel
  exact hall spec hspec p hp

theorem param_request (js : Js) (list : List KeyedRow) {b : BindingDraft} {spec : DriverSpec}
    (hspec : findDriver (some drivers) b.driver = some spec) {p : DriverParamSpec}
    (hp : p ∈ spec.params) :
    param (requestBinding js (some drivers) list b) p.key = sent js (b.params.get p.key) p.type := by
  unfold param sent
  rw [request_param, hspec, paramType_eq (findDriver_some hspec).1 hp]
  rfl

/-! ## Which params are read -/

/-- What a driver takes of what was typed for a param, where the editor found nothing wrong: for an
on/off param no number, for a choice no empty text, and for a whole number that was typed as a text
one that stays in its range under `parseInt`. -/
def Taken (js : Js) (p : DriverParamSpec) (raw : Option Param) : Prop :=
  match p.type with
  | .bool => entered js raw = none
  | .enum => raw ≠ some (.text "")
  | .int => ∀ n, parsed js raw = some n → outOfRange p n = false
  | .float => True

section

variable {js : Js} {raw : Option Param}

theorem reads_sent_bool {key : String} :
    Reads (sent js raw .bool) (boolSpec key) ↔ entered js raw = none := by
  rw [reads_bool]
  by_cases hraw : ∃ x, raw = some (.bool x)
  · obtain ⟨x, rfl⟩ := hraw
    simp [ReadsBool, entered]
  · rw [sent_entered (.inl rfl) (not_exists.mp hraw)]
    cases entered js raw <;> simp [ReadsBool]

theorem reads_sent_enum {key default : String} {options : List String} (hblank : "" ∉ options)
    (hok : paramProblem js (enumSpec key default options) raw = none) :
    Reads (sent js raw .enum) (enumSpec key default options) ↔ raw ≠ some (.text "") := by
  rw [reads_enum]
  cases raw with
  | none => simp [ReadsEnum]
  | some value =>
    cases value with
    | bool x => simp [ReadsEnum]
    | number n => cases n <;> simp [ofParam, ReadsEnum]
    | text s =>
      by_cases hs : s = ""
      · simp [ReadsEnum, hs, hblank]
      · have hin : s ∈ options := by
          simpa [paramProblem, isBlank, hs, enumSpec, asText] using hok
        simp [ReadsEnum, hs, hin]

/-- A number that the editor checked is no truth value. -/
theorem not_bool_of_number {p : DriverParamSpec} (htype : p.type = .int ∨ p.type = .float)
    (hok : paramProblem js p raw = none) (x : Bool) : raw ≠ some (.bool x) := by
  rintro rfl
  simp [paramProblem, isBlank, htype, asNumber, isBool] at hok

theorem reads_sent_float {key : String} {default : ℚ}
    (hok : paramProblem js (floatSpec key default) raw = none) :
    Reads (sent js raw .float) (floatSpec key default) := by
  rw [reads_float, sent_entered (.inr rfl) (not_bool_of_number (.inr rfl) hok)]
  cases entered js raw <;> simp [ReadsFloat]

/-- A `long` holds a whole number of 32 bits. -/
theorem asLong_number {q : ℚ} {n : Int} :
    (JsonVariant.number q).asLong = some n ↔ q = n ∧ fits n = true := by
  unfold JsonVariant.asLong
  constructor
  · intro h
    dsimp only at h
    split at h
    · rename_i hq
      rw [Option.some.injEq] at h
      subst h
      exact ⟨((Rat.den_eq_one_iff q).mp hq.1).symm, hq.2⟩
    · cases h
  · rintro ⟨rfl, hfits⟩
    simp [hfits]

theorem readsInt_number {q : ℚ} {min max : Int} (hmin : -(2 : Int) ^ 31 ≤ min)
    (hmax : max < (2 : Int) ^ 31) :
    ReadsInt min max (.number q) ↔ ∃ n : Int, q = n ∧ min ≤ n ∧ n ≤ max := by
  simp only [ReadsInt, reduceCtorEq, false_or, asLong_number]
  constructor
  · rintro ⟨n, ⟨hq, _⟩, hrange⟩
    exact ⟨n, hq, hrange⟩
  · rintro ⟨n, hq, hrange⟩
    refine ⟨n, ⟨hq, ?_⟩, hrange⟩
    simp only [fits, decide_eq_true_eq]
    omega

theorem outOfRange_int (key : String) (default : Int) {min max n : Int} :
    outOfRange (intSpec key default min max) n = false ↔ min ≤ n ∧ n ≤ max := by
  simp [outOfRange, intSpec]

theorem reads_sent_int {key : String} {default min max : Int} (hmin : -(2 : Int) ^ 31 ≤ min)
    (hmax : max < (2 : Int) ^ 31)
    (hok : paramProblem js (intSpec key default min max) raw = none) :
    Reads (sent js raw .int) (intSpec key default min max) ↔
      Taken js (intSpec key default min max) raw := by
  rw [reads_int]
  show _ ↔ ∀ n, parsed js raw = some n → outOfRange (intSpec key default min max) n = false
  cases raw with
  | none => simp [ReadsInt, parsed]
  | some value =>
    cases value with
    | bool x => exact absurd rfl (not_bool_of_number (.inl rfl) hok x)
    | number n =>
      cases n with
      | infinite => simp [ofParam, ReadsInt, parsed]
      | nan => simp [ofParam, ReadsInt, parsed]
      | finite q =>
        -- the editor saw a whole number in its range
        have hq : ∃ n : Int, q = n ∧ min ≤ n ∧ n ≤ max := by
          by_cases hden : q.den = 1
          · have hwhole : q = (q.num : ℚ) := ((Rat.den_eq_one_iff q).mp hden).symm
            refine ⟨q.num, hwhole, ?_⟩
            rw [← outOfRange_int key default, ← hwhole]
            cases hout : outOfRange (intSpec key default min max) q with
            | false => rfl
            | true =>
              rw [intSpec] at hok hout
              simp [paramProblem, isBlank, asNumber, isBool, hden, hout] at hok
          · simp [paramProblem, isBlank, asNumber, isBool, intSpec, hden] at hok
        simpa [ofParam, readsInt_number hmin hmax, parsed] using hq
    | text s =>
      by_cases hblank : jsTrim s = ""
      · have hsent : sent js (some (.text s)) .int = .null := sent_blank js (by simp) hblank
        simp [hsent, ReadsInt, parsed, hblank]
      · rw [sent_int js hblank]
        cases hint : js.parseInt s with
        | infinite => simp [ofInt, ofParam, ReadsInt, parsed, hint]
        | nan => simp [ofInt, ofParam, ReadsInt, parsed, hint]
        | finite n =>
          simp [ofInt, ofParam, readsInt_number hmin hmax, parsed, hblank, hint, outOfRange_int]

end

/-- The kinds of params; a range fits a `long`, and no option is empty. -/
inductive ParamKind : DriverParamSpec → Prop
  | bool (key : String) : ParamKind (boolSpec key)
  | float (key : String) (default : ℚ) : ParamKind (floatSpec key default)
  | enum (key default : String) (options : List String) (hblank : "" ∉ options) :
      ParamKind (enumSpec key default options)
  | int (key : String) (default min max : Int) (hmin : -(2 : Int) ^ 31 ≤ min)
      (hmax : max < (2 : Int) ^ 31) : ParamKind (intSpec key default min max)

theorem paramKind_of_mem : ∀ spec ∈ drivers, ∀ p ∈ spec.params, ParamKind p := by
  simp only [drivers, digitalIn, analogIn, ds18b20, dht22, pulseCounter, hcsr04, mpu6050, relay,
    pwm, servo, List.forall_mem_cons]
  repeat' apply And.intro
  all_goals
    first
      | constructor <;> decide
      | exact fun _ hnil => absurd hnil List.not_mem_nil

/-- **A driver reads** what was typed for its param, of a checked part, when it takes it. -/
theorem reads_sent {js : Js} {spec : DriverSpec} (hspec : spec ∈ drivers) {p : DriverParamSpec}
    (hp : p ∈ spec.params) {raw : Option Param} (hok : paramProblem js p raw = none) :
    Reads (sent js raw p.type) p ↔ Taken js p raw := by
  cases paramKind_of_mem spec hspec p hp with
  | bool key => exact reads_sent_bool
  | float key default => exact iff_of_true (reads_sent_float hok) trivial
  | enum key default options hblank => exact reads_sent_enum hblank hok
  | int key default min max hmin hmax => exact reads_sent_int hmin hmax hok

/-! ## A driver's own rule -/

/-- The number a float param stands for. -/
def setting (js : Js) (b : BindingDraft) (key : String) (default : ℚ) : ℚ :=
  (entered js (b.params.get key)).getD default

/-- A pull that is left to its default is on a pin that has one. -/
def PullSet (chip : Chip) (b : BindingDraft) : Prop :=
  b.params.get "pull" = none → ∀ pin, (b.pins.get "pin").join = some pin →
    hasInternalPull chip pin = true

variable {F : Type}

/-- What the driver of a part can work with, beyond its params one by one. -/
def Workable [LinearOrder F] (js : Js) (board : Board F) (b : BindingDraft) : Prop :=
  match b.driver with
  | "digital_in" => PullSet board.chip b
  | "pulse_counter" =>
      board.asFloat 0 < board.asFloat (setting js b "pulses_per_unit" 1) ∧ PullSet board.chip b
  | "pwm" => board.asFloat (setting js b "in_max" 100) ≠ board.asFloat (setting js b "in_min" 0)
  | "servo" =>
      board.asFloat 200 ≤ board.asFloat (setting js b "min_us" 500) ∧
        board.asFloat (setting js b "max_us" 2500) ≤ board.asFloat 3000 ∧
        board.asFloat (setting js b "min_us" 500) < board.asFloat (setting js b "max_us" 2500)
  | _ => True

section

variable {js : Js} {model : BoardModel} {kind : Kind} {list : List KeyedRow} {b : BindingDraft}
  {spec : DriverSpec} {board : Board F}

theorem floatAt_request (hpart : Part js drivers model kind b spec) {key : String} {default : ℚ}
    (hp : floatSpec key default ∈ spec.params) :
    floatAt (requestBinding js (some drivers) list b) key board (board.asFloat default) =
      board.asFloat (setting js b key default) := by
  have hsent := param_request js list hpart.found hp
  have hok : paramProblem js (floatSpec key default) (b.params.get key) = none := hpart.params _ hp
  rw [floatSpec_key] at hsent
  unfold floatAt setting
  rw [hsent, show (floatSpec key default).type = .float from rfl,
    sent_entered (.inr rfl) (not_bool_of_number (.inr rfl) hok)]
  cases entered js (b.params.get key) <;> rfl

/-- The pull rule of a checked part: only a pull that is not set can go wrong. -/
theorem pullRule_request (hpart : Part js drivers model kind b spec) {options : List String}
    (hp : enumSpec "pull" "up" options ∈ spec.params)
    (hpin : ∀ pin, (b.pins.get "pin").join = some pin → pin ∈ usable model.chip) :
    PullRule model.chip (requestBinding js (some drivers) list b) ↔ PullSet model.chip b := by
  have hsent := param_request js list hpart.found hp
  rw [enumSpec_key, show (enumSpec "pull" "up" options).type = .enum from rfl] at hsent
  have hpull := hpart.pull
  unfold PullRule PullSet
  simp only [request_pin, hsent]
  cases hraw : b.params.get "pull" with
  | none =>
    simp only [sent_none, JsonVariant.textOr]
    constructor
    · intro h _ pin hget
      rw [← hasPull_eq (hpin pin hget)]
      exact h (by decide) pin hget
    · intro h _ pin hget
      rw [hasPull_eq (hpin pin hget)]
      exact h trivial pin hget
  | some value =>
    refine iff_of_true (fun hnone pin hget => ?_) fun hnone => by cases hnone
    rw [hasPull_eq (hpin pin hget)]
    unfold pullProblem at hpull
    rw [hraw, hget] at hpull
    dsimp only at hpull
    split at hpull
    · exact absurd rfl hnone
    · cases hhas : hasInternalPull model.chip pin with
      | true => rfl
      | false => simp [hhas] at hpull

/-- The bus of a part that is on it. -/
theorem ownRule_request [LinearOrder F] (hpart : Part js drivers model kind b spec)
    (hchip : board.chip = model.chip) {ready : Bool} (hready : spec.i2c = true → ready = true) :
    OwnRule board spec.id (requestBinding js (some drivers) list b) ready ↔
      Workable js board b := by
  have hid := (findDriver_some hpart.found).2
  have hspec := (findDriver_some hpart.found).1
  have husable : ∀ role ∈ spec.pins, ∀ pin, (b.pins.get role.role).join = some pin →
      pin ∈ usable model.chip := by
    intro role hrole pin hget
    obtain ⟨pin', hpin', hsuits⟩ := hpart.pins role hrole
    rw [hget, Option.some.injEq] at hpin'
    exact hpin' ▸ usable_of_suits hsuits
  unfold OwnRule Workable
  rw [← hid, hchip]
  simp only [drivers, List.mem_cons, List.not_mem_nil, or_false] at hspec
  rcases hspec with rfl | rfl | rfl | rfl | rfl | rfl | rfl | rfl | rfl | rfl
  · exact pullRule_request hpart List.mem_cons_self (husable ⟨"pin", .input⟩ List.mem_cons_self)
  · exact Iff.rfl
  · exact Iff.rfl
  · exact Iff.rfl
  · refine and_congr ?_ (pullRule_request hpart (List.mem_cons_of_mem _ List.mem_cons_self)
      (husable ⟨"pin", .input⟩ List.mem_cons_self))
    unfold PulseRule
    rw [floatAt_request hpart (by simp [pulseCounter])]
  · exact Iff.rfl
  · exact iff_of_true (hready rfl) trivial
  · exact Iff.rfl
  · show SpanRule board _ ↔ _
    unfold SpanRule
    rw [floatAt_request hpart (by simp [pwm]), floatAt_request hpart (by simp [pwm])]
    rfl
  · show WidthRule board _ ↔ _
    unfold WidthRule
    rw [floatAt_request hpart (by simp [servo]), floatAt_request hpart (by simp [servo])]
    rfl

end

end IotSaas.Firmware
