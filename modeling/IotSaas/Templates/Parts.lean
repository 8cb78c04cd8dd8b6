import IotSaas.Lib.Fresh
import IotSaas.Lib.Record
import IotSaas.Templates.Draft
import IotSaas.Wiring.Draft

/-!
# `Templates/Parts.lean` — rows that come and go with the parts

The other half of `lib/template-draft.ts`: a part that is added brings a row for each of its
channels, one that goes takes its untouched rows along, and one that is replaced hands over what it
fed (`reconcileParts`); a reading can be dropped and kept again (`keepReading`).

Metrics and inputs go through the same code as actuators and outputs, so the two are a `RowKind`
each. A part's pins and params, the board and the bus pass through untouched and are left out. A
snapshot is the row itself, since rows are printed field by field in one order. Uids count: those of
rows are drawn here, those of parts come with the wiring.
-/

set_option autoImplicit false

namespace IotSaas.Templates

open Lib Catalog Editor

variable {F : Type}

/-! ## The driver catalog -/

/-- `DriverChannelSpec`, with what a row is proposed from. -/
structure ChannelSpec where
  key : String
  label : String
  dataType : Option MetricDataType := none
  valueType : Option ActuatorValueType := none
  common : Bool := true

/-- `DriverSpec`, less what only its wiring is about. -/
structure PartSpec where
  id : String
  label : String
  channels : List ChannelSpec

/-- `findDriver`. -/
def findDriver (drivers : List PartSpec) (id : String) : Option PartSpec :=
  drivers.find? fun d => d.id = id

/-- `UNIT_SYMBOLS`. -/
def unitSymbols : List String :=
  ["°C", "°F", "K", "°R", "µm", "mm", "cm", "m", "km", "in", "ft", "yd", "mi", "nmi", "mm²", "cm²",
    "m²", "km²", "ha", "ac", "ft²", "yd²", "µL", "mL", "L", "cm³", "m³", "gal", "qt", "pt", "fl oz",
    "ft³", "in³", "µg", "mg", "g", "kg", "t", "oz", "lb", "st", "µs", "ms", "s", "min", "h", "d",
    "wk", "mo", "yr", "m/s", "km/h", "mph", "ft/s", "kn", "RPM", "m/s²", "Gal", "°", "rad", "rev",
    "°/s", "rad/s", "rad/s²", "V", "mV", "µV", "A", "mA", "µA", "Ω", "kΩ", "MΩ", "S", "F", "µF", "H",
    "C", "Hz", "kHz", "MHz", "GHz", "W", "mW", "kW", "MW", "GW", "VA", "kVA", "var", "J", "kJ", "MJ",
    "Wh", "kWh", "MWh", "cal", "kcal", "BTU", "Pa", "kPa", "MPa", "hPa", "bar", "mbar", "atm", "psi",
    "mmHg", "%RH", "g/m³", "g/kg", "%", "m³/m³", "lx", "lm", "cd", "W/m²", "UVI", "Sv", "µSv/h",
    "dB", "dBA", "L/min", "L/h", "m³/h", "m³/s", "GPM", "GPH", "kg/s", "N", "kN", "lbf", "N·m",
    "kgf", "mm/s", "ppm", "ppb", "µg/m³", "AQI", "pH", "NTU", "µS/cm", "PSU", "mg/L", "mS/cm",
    "mm/h", "count", "pulse", "event", "cycle", "item", "items/min", "B", "KB", "MB", "GB", "TB",
    "bps", "kbps", "Mbps", "Gbps", "packet", "dBm"]

/-! ## Proposals -/

/-- `\s*\(([^)]*)\)\s*$`, and what is between the brackets. -/
def bracketed (chars : List Char) : Option (List Char) :=
  match chars.dropWhile isJsSpace with
  | '(' :: rest =>
      match rest.dropWhile (· ≠ ')') with
      | ')' :: tail => if tail.all isJsSpace then some (rest.takeWhile (· ≠ ')')) else none
      | _ => none
  | _ => none

/-- What `.` does not match. -/
def isLineEnd (c : Char) : Bool :=
  c.toNat = 0x0A || c.toNat = 0x0D || c.toNat = 0x2028 || c.toNat = 0x2029

/-- `/^(.*?)\s*\(([^)]*)\)\s*$/`: the shortest text that has a bracket behind it, and the bracket. -/
def labelMatch (chars : List Char) : Option (List Char × List Char) :=
  match bracketed chars, chars with
  | some unit, _ => some ([], unit)
  | none, [] => none
  | none, c :: rest =>
      if isLineEnd c then none else (labelMatch rest).map fun found => (c :: found.1, found.2)

/-- `text.split(" / ")[0]`. -/
def beforeSlash (chars : List Char) : List Char :=
  match chars with
  | [] => []
  | c :: rest => if " / ".toList.isPrefixOf (c :: rest) then [] else c :: beforeSlash rest

structure Proposal where
  name : String
  key : String
  unit : Option String

/-- The unit of a label's bracket, where it is one. -/
def unitOf (found : Option (List Char × List Char)) : Option String :=
  match found with
  | none => none
  | some (_, unit) =>
      let unit := jsTrim (String.ofList unit)
      if unit ∈ unitSymbols then some unit else none

/-- `proposal`. -/
def proposal (js : Wiring.Js) (spec : PartSpec) (ch : ChannelSpec) : Proposal :=
  let found := labelMatch ch.label.toList
  let lone := ch.key = "value" ∧ spec.channels.length = 1
  let part := jsTrim (String.ofList (beforeSlash spec.label.toList))
  let label := match found with
    | some (name, _) => String.ofList name
    | none => ch.label
  { name := if lone then part else jsTrim label
    key := if lone then Wiring.slugify js part else ch.key
    unit := unitOf found }

/-- `base`, `base_2`, `base_3`, … -/
def keyCandidate (base : String) (n : Nat) : String :=
  if n = 0 then base else base ++ "_" ++ toString (n + 1)

/-- `freeKey`. -/
def freeKey (base : String) (used : List String) : String :=
  firstFree id (keyCandidate base) (used ++ reservedMetricKeys)

/-- The name of a row that was proposed as `p` and got this key. -/
def proposedName (p : Proposal) (key : String) : String :=
  if key = p.key then p.name
  else p.name ++ " " ++ String.ofList (key.toList.drop (p.key.length + 1))

/-! ## The draft -/

/-- What a channel points at: `""`, the uid of a row, or `key:<key>`. -/
inductive Ref where
  | unused
  | row (uid : Nat)
  | missing (key : String)
  deriving DecidableEq

/-- The row it points at. -/
def Ref.fed (ref : Ref) : Option Nat :=
  match ref with
  | .row uid => some uid
  | _ => none

/-- `snapshot(row)`. -/
inductive Snapshot (F : Type) where
  | metric (row : MetricDraft)
  | actuator (row : ActuatorDraft F)
  deriving DecidableEq

/-- `BindingDraft`; no proposals where `proposed` is absent. -/
structure BindingDraft (F : Type) where
  uid : Nat
  driver : String
  channels : Record Ref
  proposed : List (Nat × Snapshot F) := []

/-- `HardwareDraft`. -/
structure HardwareDraft (F : Type) where
  inputs : List (BindingDraft F)
  outputs : List (BindingDraft F)

def HardwareDraft.parts (h : HardwareDraft F) : List (BindingDraft F) := h.inputs ++ h.outputs

/-- `TemplateDraft`. -/
structure TemplateDraft (F : Type) extends TemplateRows F where
  hardware : Option (HardwareDraft F)

/-- `…?.inputs ?? []`. -/
def TemplateDraft.inputs (d : TemplateDraft F) : List (BindingDraft F) :=
  match d.hardware with
  | some h => h.inputs
  | none => []

def TemplateDraft.outputs (d : TemplateDraft F) : List (BindingDraft F) :=
  match d.hardware with
  | some h => h.outputs
  | none => []

/-- `blankMetric`. -/
def blankMetric (uid : Nat) : MetricDraft :=
  { uid
    name := ""
    key := ""
    keyAuto := true
    origKey := none
    dataType := .float
    unit := none
    decimals := "1"
    min := ""
    max := ""
    publish := .periodic
    interval := "30"
    deadband := "" }

/-- `blankActuator`. -/
def blankActuator (uid : Nat) : ActuatorDraft F :=
  { uid
    name := ""
    key := ""
    keyAuto := true
    origKey := none
    valueType := .bool
    on := "true"
    off := "false"
    allowed := ""
    saved := {} }

/-! ## Rows of one kind -/

/-- What `reconcileParts` does differently with metrics and with actuators. -/
structure RowKind (F R : Type) where
  uid : R → Nat
  key : R → String
  /-- The row has the channel's type. -/
  suits : ChannelSpec → R → Bool
  /-- `fits`: a replaced part's row may go to the channel. -/
  fits : Proposal → ChannelSpec → R → Bool
  /-- The new row, under a uid and a key. -/
  propose : Nat → Proposal → ChannelSpec → String → R
  snapshot : R → Snapshot F
  uid_propose : ∀ n p ch k, uid (propose n p ch k) = n
  key_propose : ∀ n p ch k, key (propose n p ch k) = k

def metricKind : RowKind F MetricDraft where
  uid := MetricDraft.uid
  key := MetricDraft.key
  suits := fun ch row => row.dataType = ch.dataType.getD .float
  fits := fun p ch row => p.unit.isSome && row.unit = p.unit && row.dataType = ch.dataType.getD .float
  propose := fun uid p ch key =>
    { blankMetric uid with
      name := proposedName p key
      key := key
      keyAuto := false
      dataType := ch.dataType.getD .float
      unit := p.unit }
  snapshot := .metric
  uid_propose := fun _ _ _ _ => rfl
  key_propose := fun _ _ _ _ => rfl

def actuatorKind : RowKind F (ActuatorDraft F) where
  uid := ActuatorDraft.uid
  key := ActuatorDraft.key
  suits := fun ch row => row.valueType = ch.valueType.getD .bool
  fits := fun _ ch row => row.valueType = ch.valueType.getD .bool
  propose := fun uid p ch key =>
    let base :=
      { blankActuator uid with
        name := proposedName p key
        key := key
        keyAuto := false
        valueType := ch.valueType.getD .bool }
    if ch.valueType.getD .bool = .bool then base else { base with on := "", off := "" }
  snapshot := .actuator
  uid_propose := by
    intro n p ch k
    dsimp only
    split <;> rfl
  key_propose := by
    intro n p ch k
    dsimp only
    split <;> rfl

/-! ## Links -/

/-- `Object.values(channels)`. -/
def linksOf (channels : Record Ref) : List Ref := channels.items.map Prod.snd

/-- The channel has a link. -/
def linked (channels : Record Ref) (channel : String) : Bool :=
  match channels.get channel with
  | none | some .unused => false
  | some _ => true

/-- The keys of `takenTargets`. -/
def takenTargets (parts : List (BindingDraft F)) : List Ref :=
  (parts.flatMap fun b => linksOf b.channels).filter fun ref => ref ≠ .unused

section

variable {R : Type} (K : RowKind F R) (js : Wiring.Js)

/-- The key of a row, as it is compared. -/
def rowKey (row : R) : String := jsTrim (K.key row)

/-- A free row with the channel's key and type. -/
def wanted (spec : PartSpec) (ch : ChannelSpec) (row : R) : Bool :=
  decide (rowKey K row = (proposal js spec ch).key) && K.suits ch row

/-- The key of the row that is proposed. -/
def newKey (spec : PartSpec) (ch : ChannelSpec) (rows : List R) : String :=
  freeKey (proposal js spec ch).key (rows.map (rowKey K))

inductive Hit (R : Type) where
  | found (uid : Nat)
  | created (row : R)

/-- `rowForChannel`; a new row has the uid after `seq`. -/
def rowForChannel (spec : PartSpec) (ch : ChannelSpec) (rows : List R) (busy : Nat → Bool)
    (seq : Nat) : Hit R :=
  match rows.find? fun row => wanted K js spec ch row && !busy (K.uid row) with
  | some row => .found (K.uid row)
  | none => .created (K.propose (seq + 1) (proposal js spec ch) ch (newKey K js spec ch rows))

/-! ## Carried links -/

/-- `out` and `free` of `carryLinks`. -/
structure Carry where
  out : Record Ref
  free : List Ref

/-- `out[ch.key] = ref; free.delete(ref)`. -/
def Carry.take (carry : Carry) (channel : String) (ref : Ref) : Carry :=
  { out := carry.out.set channel ref, free := carry.free.filter fun other => other ≠ ref }

/-- A turn of the first loop: the reading with the old key. -/
def carryByKey (old : BindingDraft F) (carry : Carry) (ch : ChannelSpec) : Carry :=
  match old.channels.get ch.key with
  | none => carry
  | some ref => if ref ∈ carry.free then carry.take ch.key ref else carry

/-- `fits(uid, ch)`. -/
def linkFits (spec : PartSpec) (rows : List R) (ch : ChannelSpec) (ref : Ref) : Bool :=
  match ref with
  | .row uid =>
      match rows.find? fun row => K.uid row = uid with
      | some row => K.fits (proposal js spec ch) ch row
      | none => false
  | _ => false

/-- A turn of the second: a reading that fits. -/
def carryByFit (spec : PartSpec) (rows : List R) (carry : Carry) (ch : ChannelSpec) : Carry :=
  if linked carry.out ch.key then carry
  else
    match carry.free.find? (linkFits K js spec rows ch) with
    | none => carry
    | some ref => carry.take ch.key ref

/-- `new Set(Object.values(old.channels).filter(Boolean))`. -/
def carriable (old : BindingDraft F) : List Ref :=
  ((linksOf old.channels).filter fun ref => ref ≠ .unused).eraseDups

/-- `carryLinks`. -/
def carryLinks (old : BindingDraft F) (spec : PartSpec) (rows : List R) : Record Ref :=
  (spec.channels.foldl (carryByFit K js spec rows)
    (spec.channels.foldl (carryByKey old) ⟨⟨[], List.nodup_nil⟩, carriable old⟩)).out

/-! ## Parts that are new, or on another driver -/

/-- The rows of a kind, and the last uid that was drawn. -/
structure Bench (R : Type) where
  seq : Nat
  rows : List R

/-- What the loop over a part's channels changes. -/
structure Filling (F R : Type) extends Bench R where
  channels : Record Ref
  proposed : List (Nat × Snapshot F)

/-- A turn of that loop; `taken` says which rows other parts of the change have. -/
def fillChannel (spec : PartSpec) (taken : Nat → Bool) (s : Filling F R) (ch : ChannelSpec) :
    Filling F R :=
  if linked s.channels ch.key then s
  else if ch.common = false then { s with channels := s.channels.set ch.key .unused }
  else
    match rowForChannel K js spec ch s.rows
        (fun uid => taken uid || decide (.row uid ∈ linksOf s.channels)) s.seq with
    | .found uid => { s with channels := s.channels.set ch.key (.row uid) }
    | .created row =>
        { seq := s.seq + 1
          rows := s.rows ++ [row]
          channels := s.channels.set ch.key (.row (K.uid row))
          proposed := s.proposed ++ [(K.uid row, K.snapshot row)] }

/-- A part that is new, or on another driver. -/
def isChanged (before : List (BindingDraft F)) (b : BindingDraft F) : Bool :=
  match before.find? fun old => old.uid = b.uid with
  | some old => decide (old.driver ≠ b.driver)
  | none => true

/-- `carried.get(b.uid)`, and the part's proposals among it: what a changed part starts with. -/
def carriedOver (before : List (BindingDraft F)) (spec : PartSpec) (rows : List R)
    (b : BindingDraft F) : BindingDraft F :=
  match before.find? fun old => old.uid = b.uid with
  | none => { b with channels := ⟨[], List.nodup_nil⟩, proposed := [] }
  | some old =>
      let channels := carryLinks K js old spec rows
      { b with
        channels := channels
        proposed := old.proposed.filter fun entry => decide (.row entry.1 ∈ linksOf channels) }

/-- What a change of the parts list is made in. -/
structure Change (F R : Type) where
  drivers : List PartSpec
  before : List (BindingDraft F)
  next : List (BindingDraft F)
  rows : List R
  dropping : List Nat

/-- `dropping.has(ref) ? "" : ref`. -/
def keptRef (dropping : List Nat) (ref : Ref) : Ref :=
  match ref with
  | .row uid => if uid ∈ dropping then .unused else .row uid
  | ref => ref

/-- A part before its channels are filled. -/
def startOf (c : Change F R) (b : BindingDraft F) : BindingDraft F :=
  if isChanged c.before b then
    match findDriver c.drivers b.driver with
    | none => { b with proposed := [] }
    | some spec => carriedOver K js c.before spec c.rows b
  else
    { b with channels := b.channels.mapValues (keptRef c.dropping) }

/-- The rows the other parts of the change have. -/
def takenBy (c : Change F R) (b : BindingDraft F) (uid : Nat) : Bool :=
  decide (.row uid ∈ takenTargets (c.next.filter fun other => other.uid ≠ b.uid))

/-- The loop over the channels of a part. -/
def fillPart (c : Change F R) (bench : Bench R) (b : BindingDraft F) :
    Bench R × BindingDraft F :=
  match isChanged c.before b, findDriver c.drivers b.driver with
  | true, some spec =>
      let start := startOf K js c b
      let filled := spec.channels.foldl (fillChannel K js spec (takenBy c b))
        { bench with channels := start.channels, proposed := start.proposed }
      (filled.toBench, { b with channels := filled.channels, proposed := filled.proposed })
  | _, _ => (bench, startOf K js c b)

/-- `propose`. -/
def propose (c : Change F R) (bench : Bench R) : List (BindingDraft F) →
    Bench R × List (BindingDraft F)
  | [] => (bench, [])
  | b :: rest =>
      let (bench, b) := fillPart K js c bench b
      let (bench, rest) := propose c bench rest
      (bench, b :: rest)

end

/-! ## `reconcileParts` -/

section

variable [DecidableEq F] (js : Wiring.Js)

/-- The row of a uid, as it is now. -/
def snapshotOf (d : TemplateDraft F) (uid : Nat) : Option (Snapshot F) :=
  match d.metrics.find? fun row => row.uid = uid with
  | some row => some (.metric row)
  | none => (d.actuators.find? fun row => row.uid = uid).map .actuator

/-- `prev.hardware`'s parts. -/
def TemplateDraft.parts (d : TemplateDraft F) : List (BindingDraft F) := d.inputs ++ d.outputs

/-- The untouched proposals of the parts that are gone, or on another driver. -/
def untouchedOf (prev : TemplateDraft F) (next : HardwareDraft F) : List Nat :=
  (prev.parts.filter fun old =>
      match next.parts.find? fun b => b.uid = old.uid with
      | some now => decide (now.driver ≠ old.driver)
      | none => true).flatMap fun old =>
    (old.proposed.filter fun entry => snapshotOf prev entry.1 = some entry.2).map Prod.fst

/-- The links a part keeps, where it stays or is replaced. -/
def keptLinks {R : Type} (K : RowKind F R) (drivers : List PartSpec) (before : List (BindingDraft F))
    (rows : List R) (b : BindingDraft F) : List Ref :=
  match before.find? fun old => old.uid = b.uid with
  | none => []
  | some old =>
      if old.driver = b.driver then linksOf b.channels
      else
        match findDriver drivers b.driver with
        | none => []
        | some spec => linksOf (carryLinks K js old spec rows)

/-- `stillLinked`. -/
def stillLinked (drivers : List PartSpec) (prev : TemplateDraft F) (next : HardwareDraft F) :
    List Ref :=
  next.inputs.flatMap (keptLinks js metricKind drivers prev.parts prev.metrics) ++
    next.outputs.flatMap (keptLinks js actuatorKind drivers prev.parts prev.actuators)

/-- `dropping`. -/
def droppedRows (drivers : List PartSpec) (prev : TemplateDraft F) (next : HardwareDraft F) :
    List Nat :=
  (untouchedOf prev next).filter fun uid => decide (.row uid ∉ stillLinked js drivers prev next)

/-- `reconcileParts`, with a wiring and a catalog. -/
def reconcileWiring (drivers : List PartSpec) (seq : Nat) (prev : TemplateDraft F)
    (next : HardwareDraft F) : Nat × TemplateDraft F :=
  let dropping := droppedRows js drivers prev next
  let metrics := prev.metrics.filter fun row => decide (row.uid ∉ dropping)
  let actuators := prev.actuators.filter fun row => decide (row.uid ∉ dropping)
  let (measured, inputs) :=
    propose metricKind js ⟨drivers, prev.parts, next.inputs, prev.metrics, dropping⟩ ⟨seq, metrics⟩
      next.inputs
  let (driven, outputs) :=
    propose actuatorKind js ⟨drivers, prev.parts, next.outputs, prev.actuators, dropping⟩
      ⟨measured.seq, actuators⟩ next.outputs
  (driven.seq,
    { prev with
      metrics := measured.rows
      actuators := driven.rows
      hardware := some ⟨inputs, outputs⟩ })

/-- `reconcileParts`. -/
def reconcileParts (seq : Nat) (prev : TemplateDraft F) (next : Option (HardwareDraft F))
    (catalog : Option (List PartSpec)) : Nat × TemplateDraft F :=
  match catalog, next, prev.hardware with
  | none, next, _ => (seq, { prev with hardware := next })
  | some drivers, some next, _ => reconcileWiring js drivers seq prev next
  -- wiring cleared: as if every part went
  | some drivers, none, some _ =>
      let (seq, d) := reconcileWiring js drivers seq prev ⟨[], []⟩
      (seq, { d with hardware := none })
  | some _, none, none => (seq, prev)

/-! ## `keepReading` -/

/-- The part with this channel linked so. -/
def withChannel (d : TemplateDraft F) (h : HardwareDraft F) (uid : Nat) (channel : String) (ref : Ref)
    (proposed : List (Nat × Snapshot F)) : TemplateDraft F :=
  { d with
    hardware := some
      { h with
        inputs := h.inputs.map fun x =>
          if x.uid = uid then
            { x with channels := x.channels.set channel ref, proposed := proposed }
          else x } }

/-- `keepReading(…, true)`, of a reading that is there. -/
def keep (seq : Nat) (d : TemplateDraft F) (h : HardwareDraft F) (b : BindingDraft F)
    (spec : PartSpec) (ch : ChannelSpec) : Nat × TemplateDraft F :=
  if linked b.channels ch.key then (seq, d)
  else
    match rowForChannel (F := F) metricKind js spec ch d.metrics
        (fun uid => decide (.row uid ∈ takenTargets h.inputs)) seq with
    | .found uid => (seq, withChannel d h b.uid ch.key (.row uid) b.proposed)
    | .created row =>
        (seq + 1,
          { withChannel d h b.uid ch.key (.row row.uid) (b.proposed ++ [(row.uid, .metric row)]) with
            metrics := d.metrics ++ [row] })

/-- The row is what the part has proposed. -/
def untouched (d : TemplateDraft F) (b : BindingDraft F) (uid : Nat) : Bool :=
  match d.metrics.find? fun row => row.uid = uid with
  | some row => decide (b.proposed.lookup uid = some (.metric row))
  | none => false

/-- `keepReading(…, false)`, of a reading that is there. -/
def drop (d : TemplateDraft F) (h : HardwareDraft F) (b : BindingDraft F) (channel : String) :
    TemplateDraft F :=
  match b.channels.get channel with
  | none | some .unused => d
  | some (.missing _) => withChannel d h b.uid channel .unused b.proposed
  | some (.row uid) =>
      if untouched d b uid then
        let next := withChannel d h b.uid channel .unused
          (b.proposed.filter fun entry => entry.1 ≠ uid)
        let fedElsewhere := h.inputs.any fun x =>
          decide (x.uid ≠ b.uid) && decide (.row uid ∈ linksOf x.channels)
        if fedElsewhere then next
        else { next with metrics := d.metrics.filter fun row => row.uid ≠ uid }
      else withChannel d h b.uid channel .unused b.proposed

/-- `keepReading`. -/
def keepReading (seq : Nat) (d : TemplateDraft F) (uid : Nat) (channel : String) (kept : Bool)
    (catalog : Option (List PartSpec)) : Nat × TemplateDraft F :=
  match d.hardware, catalog with
  | some h, some drivers =>
      match h.inputs.find? fun x => x.uid = uid with
      | none => (seq, d)
      | some b =>
          match findDriver drivers b.driver with
          | none => (seq, d)
          | some spec =>
              match spec.channels.find? fun c => c.key = channel with
              | none => (seq, d)
              | some ch => if kept then keep js seq d h b spec ch else (seq, drop d h b channel)
  | _, _ => (seq, d)

end

end IotSaas.Templates
