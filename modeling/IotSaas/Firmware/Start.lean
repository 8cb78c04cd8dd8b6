import IotSaas.Firmware.Io
import IotSaas.Lib.Register

/-!
# `Firmware/Start.lean` — when the loops of `ioBegin` go through

Each loop of `ioBegin` hands out keys one after another: metrics are declared, actuators driven,
metrics fed. So each is an instance of `Registers`, and goes through exactly when every item is good
and no key comes twice. An item here is good when its driver begins; on free pins that depends on
the binding alone (`Starts`), and a driver leaves the pins of the others as they were (`Keeps`).
-/

set_option autoImplicit false

namespace IotSaas.Firmware

open Lib Catalog Editor Wiring

variable {F : Type} {board : Board F}

/-! ## Metrics -/

/-- A key that is not empty and not a topic of the contract. -/
def Allowed (key : String) : Prop := key ≠ "" ∧ key ≠ "status" ∧ key ≠ "config"

instance (key : String) : Decidable (Allowed key) := inferInstanceAs (Decidable (_ ∧ _ ∧ _))

theorem declareMetric_ok {base : String} {metrics out : List (Metric F)} {item : FirmwareMetric} :
    declareMetric board base metrics item = .ok out ↔ Allowed item.key ∧
      item.key ∉ metrics.map Metric.key ∧ out = metrics ++ [newMetric board base item] := by
  rw [declareMetric, ite_error_eq_ok, ite_error_eq_ok, Except.ok.injEq, eq_comm (a := out)]
  simp only [Allowed, not_or, ne_eq]

theorem declareMetric_registers (board : Board F) (base : String) (items : List FirmwareMetric) :
    Registers (declareMetric board base)
      (fun rest metrics => ∃ done, items = done ++ rest ∧
        metrics = done.map (newMetric board base))
      (fun item => Allowed item.key) (fun item => [item.key])
      (fun metrics key => key ∈ metrics.map Metric.key) := by
  constructor
  · intro item rest metrics _
    simp [declareMetric_ok]
  · rintro item rest metrics out ⟨done, hitems, hmetrics⟩ hstep
    obtain ⟨_, _, rfl⟩ := declareMetric_ok.mp hstep
    refine ⟨⟨done ++ [item], by simp [hitems], by simp [hmetrics]⟩, fun key => ?_⟩
    rw [List.map_append, List.mem_append]
    rfl

/-- Metrics are declared when each has a key of its own that a metric may have. -/
theorem beginMetrics_ok (board : Board F) (base : String) {items : List FirmwareMetric} :
    (∃ out, beginMetrics board base items = .ok out) ↔
      (∀ item ∈ items, Allowed item.key) ∧ (items.map FirmwareMetric.key).Nodup := by
  have h := (declareMetric_registers board base items).run _ ⟨[], rfl, rfl⟩
  simpa [beginMetrics, ← List.map_eq_flatMap] using h

theorem beginMetrics_eq {base : String} {items : List FirmwareMetric} {out : List (Metric F)}
    (h : beginMetrics board base items = .ok out) : out = items.map (newMetric board base) := by
  obtain ⟨⟨done, hitems, hout⟩, _⟩ :=
    (declareMetric_registers board base items).run_next ⟨[], rfl, rfl⟩ h
  rw [List.append_nil] at hitems
  rw [hout, hitems]

/-! ## Pins -/

/-- The pins the driver of a binding claims. -/
def held (b : Binding) : List Int :=
  ((findDriver (some drivers) b.driver).toList.flatMap DriverSpec.pins).filterMap fun role =>
    b.pins.lookup role.role

def Free (g : Globals) (pins : List Int) : Prop := ∀ pin ∈ pins, g.owners.get pin = none

/-- Nothing changed hands but these pins, and the bus is as it was. -/
structure Keeps (g g' : Globals) (pins : List Int) : Prop where
  owners : ∀ pin, pin ∉ pins → g'.owners.get pin = g.owners.get pin
  bus : g'.i2cReady = g.i2cReady

theorem Keeps.refl (g : Globals) (pins : List Int) : Keeps g g pins := ⟨fun _ _ => rfl, rfl⟩

theorem Keeps.trans {a b c : Globals} {pins : List Int} (hab : Keeps a b pins)
    (hbc : Keeps b c pins) : Keeps a c pins :=
  ⟨fun pin hpin => (hbc.owners pin hpin).trans (hab.owners pin hpin), hbc.bus.trans hab.bus⟩

theorem Free.keeps {g g' : Globals} {pins taken : List Int} (h : Free g pins)
    (hkeeps : Keeps g g' taken) (hdisjoint : List.Disjoint taken pins) : Free g' pins := by
  intro pin hpin
  rw [hkeeps.owners pin fun hin => hdisjoint hin hpin]
  exact h pin hpin

/-- A driver that, on free pins, begins exactly when its binding is `Good`. -/
structure Starts (board : Board F) (ready : Bool) (d : Driver F) (b : Binding) (Good : Prop) :
    Prop where
  begins : ∀ g, Free g (held b) → g.i2cReady = ready →
    ((∃ g', d.begin board b g = .ok g') ↔ Good)
  keeps : ∀ g g', d.begin board b g = .ok g' → Keeps g g' (held b)

/-- What the bindings that are still to come find: a driver each, and its pins free, as are the pins
of those that come `later`. -/
structure Outlook (board : Board F) (ready : Bool) (make : String → Option (Driver F))
    (Good : Binding → Prop) (later : List Int) (rest : List Binding) (g : Globals) : Prop where
  starts : ∀ b ∈ rest, ∃ d, make b.driver = some d ∧ Starts board ready d b (Good b)
  pins : (rest.flatMap held ++ later).Nodup
  free : Free g (rest.flatMap held ++ later)
  ready : g.i2cReady = ready

namespace Outlook

variable {ready : Bool} {make : String → Option (Driver F)} {Good : Binding → Prop}
  {later : List Int} {b : Binding} {rest : List Binding} {g g' : Globals}

/-- The next binding has a driver that begins exactly when it is good. -/
theorem head (h : Outlook board ready make Good later (b :: rest) g) :
    ∃ d, make b.driver = some d ∧ ((∃ g', d.begin board b g = .ok g') ↔ Good b) ∧
      ∀ g', d.begin board b g = .ok g' → Keeps g g' (held b) := by
  obtain ⟨d, hmake, hd⟩ := h.starts b List.mem_cons_self
  refine ⟨d, hmake, hd.begins g (fun pin hpin => h.free pin ?_) h.ready, hd.keeps g⟩
  simp [hpin]

theorem tail (h : Outlook board ready make Good later (b :: rest) g)
    (hkeeps : Keeps g g' (held b)) : Outlook board ready make Good later rest g' := by
  obtain ⟨hstarts, hpins, hfree, hready⟩ := h
  rw [List.flatMap_cons, List.append_assoc] at hpins hfree
  obtain ⟨_, hpins, hdisjoint⟩ := List.nodup_append'.mp hpins
  have hfree : Free g (rest.flatMap held ++ later) :=
    fun pin hpin => hfree pin (List.mem_append_right _ hpin)
  exact ⟨fun b' hb' => hstarts b' (List.mem_cons_of_mem _ hb'), hpins,
    hfree.keeps hkeeps hdisjoint, hkeeps.bus.trans hready⟩

end Outlook

/-! ## Outputs -/

section

variable [LinearOrder F] {ready : Bool} {Good : Binding → Prop} {later : List Int}
  {declared : List FirmwareActuator} {base : String}

theorem beginOutput_ok {s out : List (Actuator F) × Globals} {b : Binding} {d : Driver F}
    (hmake : makeOutputDriver board.chip b.driver = some d) :
    beginOutput board declared base s b = .ok out ↔
      outputKey b ∈ declared.map FirmwareActuator.key ∧ outputKey b ∉ s.1.map Actuator.key ∧
        ∃ g, d.begin board b s.2 = .ok g ∧
          out = (s.1 ++ [newActuator base (outputKey b) d], g) := by
  unfold beginOutput
  simp only [hmake]
  rw [ite_error_eq_ok, ite_error_eq_ok, bind_eq_ok, not_not]
  simp only [Except.ok.injEq, eq_comm (a := out)]

theorem beginOutput_registers (declared : List FirmwareActuator) (base : String) :
    Registers (beginOutput board declared base)
      (fun rest s => Outlook board ready (makeOutputDriver board.chip) Good later rest s.2)
      (fun b => Good b ∧ outputKey b ∈ declared.map FirmwareActuator.key) (fun b => [outputKey b])
      (fun s key => key ∈ s.1.map Actuator.key) := by
  constructor
  · intro b rest s hs
    obtain ⟨d, hmake, hbegins, _⟩ := hs.head
    rw [← hbegins]
    simp only [beginOutput_ok hmake, List.mem_singleton, forall_eq, List.nodup_singleton, and_true]
    constructor
    · rintro ⟨_, hdeclared, hfree, g, hg, _⟩
      exact ⟨⟨⟨g, hg⟩, hdeclared⟩, hfree⟩
    · rintro ⟨⟨⟨g, hg⟩, hdeclared⟩, hfree⟩
      exact ⟨_, hdeclared, hfree, g, hg, rfl⟩
  · intro b rest s out hs hstep
    obtain ⟨d, hmake, _, hkeeps⟩ := hs.head
    obtain ⟨_, _, g, hg, rfl⟩ := (beginOutput_ok hmake).mp hstep
    refine ⟨hs.tail (hkeeps g hg), fun key => ?_⟩
    rw [List.map_append, List.mem_append]
    rfl

variable {bindings : List Binding} {g : Globals}

/-- Outputs begin when each is good and drives a declared actuator of its own. -/
theorem beginOutputs_ok (declared : List FirmwareActuator) (base : String)
    (h : Outlook board ready (makeOutputDriver board.chip) Good later bindings g) :
    (∃ out, beginOutputs board declared base bindings g = .ok out) ↔
      (∀ b ∈ bindings, Good b ∧ outputKey b ∈ declared.map FirmwareActuator.key) ∧
        (bindings.map outputKey).Nodup := by
  have hrun := (beginOutput_registers declared base).run _ (s := ([], g)) h
  simpa [beginOutputs, ← List.map_eq_flatMap] using hrun

/-- Outputs leave the pins of what comes later. -/
theorem beginOutputs_later {out : List (Actuator F) × Globals}
    (h : Outlook board ready (makeOutputDriver board.chip) Good later bindings g)
    (hrun : beginOutputs board declared base bindings g = .ok out) :
    Free out.2 later ∧ out.2.i2cReady = ready := by
  have hend := ((beginOutput_registers declared base).run_next (s := ([], g)) h hrun).1
  exact ⟨hend.free, hend.ready⟩

end

/-! ## Inputs -/

/-- Setting a source leaves the keys … -/
theorem setSource_keys {key : String} {source : Driver F × String} {metrics : List (Metric F)} :
    (setSource key source metrics).map Metric.key = metrics.map Metric.key := by
  induction metrics with
  | nil => rfl
  | cons m rest ih =>
    rw [setSource]
    split
    · rfl
    · rw [List.map_cons, List.map_cons, ih]

/-- … and the sources of the other keys. -/
theorem sourceOf_setSource {key k : String} {source : Driver F × String}
    {metrics : List (Metric F)} (hkey : key ∈ metrics.map Metric.key) :
    (sourceOf (setSource key source metrics) k).isSome ↔
      (sourceOf metrics k).isSome ∨ k = key := by
  induction metrics with
  | nil => cases hkey
  | cons m rest ih =>
    rw [setSource]
    by_cases hm : m.key = key
    · by_cases hk : k = key
      · simp [sourceOf, hm, hk]
      · have hne : key ≠ k := fun h => hk h.symm
        simp [sourceOf, hm, hk, hne]
    · by_cases hk : m.key = k
      · have hne : k ≠ key := fun h => hm (hk.trans h)
        simp [sourceOf, hk, hne]
      · have hrest : key ∈ rest.map Metric.key := by
          rcases List.mem_cons.mp hkey with h | h
          · exact absurd h.symm hm
          · exact h
        simpa [sourceOf, hm, hk] using ih hrest

section

variable {keys : List String}

theorem bindChannel_ok {id : String} {d : Driver F} {metrics out : List (Metric F)}
    {item : String × String} :
    bindChannel id d metrics item = .ok out ↔ item.1 ∈ d.channels ∧
      item.2 ∈ metrics.map Metric.key ∧ ¬(sourceOf metrics item.2).isSome ∧
        out = setSource item.2 (d, item.1) metrics := by
  unfold bindChannel
  rw [ite_error_eq_ok, ite_error_eq_ok, ite_error_eq_ok, Except.ok.injEq, eq_comm (a := out),
    not_not, not_not]

theorem bindChannel_registers (id : String) (d : Driver F) :
    Registers (bindChannel id d) (fun _ metrics => metrics.map Metric.key = keys)
      (fun item => item.1 ∈ d.channels ∧ item.2 ∈ keys) (fun item => [item.2])
      (fun metrics key => (sourceOf metrics key).isSome) := by
  constructor
  · rintro item rest metrics rfl
    simp [bindChannel_ok, and_assoc]
  · rintro item rest metrics out rfl hstep
    obtain ⟨_, hkey, _, rfl⟩ := bindChannel_ok.mp hstep
    exact ⟨setSource_keys, fun key => by simp [sourceOf_setSource hkey]⟩

/-- The channels of a binding are channels of its driver, and lead to these keys. -/
def Maps (make : String → Option (Driver F)) (keys : List String) (b : Binding) : Prop :=
  ∀ d, make b.driver = some d → ∀ item ∈ b.channels, item.1 ∈ d.channels ∧ item.2 ∈ keys

variable [LinearOrder F] {ready : Bool} {Good : Binding → Prop} {later : List Int}

theorem beginInput_ok {s out : List (Metric F) × Globals} {b : Binding} {d : Driver F}
    (hmake : makeInputDriver board.chip b.driver = some d) :
    beginInput board s b = .ok out ↔ ∃ g, d.begin board b s.2 = .ok g ∧
      ∃ metrics, b.channels.foldlM (bindChannel b.driver d) s.1 = .ok metrics ∧
        out = (metrics, g) := by
  unfold beginInput
  simp only [hmake, bind_eq_ok, Except.ok.injEq, eq_comm (a := out)]

theorem beginInput_registers :
    Registers (beginInput board)
      (fun rest s => Outlook board ready (makeInputDriver board.chip) Good later rest s.2 ∧
        s.1.map Metric.key = keys)
      (fun b => Good b ∧ Maps (makeInputDriver (F := F) board.chip) keys b)
      (fun b => b.channels.map Prod.snd) (fun s key => (sourceOf s.1 key).isSome) := by
  constructor
  · rintro b rest s ⟨hs, hkeys⟩
    obtain ⟨d, hmake, hbegins, _⟩ := hs.head
    have hbind := (bindChannel_registers b.driver d).run b.channels hkeys
    rw [← List.map_eq_flatMap] at hbind
    simp only [beginInput_ok hmake, Maps, hmake, Option.some.injEq, forall_eq', ← hbegins]
    constructor
    · rintro ⟨_, g, hg, metrics, hmetrics, _⟩
      obtain ⟨hmaps, hfree, hnodup⟩ := hbind.mp ⟨metrics, hmetrics⟩
      exact ⟨⟨⟨g, hg⟩, hmaps⟩, hfree, hnodup⟩
    · rintro ⟨⟨⟨g, hg⟩, hmaps⟩, hfree, hnodup⟩
      obtain ⟨metrics, hmetrics⟩ := hbind.mpr ⟨hmaps, hfree, hnodup⟩
      exact ⟨_, g, hg, metrics, hmetrics, rfl⟩
  · rintro b rest s out ⟨hs, hkeys⟩ hstep
    obtain ⟨d, hmake, _, hkeeps⟩ := hs.head
    obtain ⟨g, hg, metrics, hmetrics, rfl⟩ := (beginInput_ok hmake).mp hstep
    obtain ⟨hkeys', hfed⟩ := (bindChannel_registers b.driver d).run_next hkeys hmetrics
    rw [← List.map_eq_flatMap] at hfed
    exact ⟨⟨hs.tail (hkeeps g hg), hkeys'⟩, hfed⟩

/-- Inputs begin when each is good and its channels lead to metrics that nothing else feeds. -/
theorem beginInputs_ok {bindings : List Binding} {metrics : List (Metric F)} {g : Globals}
    (h : Outlook board ready (makeInputDriver board.chip) Good later bindings g)
    (hkeys : metrics.map Metric.key = keys) (hnone : ∀ key, sourceOf metrics key = none) :
    (∃ out, beginInputs board bindings metrics g = .ok out) ↔
      (∀ b ∈ bindings, Good b ∧ Maps (makeInputDriver (F := F) board.chip) keys b) ∧
        (bindings.flatMap fun b => b.channels.map Prod.snd).Nodup := by
  have hrun := beginInput_registers.run _ (s := (metrics, g)) ⟨h, hkeys⟩
  simpa [beginInputs, hnone] using hrun

end

/-! ## The metrics of a board that came up -/

section

variable {base : String} {items : List FirmwareMetric}

theorem newMetric_keys :
    (items.map (newMetric board base)).map Metric.key = items.map FirmwareMetric.key := by
  rw [List.map_map]
  rfl

/-- Metrics that were just declared are fed by nothing. -/
theorem sourceOf_newMetric (key : String) :
    sourceOf (items.map (newMetric board base)) key = none := by
  unfold sourceOf
  cases hfind : (items.map (newMetric board base)).find? fun m => m.key = key with
  | none => rfl
  | some m =>
    obtain ⟨item, _, rfl⟩ := List.mem_map.mp (List.mem_of_find?_eq_some hfind)
    rfl

end

section

/-- A metric as it was declared, whatever feeds it since. -/
def Metric.declared (m : Metric F) : Metric F := { m with source := none }

/-- The keys the inputs lead to. -/
def fedKeys (bindings : List Binding) : List String :=
  bindings.flatMap fun b => b.channels.map Prod.snd

theorem setSource_declared (key : String) (source : Driver F × String) (metrics : List (Metric F)) :
    (setSource key source metrics).map Metric.declared = metrics.map Metric.declared := by
  induction metrics with
  | nil => rfl
  | cons m rest ih =>
    rw [setSource]
    split
    · rfl
    · rw [List.map_cons, List.map_cons, ih]

theorem bindChannels_declared {id : String} {d : Driver F} {items : List (String × String)} :
    ∀ {metrics out : List (Metric F)}, items.foldlM (bindChannel id d) metrics = .ok out →
      out.map Metric.declared = metrics.map Metric.declared := by
  induction items with
  | nil =>
    intro metrics out h
    cases h
    rfl
  | cons item rest ih =>
    intro metrics out h
    rw [List.foldlM_cons] at h
    obtain ⟨next, hnext, hrest⟩ := bind_ok h
    obtain ⟨-, -, -, rfl⟩ := bindChannel_ok.mp hnext
    rw [ih hrest, setSource_declared]

theorem sourceOf_mem {metrics : List (Metric F)} (h : (metrics.map Metric.key).Nodup) {m : Metric F}
    (hm : m ∈ metrics) : sourceOf metrics m.key = m.source := by
  induction metrics with
  | nil => cases hm
  | cons first rest ih =>
    obtain ⟨hfresh, hrest⟩ := List.nodup_cons.mp h
    rcases List.mem_cons.mp hm with rfl | hm
    · simp [sourceOf]
    · have hne : first.key ≠ m.key := fun heq =>
        hfresh (List.mem_map.mpr ⟨m, hm, heq.symm⟩)
      have hlater := ih hrest hm
      simpa [sourceOf, hne] using hlater

variable [LinearOrder F]

/-- Inputs leave the metrics as they were declared, and feed those their channels lead to. -/
theorem beginInputs_metrics {bindings : List Binding} :
    ∀ {metrics : List (Metric F)} {g : Globals} {out : List (Metric F) × Globals},
      beginInputs board bindings metrics g = .ok out →
        out.1.map Metric.declared = metrics.map Metric.declared ∧
          ∀ key, (sourceOf out.1 key).isSome ↔
            (sourceOf metrics key).isSome ∨ key ∈ fedKeys bindings := by
  induction bindings with
  | nil =>
    intro metrics g out h
    cases h
    simp [fedKeys]
  | cons b rest ih =>
    intro metrics g out h
    unfold beginInputs at h
    rw [List.foldlM_cons] at h
    obtain ⟨⟨metrics₁, g₁⟩, hstep, hrest⟩ := bind_ok h
    obtain ⟨hdeclared, hfed⟩ := ih hrest
    cases hmake : makeInputDriver (F := F) board.chip b.driver with
    | none =>
      unfold beginInput at hstep
      rw [hmake] at hstep
      cases hstep
    | some d =>
      obtain ⟨g', -, metrics', hbind, heq⟩ := (beginInput_ok hmake).mp hstep
      cases heq
      obtain ⟨-, hfed'⟩ := (bindChannel_registers b.driver d).run_next rfl hbind
      refine ⟨hdeclared.trans (bindChannels_declared hbind), fun key => ?_⟩
      rw [hfed, hfed', ← List.map_eq_flatMap]
      simp [fedKeys, or_assoc]

/-- What a board's metrics are when it has come up. -/
theorem setup_metrics {cfg : DeviceConfig} {io : Io F} (h : setup board cfg = .ok io) :
    io.metrics.map Metric.declared =
        cfg.metrics.map (newMetric board (cfg.tenant ++ "/" ++ cfg.device ++ "/")) ∧
      (cfg.metrics.map FirmwareMetric.key).Nodup ∧
      ∀ m ∈ io.metrics, m.source.isSome = true ↔ m.key ∈ fedKeys cfg.inputs := by
  unfold setup ioBegin at h
  obtain ⟨metrics, hmetrics, h⟩ := bind_ok h
  obtain ⟨g, -, h⟩ := bind_ok h
  obtain ⟨⟨actuators, g₁⟩, -, h⟩ := bind_ok h
  obtain ⟨⟨metrics', g₂⟩, hinputs, h⟩ := bind_ok h
  cases h
  have hnodup := ((beginMetrics_ok board _).mp ⟨metrics, hmetrics⟩).2
  obtain rfl := beginMetrics_eq hmetrics
  obtain ⟨hdeclared, hfed⟩ := beginInputs_metrics hinputs
  have hnew : (cfg.metrics.map (newMetric board (cfg.tenant ++ "/" ++ cfg.device ++ "/"))).map
      Metric.declared =
        cfg.metrics.map (newMetric board (cfg.tenant ++ "/" ++ cfg.device ++ "/")) := by
    rw [List.map_map]
    rfl
  have hkeys : metrics'.map Metric.key = cfg.metrics.map FirmwareMetric.key := by
    have h := congrArg (List.map Metric.key) hdeclared
    rw [List.map_map, List.map_map, List.map_map] at h
    exact h
  refine ⟨hdeclared.trans hnew, hnodup, fun m hm => ?_⟩
  rw [← sourceOf_mem (hkeys ▸ hnodup) hm, hfed, sourceOf_newMetric]
  simp

end

/-! ## All of it -/

variable [LinearOrder F] {ready : Bool} {Good : Binding → Prop}

/-- What `ioBegin` asks of a config whose bus and pins are in order. -/
structure ComesUp (board : Board F) (Good : Binding → Prop) (cfg : DeviceConfig) : Prop where
  allowed : ∀ item ∈ cfg.metrics, Allowed item.key
  declared : (cfg.metrics.map FirmwareMetric.key).Nodup
  outputs : ∀ b ∈ cfg.outputs, Good b ∧ outputKey b ∈ cfg.actuators.map FirmwareActuator.key
  driven : (cfg.outputs.map outputKey).Nodup
  inputs : ∀ b ∈ cfg.inputs, Good b ∧
    Maps (makeInputDriver (F := F) board.chip) (cfg.metrics.map FirmwareMetric.key) b
  fed : (cfg.inputs.flatMap fun b => b.channels.map Prod.snd).Nodup

/-- **`ioBegin`**, loop by loop: once the bus is there, the outputs find their pins free, and so do
the inputs after them. -/
theorem ioBegin_ok {cfg : DeviceConfig} {g g₀ : Globals}
    (hbus : beginBus board cfg.i2cSda cfg.i2cScl g = .ok g₀)
    (houtputs : Outlook board ready (makeOutputDriver board.chip) Good (cfg.inputs.flatMap held)
      cfg.outputs g₀)
    (hinputs : ∀ b ∈ cfg.inputs, ∃ d, makeInputDriver board.chip b.driver = some d ∧
      Starts board ready d b (Good b)) :
    (∃ io, ioBegin board cfg g = .ok io) ↔ ComesUp board Good cfg := by
  have hoks : (∃ io, ioBegin board cfg g = .ok io) ↔
      ∃ metrics, beginMetrics board (cfg.tenant ++ "/" ++ cfg.device ++ "/") cfg.metrics =
        .ok metrics ∧ ∃ s, beginOutputs board cfg.actuators
          (cfg.tenant ++ "/" ++ cfg.device ++ "/") cfg.outputs g₀ = .ok s ∧
            ∃ s', beginInputs board cfg.inputs metrics s.2 = .ok s' := by
    simp [ioBegin, bind_eq_ok, hbus]
  rw [hoks]
  have hlater : ∀ s, beginOutputs board cfg.actuators
      (cfg.tenant ++ "/" ++ cfg.device ++ "/") cfg.outputs g₀ = .ok s →
      Outlook board ready (makeInputDriver board.chip) Good [] cfg.inputs s.2 := by
    intro s hs
    obtain ⟨hfree, hready⟩ := beginOutputs_later houtputs hs
    refine ⟨hinputs, ?_, ?_, hready⟩
    · simpa using (List.nodup_append'.mp houtputs.pins).2.1
    · simpa using hfree
  constructor
  · rintro ⟨metrics, hmetrics, s, hs, s', hs'⟩
    obtain ⟨hallowed, hdeclared⟩ := (beginMetrics_ok _ _).mp ⟨metrics, hmetrics⟩
    obtain ⟨houts, hdriven⟩ := (beginOutputs_ok _ _ houtputs).mp ⟨s, hs⟩
    rw [beginMetrics_eq hmetrics] at hs'
    obtain ⟨hins, hfed⟩ :=
      (beginInputs_ok (hlater s hs) newMetric_keys sourceOf_newMetric).mp ⟨s', hs'⟩
    exact ⟨hallowed, hdeclared, houts, hdriven, hins, hfed⟩
  · intro h
    obtain ⟨metrics, hmetrics⟩ :=
      (beginMetrics_ok board (cfg.tenant ++ "/" ++ cfg.device ++ "/")).mpr ⟨h.allowed, h.declared⟩
    obtain ⟨s, hs⟩ := (beginOutputs_ok cfg.actuators (cfg.tenant ++ "/" ++ cfg.device ++ "/")
      houtputs).mpr ⟨h.outputs, h.driven⟩
    refine ⟨metrics, hmetrics, s, hs, ?_⟩
    rw [beginMetrics_eq hmetrics]
    exact (beginInputs_ok (hlater s hs) newMetric_keys sourceOf_newMetric).mpr ⟨h.inputs, h.fed⟩

end IotSaas.Firmware
