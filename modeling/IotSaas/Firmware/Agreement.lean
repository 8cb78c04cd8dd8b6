import IotSaas.Firmware.Loaded
import IotSaas.Firmware.Settings

/-!
# `Firmware/Agreement.lean` — what the editor accepts, and what the board starts with

A draft without errors, the request made of it, the config written of the request, and the board
that loads it: `agreement` says exactly when `ioBegin` then succeeds. Drivers, roles, pins, the bus
and every channel that is checked are always granted. What the editor leaves unchecked is `Boots`:
keys of metrics, settings that are typed one way and read another, a pull that is left out, a servo's
pulse widths, channels that no driver has, and actuators without a key.
-/

set_option autoImplicit false

namespace IotSaas.Firmware

open Lib Catalog Editor Wiring

/-! ## Keys -/

/-- The wire id of a row. -/
def rowId (js : Js) (row : KeyedRow) : String := wireId js (jsTrim row.name) (savedKey row)

theorem jsTrim_jsTrim (s : String) : jsTrim (jsTrim s) = jsTrim s := by
  simp [jsTrim, trim_trim]

theorem rowId_of_key (js : Js) {row : KeyedRow} (h : jsTrim row.key ≠ "") :
    rowId js row = jsTrim row.key := by
  simp [rowId, savedKey, wireId, h]

section

variable {list : List KeyedRow} {ref : String}

/-- A reference that has a row leads to the row's key. -/
theorem keyOf_row (h : ∃ row, (list.map KeyedRow.trimmed).find? (fun r => r.uid = ref) = some row) :
    ∃ row ∈ list, row.uid = ref ∧ keyOf (list.map KeyedRow.trimmed) ref = jsTrim row.key := by
  obtain ⟨_, hfind⟩ := h
  obtain ⟨row, hrow, rfl⟩ := List.mem_map.mp (List.mem_of_find?_eq_some hfind)
  have huid : row.uid = ref := by
    have hfound := List.find?_some hfind
    exact of_decide_eq_true hfound
  refine ⟨row, hrow, huid, ?_⟩
  have hpresent : isMissing ref = false := huid ▸ row.present
  unfold keyOf
  rw [if_neg (by simp [hpresent]), hfind]
  exact jsTrim_jsTrim row.key

/-- Where no two rows have one wire id, two references that lead to one key are one. -/
theorem ref_unique (js : Js) (hids : (list.map (rowId js)).Nodup) {ref' : String}
    (h : ∃ row, (list.map KeyedRow.trimmed).find? (fun r => r.uid = ref) = some row)
    (h' : ∃ row, (list.map KeyedRow.trimmed).find? (fun r => r.uid = ref') = some row)
    (hkey : keyOf (list.map KeyedRow.trimmed) ref ≠ "")
    (heq : keyOf (list.map KeyedRow.trimmed) ref = keyOf (list.map KeyedRow.trimmed) ref') :
    ref = ref' := by
  obtain ⟨row, hrow, rfl, hk⟩ := keyOf_row h
  obtain ⟨row', hrow', rfl, hk'⟩ := keyOf_row h'
  rw [hk] at hkey
  rw [hk, hk'] at heq
  have hid : rowId js row = rowId js row' := by
    rw [rowId_of_key js hkey, rowId_of_key js (heq ▸ hkey), heq]
  rw [List.inj_on_of_nodup_map hids hrow hrow' hid]

end

theorem leadsTo_eq {list : List KeyedRow} {ref : String} (h : leadsTo list ref ≠ "") :
    ref ≠ "" ∧ leadsTo list ref = keyOf list ref := by
  unfold leadsTo at h ⊢
  split at h
  · exact absurd rfl h
  · rename_i hne
    exact ⟨hne, if_neg hne⟩

/-! ## Bindings -/

section

variable {F : Type} [LinearOrder F] {js : Js} {model : BoardModel} {kind : Kind}
  {list : List KeyedRow} {b : BindingDraft} {spec : DriverSpec} {board : Board F} {ready : Bool}

/-- The settings of a part are ones its driver takes and can work with. -/
def SettingsOk (js : Js) (board : Board F) (b : BindingDraft) : Prop :=
  (∀ spec, findDriver (some drivers) b.driver = some spec →
    ∀ p ∈ spec.params, Taken js p (b.params.get p.key)) ∧ Workable js board b

/-- A driver of the catalog begins, on free pins, with settings that are in order. -/
def GoodBinding (board : Board F) (ready : Bool) (b : Binding) : Prop :=
  ∀ spec, findDriver (some drivers) b.driver = some spec →
    (∀ p ∈ spec.params, Reads (param b p.key) p) ∧ OwnRule board spec.id b ready

theorem goodBinding_request (hpart : Part js drivers model kind b spec)
    (hchip : board.chip = model.chip) (hready : spec.i2c = true → ready = true) :
    GoodBinding board ready (requestBinding js (some drivers) list b) ↔ SettingsOk js board b := by
  have hfound : ∀ {P : DriverSpec → Prop}, (∀ spec', findDriver (some drivers) b.driver =
      some spec' → P spec') ↔ P spec := by
    intro P
    simp [hpart.found]
  unfold GoodBinding SettingsOk
  rw [show (requestBinding js (some drivers) list b).driver = b.driver from rfl, hfound, hfound,
    ownRule_request hpart hchip hready]
  refine and_congr (forall₂_congr fun p hp => ?_) Iff.rfl
  rw [param_request js list hpart.found hp]
  exact reads_sent (findDriver_some hpart.found).1 hp (hpart.params p hp)

/-- The driver of a checked part starts, exactly with settings that are in order. -/
theorem starts_request {e : Driver F} (he : EntryOf board spec e)
    (hpart : Part js drivers model kind b spec) (hchip : board.chip = model.chip)
    (hpicked : (picked b).Nodup) :
    Starts board ready e (requestBinding js (some drivers) list b)
      (GoodBinding board ready (requestBinding js (some drivers) list b)) := by
  have hfound : findDriver (some drivers) (requestBinding js (some drivers) list b).driver =
      some spec := hpart.found
  have hheld := held_request js list hpart.found
  constructor
  · intro g hfree hready
    constructor
    · rintro ⟨g', hg'⟩ spec' hspec'
      rw [hfound, Option.some.injEq] at hspec'
      subst hspec'
      obtain ⟨_, hreads, hrule⟩ := (he.begins _ _ _).mp hg'
      exact ⟨hreads, hready ▸ hrule⟩
    · intro hgood
      obtain ⟨hreads, hrule⟩ := hgood spec hfound
      have hpins : ((requestBinding js (some drivers) list b).pins.map Prod.snd).Nodup := by
        rw [request_pins]
        exact hpicked
      have hroles : ∀ role ∈ spec.pins, ∃ pin,
          (requestBinding js (some drivers) list b).pins.lookup role.role = some pin ∧
            Suits model role.needs pin ∧ g.owners.get pin = none := by
        intro role hrole
        obtain ⟨pin, hpin, hsuits⟩ := hpart.pins role hrole
        refine ⟨pin, by rw [request_pin, hpin], hsuits, hfree pin ?_⟩
        rw [hheld]
        exact List.mem_filterMap.mpr ⟨role, hrole, hpin⟩
      obtain ⟨g', hg'⟩ :=
        claimRoles_granted hpins (roles_nodup (findDriver_some hpart.found).1) hroles
      exact ⟨g', (he.begins _ _ _).mpr ⟨hchip ▸ hg', hreads, hready.symm ▸ hrule⟩⟩
  · intro g g' hg'
    refine claimRoles_keeps (fun role hrole pin hpin => ?_) ((he.begins _ _ _).mp hg').1
    rw [hheld]
    rw [request_pin] at hpin
    exact List.mem_filterMap.mpr ⟨role, hrole, hpin⟩

/-- Every checked input has its driver … -/
theorem input_starts (hpart : Part js drivers model .input b spec)
    (hchip : board.chip = model.chip) (hpicked : (picked b).Nodup) :
    ∃ e, makeInputDriver board.chip b.driver = some e ∧
      e.channels.Perm (spec.channels.map DriverChannelSpec.key) ∧
      Starts board ready e (requestBinding js (some drivers) list b)
        (GoodBinding board ready (requestBinding js (some drivers) list b)) := by
  obtain ⟨hspec, hid⟩ := findDriver_some hpart.found
  obtain ⟨e, he, hentry⟩ := input_entry board hspec hpart.kind
  refine ⟨e, ?_, hentry.channels hpart.kind, starts_request hentry hpart hchip hpicked⟩
  have hbuilt : built board.chip e.id = true := by
    rw [hentry.id, hchip]
    exact built_of_runsOn hspec hpart.runs
  have hnodup : ((inputEntries (F := F)).map Driver.id).Nodup :=
    (by decide : ["digital_in", "analog_in", "ds18b20", "dht22", "pulse_counter", "hcsr04",
      "mpu6050"].Nodup)
  rw [← hid, ← hentry.id]
  exact find_entry hnodup he hbuilt

/-- … and so has every checked output. -/
theorem output_starts (works : board.Works) (hpart : Part js drivers model .output b spec)
    (hchip : board.chip = model.chip) (hpicked : (picked b).Nodup) :
    ∃ e, makeOutputDriver board.chip b.driver = some e ∧
      Starts board ready e (requestBinding js (some drivers) list b)
        (GoodBinding board ready (requestBinding js (some drivers) list b)) := by
  obtain ⟨hspec, hid⟩ := findDriver_some hpart.found
  obtain ⟨e, he, hentry⟩ := output_entry board works hspec hpart.kind
  refine ⟨e, ?_, starts_request hentry hpart hchip hpicked⟩
  have hbuilt : built board.chip e.id = true := by
    rw [hentry.id, hchip]
    exact built_of_runsOn hspec hpart.runs
  have hnodup : ((outputEntries (F := F)).map Driver.id).Nodup :=
    (by decide : ["relay", "pwm", "servo"].Nodup)
  rw [← hid, ← hentry.id]
  exact find_entry hnodup he hbuilt

end

/-! ## Channels -/

/-- What an output drives. -/
theorem outputKey_request {js : Js} {rows : List KeyedRow} {b : BindingDraft}
    (hvalue : b.ref "value" ≠ "") :
    outputKey (requestBinding js (some drivers) rows b) = keyOf rows (b.ref "value") := by
  unfold outputKey
  rw [request_channel]
  unfold BindingDraft.ref at hvalue ⊢
  cases hget : b.channels.get "value" with
  | none => simp [hget] at hvalue
  | some ref =>
    simp only [hget, Option.getD_some] at hvalue
    have hleads : leadsTo rows ref = keyOf rows ref := if_neg hvalue
    simp only [Option.bind_some, Option.getD_some, hleads]
    split
    · rename_i hkey
      exact hkey.symm
    · rfl

/-- Every output of the catalog has the one channel `value`. -/
theorem output_channels {spec : DriverSpec} (hspec : spec ∈ drivers) (hkind : spec.kind = .output) :
    "value" ∈ spec.channels.map DriverChannelSpec.key := by
  have hall : ∀ spec ∈ drivers, spec.kind = .output →
      "value" ∈ spec.channels.map DriverChannelSpec.key := by
    decide +kernel
  exact hall spec hspec hkind

theorem mem_refsOf {b : BindingDraft} {channels : List DriverChannelSpec} {channel ref : String}
    (hchannel : channel ∈ channels.map DriverChannelSpec.key) (hget : b.ref channel = ref)
    (hne : ref ≠ "") : ref ∈ refsOf b channels := by
  obtain ⟨ch, hch, rfl⟩ := List.mem_map.mp hchannel
  exact List.mem_filter.mpr ⟨List.mem_map.mpr ⟨ch, hch, hget⟩, by simp [hne]⟩

section

variable {list : List KeyedRow} {b : BindingDraft} {spec : DriverSpec}

/-- The references of a binding that lead to a key. -/
def leading (list : List KeyedRow) (b : BindingDraft) : List (String × String) :=
  b.channels.items.filter fun item => leadsTo list item.2 ≠ ""

theorem request_fed (js : Js) (list : List KeyedRow) (b : BindingDraft) :
    (requestBinding js (some drivers) list b).channels.map Prod.snd =
      ((leading list b).map Prod.snd).map (leadsTo list) := by
  unfold requestBinding leading
  dsimp only
  induction b.channels.items with
  | nil => rfl
  | cons item rest ih =>
    rw [List.filterMap_cons, List.filter_cons]
    by_cases hkey : leadsTo list item.2 = ""
    · simp [hkey, ih]
    · simp [hkey, ih]

/-- What leads to a key is a channel of the driver. -/
def OwnChannels (list : List KeyedRow) (b : BindingDraft) (channels : List DriverChannelSpec) :
    Prop :=
  ∀ item ∈ leading list b, item.1 ∈ channels.map DriverChannelSpec.key

theorem leading_refs (hown : OwnChannels list b spec.channels) :
    (leading list b).map Prod.snd ⊆ refsOf b spec.channels := by
  intro ref href
  obtain ⟨item, hitem, rfl⟩ := List.mem_map.mp href
  obtain ⟨hmem, hleads⟩ := List.mem_filter.mp hitem
  have hget : b.ref item.1 = item.2 := by
    have h : b.channels.get item.1 = some item.2 := Record.get_eq_some.mpr hmem
    simp [BindingDraft.ref, h]
  exact mem_refsOf (hown item hitem) hget (leadsTo_eq (of_decide_eq_true hleads)).1

/-- Two channels that lead to one row would be there twice. -/
theorem leading_nodup (hown : OwnChannels list b spec.channels)
    (hrefs : (refsOf b spec.channels).Nodup) : ((leading list b).map Prod.snd).Nodup := by
  have hitems : (leading list b).Nodup := b.channels.nodup.of_map.filter _
  refine (List.nodup_map_iff_inj_on hitems).mpr fun item hitem item' hitem' heq => ?_
  obtain ⟨hmem, hleads⟩ := List.mem_filter.mp hitem
  obtain ⟨hmem', _⟩ := List.mem_filter.mp hitem'
  have href : ∀ item ∈ leading list b, ∃ ch ∈ spec.channels, ch.key = item.1 ∧
      b.ref ch.key = item.2 := by
    intro item hitem
    obtain ⟨ch, hch, hkey⟩ := List.mem_map.mp (hown item hitem)
    have h : b.channels.get item.1 = some item.2 :=
      Record.get_eq_some.mpr (List.mem_filter.mp hitem).1
    exact ⟨ch, hch, hkey, by simp [BindingDraft.ref, hkey, h]⟩
  obtain ⟨ch, hch, hkey, hget⟩ := href item hitem
  obtain ⟨ch', hch', hkey', hget'⟩ := href item' hitem'
  have hne : item.2 ≠ "" := (leadsTo_eq (of_decide_eq_true hleads)).1
  have hused : refsOf b spec.channels =
      (spec.channels.filter fun ch => b.ref ch.key ≠ "").map fun ch => b.ref ch.key := by
    simp [refsOf, List.filter_map, Function.comp_def]
  rw [hused] at hrefs
  have hsame : ch = ch' := by
    refine List.inj_on_of_nodup_map hrefs ?_ ?_ (by rw [hget, hget', heq])
    · exact List.mem_filter.mpr ⟨hch, by simp [hget, hne]⟩
    · exact List.mem_filter.mpr ⟨hch', by simp [hget', ← heq, hne]⟩
  exact Prod.ext (by rw [← hkey, ← hkey', hsame]) heq

/-- Its references have rows. -/
def HasRows (list : List KeyedRow) (refs : List String) : Prop :=
  ∀ ref ∈ refs, ∃ row, list.find? (fun r => r.uid = ref) = some row

/-- The channels of a checked input lead to metrics, where they are its driver's. -/
theorem maps_request {F : Type} [LinearOrder F] {board : Board F} {e : Driver F} (js : Js)
    (hmake : makeInputDriver board.chip b.driver = some e)
    (hchannels : e.channels.Perm (spec.channels.map DriverChannelSpec.key))
    (hrows : HasRows (list.map KeyedRow.trimmed) (refsOf b spec.channels)) :
    Maps (makeInputDriver (F := F) board.chip) (list.map (rowId js))
        (requestBinding js (some drivers) (list.map KeyedRow.trimmed) b) ↔
      OwnChannels (list.map KeyedRow.trimmed) b spec.channels := by
  have hmaps : Maps (makeInputDriver (F := F) board.chip) (list.map (rowId js))
      (requestBinding js (some drivers) (list.map KeyedRow.trimmed) b) ↔
      ∀ item ∈ (requestBinding js (some drivers) (list.map KeyedRow.trimmed) b).channels,
        item.1 ∈ e.channels ∧ item.2 ∈ list.map (rowId js) := by
    simp [Maps, show (requestBinding js (some drivers) (list.map KeyedRow.trimmed) b).driver =
      b.driver from rfl, hmake]
  rw [hmaps]
  constructor
  · intro h item hitem
    obtain ⟨hmem, hleads⟩ := List.mem_filter.mp hitem
    have hin := (mem_request_channels js (some drivers) (list.map KeyedRow.trimmed) b).mpr
      ⟨of_decide_eq_true hleads, item.2, hmem, rfl⟩
    exact hchannels.mem_iff.mp (h _ hin).1
  · rintro hown ⟨channel, key⟩ hitem
    obtain ⟨hkey, ref, hmem, rfl⟩ := (mem_request_channels _ _ _ b).mp hitem
    have hlead : (channel, ref) ∈ leading (list.map KeyedRow.trimmed) b :=
      List.mem_filter.mpr ⟨hmem, decide_eq_true hkey⟩
    refine ⟨hchannels.mem_iff.mpr (hown (channel, ref) hlead), ?_⟩
    obtain ⟨row, hrow, _, hk⟩ :=
      keyOf_row (hrows ref (leading_refs hown (List.mem_map_of_mem hlead)))
    have hleads := (leadsTo_eq hkey).2
    rw [hleads, hk] at hkey ⊢
    rw [← rowId_of_key js hkey]
    exact List.mem_map_of_mem hrow

/-- Checked inputs feed each key once, where no two metrics have one wire id. -/
theorem fed_nodup (js : Js) {bindings : List BindingDraft} (hids : (list.map (rowId js)).Nodup)
    (hrows : HasRows (list.map KeyedRow.trimmed) (refs drivers bindings))
    (honce : (refs drivers bindings).Nodup)
    (hown : ∀ b ∈ bindings, ∃ spec, findDriver (some drivers) b.driver = some spec ∧
      OwnChannels (list.map KeyedRow.trimmed) b spec.channels) :
    ((bindings.map (requestBinding js (some drivers) (list.map KeyedRow.trimmed))).flatMap
      fun b => b.channels.map Prod.snd).Nodup := by
  have hsub : ∀ b ∈ bindings, (leading (list.map KeyedRow.trimmed) b).map Prod.snd ⊆
      refsOf b (channelsOf (some drivers) b) := by
    intro b hb
    obtain ⟨spec, hspec, hchannels⟩ := hown b hb
    simp only [channelsOf, hspec]
    exact leading_refs hchannels
  have hnodup : ∀ b ∈ bindings, ((leading (list.map KeyedRow.trimmed) b).map Prod.snd).Nodup := by
    intro b hb
    obtain ⟨spec, hspec, hchannels⟩ := hown b hb
    have hrefs := (List.nodup_flatMap.mp honce).1 b hb
    simp only [channelsOf, hspec] at hrefs
    exact leading_nodup hchannels hrefs
  have hused := nodup_flatMap_mono honce hnodup hsub
  rw [List.flatMap_map]
  simp only [request_fed]
  rw [← List.map_flatMap]
  refine hused.map_on fun ref href ref' href' heq => ?_
  obtain ⟨b, hb, hin⟩ := List.mem_flatMap.mp href
  obtain ⟨b', hb', hin'⟩ := List.mem_flatMap.mp href'
  have hkey : leadsTo (list.map KeyedRow.trimmed) ref ≠ "" := by
    obtain ⟨item, hitem, rfl⟩ := List.mem_map.mp hin
    exact of_decide_eq_true (List.mem_filter.mp hitem).2
  have hleads := (leadsTo_eq hkey).2
  have hleads' := (leadsTo_eq (heq ▸ hkey)).2
  exact ref_unique js hids (hrows ref (List.mem_flatMap.mpr ⟨b, hb, hsub b hb hin⟩))
    (hrows ref' (List.mem_flatMap.mpr ⟨b', hb', hsub b' hb' hin'⟩)) (hleads ▸ hkey)
    (by rw [← hleads, ← hleads', heq])

end

/-! ## The agreement -/

/-- What a draft without errors still needs for the board to come up. -/
structure Boots {F : Type} [LinearOrder F] (js : Js) (board : Board F) (t : Template)
    (h : HardwareDraft) : Prop where
  /-- Each metric has a wire id, of its own, that is not a topic of the contract. -/
  allowed : ∀ row ∈ t.metrics, Allowed (rowId js row.toKeyedRow)
  distinct : (t.metrics.map fun row => rowId js row.toKeyedRow).Nodup
  /-- Each part has settings that its driver takes and can work with. -/
  settings : ∀ kind, ∀ b ∈ h.bindings kind, SettingsOk js board b
  /-- No input leads to a key from a channel that its driver has not. -/
  channels : ∀ b ∈ h.inputs, OwnChannels t.rows.metrics b (channelsOf (some drivers) b)
  /-- No two outputs drive actuators of one key, and an actuator without a key has no wire id. -/
  keyed : ∀ b ∈ h.outputs, keyOf t.rows.actuators (b.ref "value") = "" →
    "" ∈ t.actuators.map (rowId js)
  driven : (h.outputs.map fun b => keyOf t.rows.actuators (b.ref "value")).Nodup

section

variable {F : Type} [LinearOrder F] {board : Board F} {js : Js} {t : Template} {h : HardwareDraft}
  {model : BoardModel}

/-- The rows the metrics of a template are fed through. -/
def metricRows (t : Template) : List KeyedRow := t.metrics.map MetricRow.toKeyedRow

theorem rows_metrics (t : Template) : t.rows.metrics = (metricRows t).map KeyedRow.trimmed := by
  simp [Template.rows, metricRows]

/-- The bindings of a kind, with their pins. -/
theorem picked_nodup (hchecked : Checked js drivers model h t.rows) (kind : Kind) :
    ∀ b ∈ h.bindings kind, (picked b).Nodup := by
  have hpins := hchecked.pins
  rw [usedPins_eq, List.nodup_append', List.nodup_append'] at hpins
  obtain ⟨_, ⟨hinputs, houtputs, _⟩, _⟩ := hpins
  cases kind with
  | input => exact (List.nodup_flatMap.mp hinputs).1
  | output => exact (List.nodup_flatMap.mp houtputs).1

/-- The pins the drivers of a list claim are among those that are picked, each once. -/
theorem held_bindings (list : List KeyedRow) {kind : Kind}
    (hkind : KindChecked js drivers model h t.rows kind)
    (hpicked : ((h.bindings kind).flatMap picked).Nodup) :
    (((h.bindings kind).map (requestBinding js (some drivers) list)).flatMap held).Nodup ∧
      ((h.bindings kind).map (requestBinding js (some drivers) list)).flatMap held ⊆
        (h.bindings kind).flatMap picked := by
  rw [List.flatMap_map]
  constructor
  · refine nodup_flatMap_mono hpicked (fun b hb => ?_) fun b hb => ?_
    · obtain ⟨spec, hpart⟩ := hkind.parts b hb
      exact held_nodup js list hpart.found ((List.nodup_flatMap.mp hpicked).1 b hb)
    · obtain ⟨spec, hpart⟩ := hkind.parts b hb
      exact held_subset js list hpart.found
  · intro pin hpin
    obtain ⟨b, hb, hheld⟩ := List.mem_flatMap.mp hpin
    obtain ⟨spec, hpart⟩ := hkind.parts b hb
    exact List.mem_flatMap.mpr ⟨b, hb, held_subset js list hpart.found hheld⟩

/-- Each pin a driver claims is one the model offers. -/
theorem suits_of_held {list : List KeyedRow} {kind : Kind}
    (hkind : KindChecked js drivers model h t.rows kind) {pin : Int}
    (hpin : pin ∈ ((h.bindings kind).map (requestBinding js (some drivers) list)).flatMap held) :
    ∃ needs, Suits model needs pin := by
  rw [List.flatMap_map] at hpin
  obtain ⟨b, hb, hheld⟩ := List.mem_flatMap.mp hpin
  obtain ⟨spec, hpart⟩ := hkind.parts b hb
  rw [held_request js list hpart.found] at hheld
  obtain ⟨role, hrole, hget⟩ := List.mem_filterMap.mp hheld
  obtain ⟨pin', hpin', hsuits⟩ := hpart.pins role hrole
  rw [hget, Option.some.injEq] at hpin'
  exact ⟨role.needs, hpin' ▸ hsuits⟩

section

variable (hchecked : Checked js drivers model h t.rows)

include hchecked

/-- A part on the bus has its bus. -/
theorem bus_of_part {kind : Kind} {b : BindingDraft} (hb : b ∈ h.bindings kind) {spec : DriverSpec}
    (hpart : Part js drivers model kind b spec) (hi2c : spec.i2c = true) : h.i2c.isSome = true := by
  apply hchecked.bus
  have hmem : b ∈ h.inputs ++ h.outputs := by
    cases kind with
    | input => exact List.mem_append_left _ hb
    | output => exact List.mem_append_right _ hb
  exact List.any_eq_true.mpr ⟨b, hmem, by simp [hpart.found, hi2c]⟩

/-- An output drives a declared actuator, unless its actuator has no key. -/
theorem output_declared {b : BindingDraft} (hb : b ∈ h.outputs) :
    keyOf t.rows.actuators (b.ref "value") ∈ t.actuators.map (rowId js) ↔
      (keyOf t.rows.actuators (b.ref "value") = "" → "" ∈ t.actuators.map (rowId js)) := by
  have hkind := hchecked.kinds .output
  obtain ⟨spec, hpart⟩ := hkind.parts b hb
  have hvalue := hkind.drives rfl b hb
  have href : b.ref "value" ∈ refs drivers (h.bindings .output) := by
    refine List.mem_flatMap.mpr ⟨b, hb, ?_⟩
    simp only [channelsOf, hpart.found]
    exact mem_refsOf (output_channels (findDriver_some hpart.found).1 hpart.kind) rfl hvalue
  obtain ⟨row, hrow, _, hkey⟩ := keyOf_row (hkind.row _ href)
  change keyOf t.rows.actuators (b.ref "value") = _ at hkey
  rw [hkey]
  constructor
  · intro hin hblank
    rwa [hblank] at hin
  · intro hin
    by_cases hblank : jsTrim row.key = ""
    · rw [hblank]
      exact hin hblank
    · rw [← rowId_of_key js hblank]
      exact List.mem_map_of_mem hrow

/-- The settings of the bindings of one kind. -/
theorem goodBindings_iff (hchip : board.chip = model.chip) (kind : Kind) (list : List KeyedRow)
    {b : BindingDraft} (hb : b ∈ h.bindings kind) :
    GoodBinding board h.i2c.isSome (requestBinding js (some drivers) list b) ↔
      SettingsOk js board b := by
  obtain ⟨spec, hpart⟩ := (hchecked.kinds kind).parts b hb
  exact goodBinding_request hpart hchip (bus_of_part hchecked hb hpart)

/-- The channels of the inputs. -/
theorem maps_iff (hchip : board.chip = model.chip) {b : BindingDraft} (hb : b ∈ h.inputs) :
    Maps (makeInputDriver (F := F) board.chip) ((metricRows t).map (rowId js))
        (requestBinding js (some drivers) t.rows.metrics b) ↔
      OwnChannels t.rows.metrics b (channelsOf (some drivers) b) := by
  have hkind := hchecked.kinds .input
  obtain ⟨spec, hpart⟩ := hkind.parts b hb
  have hstarts : ∃ e, makeInputDriver board.chip b.driver = some e ∧
      e.channels.Perm (spec.channels.map DriverChannelSpec.key) ∧
      Starts board true e (requestBinding js (some drivers) t.rows.metrics b) _ :=
    input_starts hpart hchip (picked_nodup hchecked .input b hb)
  obtain ⟨e, hmake, hchannels, _⟩ := hstarts
  have hof : channelsOf (some drivers) b = spec.channels := by
    simp [channelsOf, hpart.found]
  rw [hof, rows_metrics]
  refine maps_request js hmake hchannels fun ref href => ?_
  rw [← rows_metrics]
  exact hkind.row ref (List.mem_flatMap.mpr ⟨b, hb, hof ▸ href⟩)

/-- The loops of `ioBegin`, on the config of a checked draft. -/
theorem comesUp_iff {cfg : DeviceConfig}
    (hchip : board.chip = model.chip)
    (hmetrics : cfg.metrics = (t.metrics.map MetricRow.toMetric).map (firmwareMetric js))
    (hactuators : cfg.actuators = (t.actuators.map KeyedRow.toActuator).map (firmwareActuator js))
    (hinputs : cfg.inputs = h.inputs.map (requestBinding js (some drivers) t.rows.metrics))
    (houtputs : cfg.outputs = h.outputs.map (requestBinding js (some drivers) t.rows.actuators)) :
    ComesUp board (GoodBinding board h.i2c.isSome) cfg ↔ Boots js board t h := by
  have hids : cfg.metrics.map FirmwareMetric.key = (metricRows t).map (rowId js) := by
    rw [hmetrics]
    simp only [metricRows, List.map_map]
    rfl
  have hdeclared : cfg.actuators.map FirmwareActuator.key = t.actuators.map (rowId js) := by
    rw [hactuators]
    simp only [List.map_map]
    rfl
  have hallowed : (∀ item ∈ cfg.metrics, Allowed item.key) ↔
      ∀ row ∈ t.metrics, Allowed (rowId js row.toKeyedRow) := by
    have hall : (∀ key ∈ cfg.metrics.map FirmwareMetric.key, Allowed key) ↔
        ∀ key ∈ (metricRows t).map (rowId js), Allowed key := by rw [hids]
    simpa [metricRows] using hall
  have hdistinct : (cfg.metrics.map FirmwareMetric.key).Nodup ↔
      (t.metrics.map fun row => rowId js row.toKeyedRow).Nodup := by
    rw [hids, metricRows, List.map_map]
    rfl
  -- What drives an actuator is its row's key on both sides.
  have hkeys : cfg.outputs.map outputKey =
      h.outputs.map fun b => keyOf t.rows.actuators (b.ref "value") := by
    rw [houtputs, List.map_map]
    exact List.map_congr_left fun b hb =>
      outputKey_request ((hchecked.kinds .output).drives rfl b hb)
  constructor
  · intro hup
    have houts : ∀ b ∈ h.outputs, SettingsOk js board b ∧
        keyOf t.rows.actuators (b.ref "value") ∈ t.actuators.map (rowId js) := by
      intro b hb
      have hout := hup.outputs (requestBinding js (some drivers) t.rows.actuators b)
        (houtputs ▸ List.mem_map_of_mem hb)
      rw [goodBindings_iff hchecked hchip .output _ hb, hdeclared,
        outputKey_request ((hchecked.kinds .output).drives rfl b hb)] at hout
      exact hout
    have hins : ∀ b ∈ h.inputs, SettingsOk js board b ∧
        OwnChannels t.rows.metrics b (channelsOf (some drivers) b) := by
      intro b hb
      have hin := hup.inputs (requestBinding js (some drivers) t.rows.metrics b)
        (hinputs ▸ List.mem_map_of_mem hb)
      rw [goodBindings_iff hchecked hchip .input _ hb, hids, maps_iff hchecked hchip hb] at hin
      exact hin
    refine ⟨hallowed.mp hup.allowed, hdistinct.mp hup.declared, fun kind b hb => ?_,
      fun b hb => (hins b hb).2, fun b hb => (output_declared hchecked hb).mp (houts b hb).2,
      hkeys ▸ hup.driven⟩
    cases kind with
    | input => exact (hins b hb).1
    | output => exact (houts b hb).1
  · intro hboots
    refine ⟨hallowed.mpr hboots.allowed, hdistinct.mpr hboots.distinct, ?_, hkeys ▸ hboots.driven,
      ?_, ?_⟩
    · rw [houtputs]
      refine List.forall_mem_map.mpr fun b hb => ⟨?_, ?_⟩
      · exact (goodBindings_iff hchecked hchip .output _ hb).mpr (hboots.settings .output b hb)
      · rw [hdeclared, outputKey_request ((hchecked.kinds .output).drives rfl b hb)]
        exact (output_declared hchecked hb).mpr (hboots.keyed b hb)
    · rw [hinputs]
      refine List.forall_mem_map.mpr fun b hb => ⟨?_, ?_⟩
      · exact (goodBindings_iff hchecked hchip .input _ hb).mpr (hboots.settings .input b hb)
      · rw [hids, maps_iff hchecked hchip hb]
        exact hboots.channels b hb
    · have hkind := hchecked.kinds .input
      have hrows := hkind.row
      have hmetricIds : ((metricRows t).map (rowId js)).Nodup := by
        rw [← hids]
        exact hdistinct.mpr hboots.distinct
      change HasRows t.rows.metrics _ at hrows
      rw [rows_metrics] at hrows
      rw [hinputs, rows_metrics]
      -- The draft has a metric once, and what leads to it is a channel of the driver.
      refine fed_nodup js hmetricIds hrows hkind.once fun b hb => ?_
      obtain ⟨spec, hpart⟩ := hkind.parts b hb
      have hown := hboots.channels b hb
      rw [rows_metrics] at hown
      simp only [channelsOf, hpart.found] at hown
      exact ⟨spec, hpart.found, hown⟩

/-- What the outputs find once the bus runs: their pins free, and those of the inputs. -/
theorem outlook_outputs (works : board.Works)
    (hchip : board.chip = model.chip) (cfg : DeviceConfig) {g : Globals}
    (hfree : ∀ {needs pin}, Suits model needs pin →
      pin ∉ h.i2c.toList.flatMap (fun bus => [bus.sda, bus.scl]) → g.owners.get pin = none)
    (hready : g.i2cReady = h.i2c.isSome)
    (hinputs : cfg.inputs = h.inputs.map (requestBinding js (some drivers) t.rows.metrics))
    (houtputs : cfg.outputs = h.outputs.map (requestBinding js (some drivers) t.rows.actuators)) :
    Outlook board h.i2c.isSome (makeOutputDriver board.chip) (GoodBinding board h.i2c.isSome)
      (cfg.inputs.flatMap held) cfg.outputs g := by
  have hpins := hchecked.pins
  rw [usedPins_eq, List.nodup_append', List.nodup_append'] at hpins
  obtain ⟨_, ⟨hins, houts, hdisjoint⟩, hbus⟩ := hpins
  obtain ⟨hinNodup, hinSub⟩ := held_bindings t.rows.metrics (hchecked.kinds .input) hins
  obtain ⟨houtNodup, houtSub⟩ := held_bindings t.rows.actuators (hchecked.kinds .output) houts
  rw [hinputs, houtputs]
  refine ⟨?_, ?_, ?_, hready⟩
  · refine List.forall_mem_map.mpr fun b hb => ?_
    obtain ⟨spec, hpart⟩ := (hchecked.kinds .output).parts b hb
    exact output_starts works hpart hchip (picked_nodup hchecked .output b hb)
  · refine List.nodup_append'.mpr ⟨houtNodup, hinNodup, fun pin hout hin => ?_⟩
    exact hdisjoint (hinSub hin) (houtSub hout)
  · intro pin hpin
    rcases List.mem_append.mp hpin with hout | hin
    · obtain ⟨needs, hsuits⟩ := suits_of_held (hchecked.kinds .output) hout
      exact hfree hsuits fun hline => hbus hline (List.mem_append_right _ (houtSub hout))
    · obtain ⟨needs, hsuits⟩ := suits_of_held (hchecked.kinds .input) hin
      exact hfree hsuits fun hline => hbus hline (List.mem_append_left _ (hinSub hin))

end

/-- **The editor and the board agree**, but for `Boots`: on a draft without errors, `ioBegin`
succeeds with the config made of it exactly then. -/
theorem agreement (js : Js) (works : board.Works) (tenantSlug deviceSlug : String)
    {models : List BoardModel} {wiring : HardwareConfig (JsNumber ℚ)} {cfg : DeviceConfig}
    (hmodel : resolveModel models h.board = some model)
    (hclean : (validateHardware js (some h) t.rows (some { drivers, models })).Clean)
    (hwiring : hardwareToRequest js (some h) t.rows (some drivers) = some wiring)
    (hload : loadConfig board (deviceConfig js tenantSlug deviceSlug t wiring model) = .ok cfg) :
    (∃ io, setup board cfg = .ok io) ↔ Boots js board t h := by
  have hchecked : Checked js drivers model h t.rows := checked_of_clean hmodel hclean
  obtain rfl : requestOf js h t.rows (some drivers) = wiring := Option.some.inj hwiring
  obtain ⟨hboard, hcfg⟩ := loadConfig_ok hload
  have hchip : board.chip = model.chip := (Chip.id_injective hboard).symm
  have hpins := hchecked.pins
  rw [usedPins_eq, List.nodup_append'] at hpins
  have hlines : Free (reserved cfg) (h.i2c.toList.flatMap fun bus => [bus.sda, bus.scl]) := by
    intro pin hpin
    obtain ⟨bus, hbus, hline⟩ := List.mem_flatMap.mp hpin
    obtain ⟨hsda, hscl⟩ := hchecked.lines bus (Option.mem_toList.mp hbus)
    simp only [List.mem_cons, List.not_mem_nil, or_false] at hline
    rcases hline with rfl | rfl
    · exact reserved_free hload rfl hchip hsda
    · exact reserved_free hload rfl hchip hscl
  obtain ⟨g, hbegin, hready, hkeeps⟩ := beginBus_granted works hchip hchecked.lines hpins.1 hlines
    (reserved_bus cfg)
  have hinputs : cfg.inputs = h.inputs.map (requestBinding js (some drivers) t.rows.metrics) := by
    rw [hcfg]
    rfl
  have houtputs :
      cfg.outputs = h.outputs.map (requestBinding js (some drivers) t.rows.actuators) := by
    rw [hcfg]
    rfl
  have houtlook := outlook_outputs hchecked works hchip cfg
    (fun hsuits hline => by
      rw [hkeeps _ hline]
      exact reserved_free hload rfl hchip hsuits) hready hinputs houtputs
  have hstarts : ∀ b ∈ cfg.inputs, ∃ d, makeInputDriver board.chip b.driver = some d ∧
      Starts board h.i2c.isSome d b (GoodBinding board h.i2c.isSome b) := by
    rw [hinputs]
    refine List.forall_mem_map.mpr fun b hb => ?_
    obtain ⟨spec, hpart⟩ := (hchecked.kinds .input).parts b hb
    obtain ⟨e, hmake, _, he⟩ := input_starts hpart hchip (picked_nodup hchecked .input b hb)
    exact ⟨e, hmake, he⟩
  have hbus : beginBus board cfg.i2cSda cfg.i2cScl (reserved cfg) = .ok g := by
    rw [hcfg] at hbegin ⊢
    exact hbegin
  unfold setup
  rw [ioBegin_ok hbus houtlook hstarts]
  refine comesUp_iff hchecked hchip ?_ ?_ hinputs houtputs
  · rw [hcfg]
    rfl
  · rw [hcfg]
    rfl

end

/-! ## One draft that boots, and one that does not -/

/-- A board on the bench, with exact arithmetic. -/
def bench : Board ℚ :=
  { chip := .esp32
    asFloat := id
    wireBegin := fun _ _ => true
    ledcAttach := fun _ _ _ => true }

theorem bench_works : bench.Works := ⟨fun _ _ => rfl, fun _ _ _ => rfl⟩

/-- Conversions for drafts that have nothing to convert. -/
def plainJs : Js :=
  { number := fun _ => .nan
    parseInt := fun _ => .nan
    showNumber := fun _ => "NaN"
    toLowerCase := fun s => s }

/-- One actuator, and nothing to measure. -/
def doorTemplate : Template :=
  { metrics := [], actuators := [{ uid := "r1", key := "door", name := "Door", type := "float" }] }

/-- A servo on GPIO 4 that turns the door; `minUs` is its shortest pulse. -/
def doorDraft (minUs : ℚ) : HardwareDraft :=
  { board := "esp32-devkit-30"
    outputs :=
      [{ driver := "servo"
         pins := { items := [("pin", some 4)] }
         params := { items := [("min_us", .number (.finite minUs))], nodup := by simp }
         channels := { items := [("value", "r1")] } }] }

theorem devkit_resetApart :
    (0 : Int) ∉ [4, 13, 14, 16, 17, 18, 21, 22, 23, 25, 26, 27, 32, 33, 34, 35, 36, 39] := by
  decide

theorem devkit_ledApart : ({ type := some .gpio, pin := 2, activeLow := false } : Led).kind ≠ .none →
    (2 : Int) ∉ [4, 13, 14, 16, 17, 18, 21, 22, 23, 25, 26, 27, 32, 33, 34, 35, 36, 39] := by
  decide

def devkit : BoardModel :=
  { id := "esp32-devkit-30"
    chip := .esp32
    label := "ESP32 DevKit (30-pin)"
    pins := [4, 13, 14, 16, 17, 18, 21, 22, 23, 25, 26, 27, 32, 33, 34, 35, 36, 39]
    resetPin := 0
    led := { type := some .gpio, pin := 2, activeLow := false }
    resetApart := devkit_resetApart
    ledApart := devkit_ledApart }

/-- The config of the door, as it is loaded. -/
def doorConfig (minUs : ℚ) : Except String DeviceConfig :=
  loadConfig bench (deviceConfig plainJs "acme" "door-1" doorTemplate
    (requestOf plainJs (doorDraft minUs) doorTemplate.rows (some drivers)) devkit)

theorem agreement_door : ∃ cfg, doorConfig 500 = .ok cfg ∧
    ((∃ io, setup bench cfg = .ok io) ↔ Boots plainJs bench doorTemplate (doorDraft 500)) :=
  ⟨_, rfl, agreement plainJs bench_works "acme" "door-1" (h := doorDraft 500) (t := doorTemplate)
    (show resolveModel boardModels "esp32-devkit-30" = some devkit from rfl) (by decide +kernel) rfl
    rfl⟩

/-- A pulse of 100 us is any number to the editor, and too short for the servo. -/
theorem short_pulse_refused :
    resolveModel boardModels (doorDraft 100).board = some devkit ∧
      (validateHardware plainJs (some (doorDraft 100)) doorTemplate.rows
        (some { drivers, models := boardModels })).Clean ∧
      ∃ cfg, doorConfig 100 = .ok cfg ∧ ¬∃ io, setup bench cfg = .ok io := by
  refine ⟨rfl, by decide +kernel, _, rfl, ?_⟩
  rintro ⟨io, hio⟩
  cases hio

end IotSaas.Firmware
