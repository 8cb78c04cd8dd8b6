import IotSaas.Wiring.Validate

/-!
# `Wiring/Checked.lean` — what a draft without errors has

`validateHardware` only ever adds to its report, so a report that ends without errors was clean
after each step; and then each step found nothing. What that says about the draft is `Checked`, and
`checked_of_clean` collects it.
-/

set_option autoImplicit false

namespace IotSaas.Wiring

open Lib Catalog Editor

/-! ## The pins and the bus -/

/-- No pin twice, and none that was seen before. -/
theorem checkUsed_clean {used : List UsedPin} :
    ∀ {seen : Dict Int String} {r : Report}, (checkUsed used seen r).Clean →
      r.Clean ∧ (used.map UsedPin.pin).Nodup ∧
        ∀ pin ∈ used.map UsedPin.pin, seen.get pin = none := by
  induction used with
  | nil =>
    intro seen r h
    exact ⟨h, List.nodup_nil, by simp⟩
  | cons u rest ih =>
    intro seen r h
    rw [checkUsed] at h
    cases hseen : seen.get u.pin with
    | some other =>
      rw [hseen] at h
      exact absurd (ih h).1 (Report.not_clean_error _ _ _)
    | none =>
      rw [hseen] at h
      obtain ⟨hclean, hnodup, hfree⟩ := ih h
      have hfresh : u.pin ∉ rest.map UsedPin.pin := by
        intro hmem
        simpa using hfree u.pin hmem
      refine ⟨hclean, List.nodup_cons.mpr ⟨hfresh, hnodup⟩, ?_⟩
      intro pin hpin
      rcases List.mem_cons.mp hpin with rfl | hpin
      · exact hseen
      · have hne : pin ≠ u.pin := by
          rintro rfl
          exact hfresh hpin
        rw [← hfree pin hpin, Dict.get_set_ne _ _ hne]

variable {model : BoardModel} {r : Report}

theorem checkLine_clean {path : String} {pin : Int} :
    (checkLine model path pin r).Clean ↔ r.Clean ∧ Suits model .bus pin := by
  unfold checkLine
  by_cases hclean : r.Clean
  · simp [Report.has_of_clean hclean, pinProblem_none]
  · split <;> simp [hclean]

theorem checkBus_clean {h : HardwareDraft} {drivers : Option (List DriverSpec)}
    (hclean : (checkBus h drivers (some model) r).Clean) :
    r.Clean ∧ (usesI2c h drivers = true → h.i2c.isSome = true) ∧
      ∀ bus, h.i2c = some bus → Suits model .bus bus.sda ∧ Suits model .bus bus.scl := by
  unfold checkBus at hclean
  cases hbus : h.i2c with
  | none =>
    simp only [hbus, Option.isNone_none, and_true] at hclean
    split at hclean
    · exact absurd hclean (Report.not_clean_error _ _ _)
    · rename_i huses
      exact ⟨hclean, fun h => absurd h huses, by simp⟩
  | some bus =>
    simp only [hbus, Option.isNone_some, Bool.false_eq_true, and_false, if_false,
      checkLine_clean] at hclean
    refine ⟨hclean.1.1, fun _ => rfl, ?_⟩
    rintro _ ⟨rfl⟩
    exact ⟨hclean.1.2, hclean.2⟩

theorem checkAddresses_clean {js : Js} {drivers : Option (List DriverSpec)}
    {items : List (Kind × BindingDraft × Nat)} :
    ∀ {addresses : Dict String String} {r : Report},
      (checkAddresses js drivers items addresses r).Clean → r.Clean := by
  induction items with
  | nil => exact fun h => h
  | cons item rest ih =>
    intro addresses r h
    rw [checkAddresses] at h
    split at h
    · exact ih h
    · split at h
      · dsimp only at h
        split at h
        · exact absurd (ih h) (Report.not_clean_error _ _ _)
        · exact ih h
      · exact ih h

/-! ## One binding -/

theorem checkPin_clean (model : BoardModel) (p : String) (b : BindingDraft) (r : Report)
    (role : DriverPinSpec) :
    (checkPin (some model) p b r role).Clean ↔
      r.Clean ∧ ∃ pin, (b.pins.get role.role).join = some pin ∧ Suits model role.needs pin := by
  unfold checkPin
  cases hpin : (b.pins.get role.role).join with
  | none => simp
  | some pin =>
    by_cases hclean : r.Clean
    · simp [Report.has_of_clean hclean, pinProblem_none]
    · dsimp only
      split <;> simp [hclean]

theorem checkPins_clean {p : String} {b : BindingDraft} (roles : List DriverPinSpec) (r : Report) :
    (roles.foldl (checkPin (some model) p b) r).Clean ↔ r.Clean ∧ ∀ role ∈ roles,
      ∃ pin, (b.pins.get role.role).join = some pin ∧ Suits model role.needs pin :=
  Report.clean_foldl (checkPin_clean model p b) roles r

variable {drivers : List DriverSpec} {kind : Kind}

theorem driverProblem_none {b : BindingDraft}
    (h : driverProblem (some drivers) (some model) kind b = none) :
    ∃ spec, findDriver (some drivers) b.driver = some spec ∧ spec.kind = kind ∧
      runsOn spec (some model) = true := by
  unfold driverProblem at h
  cases hspec : findDriver (some drivers) b.driver with
  | none =>
    rw [hspec] at h
    cases h
  | some spec =>
    rw [hspec] at h
    refine ⟨spec, rfl, ?_⟩
    by_cases hkind : spec.kind = kind
    · by_cases hruns : runsOn spec (some model) = true
      · exact ⟨hkind, hruns⟩
      · simp [hkind, hruns] at h
    · simp [hkind] at h

/-- A binding whose driver, pins and params the editor found in order. -/
structure Part (js : Js) (drivers : List DriverSpec) (model : BoardModel) (kind : Kind)
    (b : BindingDraft) (spec : DriverSpec) : Prop where
  found : findDriver (some drivers) b.driver = some spec
  kind : spec.kind = kind
  runs : runsOn spec (some model) = true
  pins : ∀ role ∈ spec.pins, ∃ pin, (b.pins.get role.role).join = some pin ∧
    Suits model role.needs pin
  params : ∀ param ∈ spec.params, paramProblem js param (b.params.get param.key) = none
  pull : pullProblem (some model) b = none

variable {item : BindingDraft × Nat}

theorem checkPart_clean {js : Js} {drivers : List DriverSpec} {model : BoardModel} {kind : Kind}
    {item : BindingDraft × Nat} {r : Report}
    (h : (checkPart js (some drivers) (some model) kind item r).Clean) :
    r.Clean ∧ ∃ spec, Part js drivers model kind item.1 spec := by
  unfold checkPart at h
  dsimp only at h
  rw [Report.clean_note,
    Report.clean_foldl_note (fun param : DriverParamSpec => _ ++ param.key),
    checkPins_clean, Report.clean_note] at h
  obtain ⟨⟨⟨⟨hclean, hdriver⟩, hpins⟩, hparams⟩, hpull⟩ := h
  obtain ⟨spec, hspec, hkind, hruns⟩ := driverProblem_none hdriver
  simp only [hspec, Option.toList_some, List.flatMap_singleton] at hpins hparams
  exact ⟨hclean, spec, hspec, hkind, hruns, hpins, hparams, hpull⟩

theorem checkUse_clean {channels : List DriverChannelSpec} {p : String} {b : BindingDraft}
    (h : (checkUse kind channels p b r).Clean) :
    r.Clean ∧ (kind = .output → b.ref "value" ≠ "") := by
  unfold checkUse at h
  split at h
  · split at h
    · exact absurd h (Report.not_clean_error _ _ _)
    · rename_i hvalue
      exact ⟨h, fun _ => hvalue⟩
  · exact ⟨h, nofun⟩
  · refine ⟨?_, nofun⟩
    split at h
    · exact h
    · exact (Report.clean_warn _ _ _).mp h

/-! ## Channels -/

/-- What the used channels of a list point at. -/
def refsOf (b : BindingDraft) (channels : List DriverChannelSpec) : List String :=
  (channels.map fun ch => b.ref ch.key).filter fun ref => ref ≠ ""

/-- A list of references that each have a row, and none that is fed or there twice. -/
structure Feeds (list : List KeyedRow) (fed : Fed) (refs : List String) : Prop where
  row : ∀ ref ∈ refs, ∃ row, list.find? (fun r => r.uid = ref) = some row
  free : ∀ ref ∈ refs, fed.get ref = none
  nodup : refs.Nodup

/-- The references that are fed afterwards. -/
def Feeding (fed fed' : Fed) (refs : List String) : Prop :=
  ∀ ref, fed'.get ref = none ↔ fed.get ref = none ∧ ref ∉ refs

theorem warnType_clean {path : String} {ch : DriverChannelSpec} {row : KeyedRow} :
    (warnType kind path ch row r).Clean ↔ r.Clean := by
  unfold warnType
  split
  · split <;> simp
  · split
    · split <;> simp
    · rfl

variable {list : List KeyedRow}

/-- A used channel that is in order points at a row that nothing feeds yet, and feeds it. -/
theorem checkChannel_used {s : Fed × Report} {ch : DriverChannelSpec}
    (hused : item.1.ref ch.key ≠ "") (h : (checkChannel kind list item s ch).2.Clean) :
    s.2.Clean ∧ (∃ row, list.find? (fun r => r.uid = item.1.ref ch.key) = some row) ∧
      s.1.get (item.1.ref ch.key) = none ∧
      (checkChannel kind list item s ch).1 = s.1.set (item.1.ref ch.key) item.2 := by
  unfold checkChannel at h ⊢
  simp only [hused, if_false] at h ⊢
  cases hrow : list.find? fun r => r.uid = item.1.ref ch.key with
  | none =>
    simp only [hrow] at h
    exact absurd h (Report.not_clean_error _ _ _)
  | some row =>
    have huid : row.uid = item.1.ref ch.key := by simpa using List.find?_some hrow
    simp only [hrow, huid] at h ⊢
    cases hfed : s.1.get (item.1.ref ch.key) with
    | some other =>
      simp only [hfed] at h
      exact absurd h (Report.not_clean_error _ _ _)
    | none =>
      simp only [hfed] at h
      exact ⟨warnType_clean.mp h, ⟨row, rfl⟩, rfl, rfl⟩

theorem checkChannel_clean {s : Fed × Report} {ch : DriverChannelSpec}
    (h : (checkChannel kind list item s ch).2.Clean) :
    s.2.Clean ∧ Feeds list s.1 (refsOf item.1 [ch]) ∧
      Feeding s.1 (checkChannel kind list item s ch).1 (refsOf item.1 [ch]) := by
  by_cases hunused : item.1.ref ch.key = ""
  · have hrefs : refsOf item.1 [ch] = [] := by simp [refsOf, hunused]
    have hsame : checkChannel kind list item s ch = s := by simp [checkChannel, hunused]
    rw [hsame] at h
    rw [hrefs, hsame]
    exact ⟨h, ⟨by simp, by simp, List.nodup_nil⟩, by simp [Feeding]⟩
  · have hrefs : refsOf item.1 [ch] = [item.1.ref ch.key] := by simp [refsOf, hunused]
    obtain ⟨hclean, hrow, hfree, hset⟩ := checkChannel_used hunused h
    rw [hrefs, hset]
    refine ⟨hclean, ⟨by simpa using hrow, by simpa using hfree, List.nodup_singleton _⟩, ?_⟩
    intro ref
    by_cases href : ref = item.1.ref ch.key
    · simp [href]
    · simp [href, Dict.get_set_ne]

theorem Feeding.trans {a b c : Fed} {refs refs' : List String} (hab : Feeding a b refs)
    (hbc : Feeding b c refs') : Feeding a c (refs ++ refs') := by
  intro ref
  rw [hbc, hab, List.mem_append, not_or, and_assoc]

theorem Feeds.append {fed fed' : Fed} {refs refs' : List String} (h : Feeds list fed refs)
    (hfeeding : Feeding fed fed' refs) (h' : Feeds list fed' refs') :
    Feeds list fed (refs ++ refs') := by
  constructor
  · intro ref href
    exact (List.mem_append.mp href).elim (h.row ref) (h'.row ref)
  · intro ref href
    exact (List.mem_append.mp href).elim (h.free ref) fun hr => ((hfeeding ref).mp (h'.free ref hr)).1
  · refine List.nodup_append.mpr ⟨h.nodup, h'.nodup, ?_⟩
    rintro ref hr _ hr' rfl
    exact ((hfeeding ref).mp (h'.free ref hr')).2 hr

/-- A loop whose items each feed some references feeds them all, each once. -/
theorem feeds_foldl {α : Type} {f : Fed × Report → α → Fed × Report}
    {refs : α → List String}
    (hstep : ∀ s a, (f s a).2.Clean →
      s.2.Clean ∧ Feeds list s.1 (refs a) ∧ Feeding s.1 (f s a).1 (refs a))
    (items : List α) :
    ∀ s : Fed × Report, (items.foldl f s).2.Clean →
      s.2.Clean ∧ Feeds list s.1 (items.flatMap refs) ∧
        Feeding s.1 (items.foldl f s).1 (items.flatMap refs) := by
  induction items with
  | nil =>
    intro s h
    exact ⟨h, ⟨by simp, by simp, by simp⟩, by simp [Feeding]⟩
  | cons a rest ih =>
    intro s h
    rw [List.foldl_cons] at h
    obtain ⟨hclean, hfeeds', hfeeding'⟩ := ih (f s a) h
    obtain ⟨hs, hfeeds, hfeeding⟩ := hstep s a hclean
    exact ⟨hs, hfeeds.append hfeeding hfeeds', hfeeding.trans hfeeding'⟩

theorem flatMap_refsOf (b : BindingDraft) (channels : List DriverChannelSpec) :
    channels.flatMap (fun ch => refsOf b [ch]) = refsOf b channels := by
  induction channels with
  | nil => rfl
  | cons ch rest ih =>
    rw [List.flatMap_cons, ih]
    simp only [refsOf, List.map_cons, List.map_nil, List.filter_cons, List.filter_nil]
    split <;> rfl

theorem checkBinding_clean {js : Js} {s : Fed × Report}
    (h : (checkBinding js (some drivers) (some model) kind list s item).2.Clean) :
    (s.2.Clean ∧ (∃ spec, Part js drivers model kind item.1 spec) ∧
      (kind = .output → item.1.ref "value" ≠ "")) ∧
    Feeds list s.1 (refsOf item.1 (channelsOf (some drivers) item.1)) ∧
    Feeding s.1 (checkBinding js (some drivers) (some model) kind list s item).1
      (refsOf item.1 (channelsOf (some drivers) item.1)) := by
  have hstep : ∀ s ch, (checkChannel kind list item s ch).2.Clean →
      s.2.Clean ∧ Feeds list s.1 (refsOf item.1 [ch]) ∧
        Feeding s.1 (checkChannel kind list item s ch).1 (refsOf item.1 [ch]) :=
    fun _ _ => checkChannel_clean
  obtain ⟨huse, hfeeds, hfeeding⟩ := feeds_foldl hstep _ _ h
  rw [flatMap_refsOf] at hfeeds hfeeding
  obtain ⟨hpart, hvalue⟩ := checkUse_clean huse
  obtain ⟨hclean, hspec⟩ := checkPart_clean hpart
  exact ⟨⟨hclean, hspec, hvalue⟩, hfeeds, hfeeding⟩

/-- A loop that ends clean was clean at each item. -/
theorem clean_of_foldl {α : Type} {f : Fed × Report → α → Fed × Report} {P : α → Prop}
    (hstep : ∀ s a, (f s a).2.Clean → s.2.Clean ∧ P a) (items : List α) :
    ∀ s : Fed × Report, (items.foldl f s).2.Clean → s.2.Clean ∧ ∀ a ∈ items, P a := by
  induction items with
  | nil =>
    intro s h
    exact ⟨h, by simp⟩
  | cons a rest ih =>
    intro s h
    obtain ⟨hclean, hrest⟩ := ih (f s a) h
    obtain ⟨hs, ha⟩ := hstep s a hclean
    exact ⟨hs, List.forall_mem_cons.mpr ⟨ha, hrest⟩⟩

/-! ## The whole draft -/

/-- What the used channels of all bindings of a kind point at. -/
def refs (drivers : List DriverSpec) (bindings : List BindingDraft) : List String :=
  bindings.flatMap fun b => refsOf b (channelsOf (some drivers) b)

/-- The bindings of one kind, in order. -/
structure KindChecked (js : Js) (drivers : List DriverSpec) (model : BoardModel)
    (h : HardwareDraft) (rows : Rows) (kind : Kind) : Prop where
  parts : ∀ b ∈ h.bindings kind, ∃ spec, Part js drivers model kind b spec
  drives : kind = .output → ∀ b ∈ h.bindings kind, b.ref "value" ≠ ""
  row : ∀ ref ∈ refs drivers (h.bindings kind),
    ∃ row, (rows.of kind).find? (fun r => r.uid = ref) = some row
  once : (refs drivers (h.bindings kind)).Nodup

theorem forall_mem_of_zipIdx {α : Type} {P : α → Prop} {items : List α}
    (h : ∀ item ∈ items.zipIdx, P item.1) : ∀ a ∈ items, P a := by
  intro a ha
  rw [← List.zipIdx_map_fst 0 items] at ha
  obtain ⟨item, hitem, rfl⟩ := List.mem_map.mp ha
  exact h item hitem

theorem checkKind_clean {js : Js} {h : HardwareDraft} {rows : Rows}
    (hclean : (checkKind js (some drivers) (some model) h rows kind r).Clean) :
    r.Clean ∧ KindChecked js drivers model h rows kind := by
  have hparts : ∀ s item,
      (checkBinding js (some drivers) (some model) kind (rows.of kind) s item).2.Clean →
        s.2.Clean ∧ (∃ spec, Part js drivers model kind item.1 spec) ∧
          (kind = .output → item.1.ref "value" ≠ "") :=
    fun _ _ hc => (checkBinding_clean hc).1
  have hchannels : ∀ s item,
      (checkBinding js (some drivers) (some model) kind (rows.of kind) s item).2.Clean →
        s.2.Clean ∧ Feeds (rows.of kind) s.1 (refsOf item.1 (channelsOf (some drivers) item.1)) ∧
          Feeding s.1 (checkBinding js (some drivers) (some model) kind (rows.of kind) s item).1
            (refsOf item.1 (channelsOf (some drivers) item.1)) :=
    fun _ _ hc => ⟨(checkBinding_clean hc).1.1, (checkBinding_clean hc).2⟩
  obtain ⟨hr, hall⟩ := clean_of_foldl hparts _ _ hclean
  obtain ⟨_, hfeeds, _⟩ := feeds_foldl hchannels _ _ hclean
  have hrefs : (h.bindings kind).zipIdx.flatMap (fun item =>
      refsOf item.1 (channelsOf (some drivers) item.1)) = refs drivers (h.bindings kind) := by
    unfold refs
    conv_rhs => rw [← List.zipIdx_map_fst 0 (h.bindings kind), List.flatMap_map]
  rw [hrefs] at hfeeds
  exact ⟨hr, forall_mem_of_zipIdx fun item hitem => (hall item hitem).1,
    fun hkind => forall_mem_of_zipIdx fun item hitem => (hall item hitem).2 hkind,
    hfeeds.row, hfeeds.nodup⟩

/-- A draft the editor finds no error in. -/
structure Checked (js : Js) (drivers : List DriverSpec) (model : BoardModel) (h : HardwareDraft)
    (rows : Rows) : Prop where
  pins : ((usedPins h).map UsedPin.pin).Nodup
  bus : usesI2c h (some drivers) = true → h.i2c.isSome = true
  lines : ∀ bus, h.i2c = some bus → Suits model .bus bus.sda ∧ Suits model .bus bus.scl
  kinds : ∀ kind, KindChecked js drivers model h rows kind

/-- **No errors**, read off the pass from its last step to its first. -/
theorem checked_of_clean {js : Js} {h : HardwareDraft} {rows : Rows} {catalog : HardwareCatalog}
    (hmodel : resolveModel catalog.models h.board = some model)
    (hclean : (validateHardware js (some h) rows (some catalog)).Clean) :
    Checked js catalog.drivers model h rows := by
  simp only [validateHardware, Option.map_some, Option.bind_some, hmodel] at hclean
  obtain ⟨hclean, houtputs⟩ := checkKind_clean hclean
  obtain ⟨hclean, hinputs⟩ := checkKind_clean hclean
  obtain ⟨hclean, hbus, hlines⟩ := checkBus_clean (checkAddresses_clean hclean)
  refine ⟨(checkUsed_clean hclean).2.1, hbus, hlines, ?_⟩
  intro kind
  cases kind with
  | input => exact hinputs
  | output => exact houtputs

end IotSaas.Wiring
