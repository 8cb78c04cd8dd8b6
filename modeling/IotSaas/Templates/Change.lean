import IotSaas.Templates.Reconcile

/-!
# `Templates/Change.lean` — one change of the parts list

`reconcileParts` as a whole: parts are added, removed and put on other drivers, any number of them
at once. A template is `InStep` when no row is fed by two channels and the keys are unique in any
letters, with none reserved. A change leaves it so exactly if its turns may all be taken
(`reconcileParts_inStep_iff`). What goes is what a part has proposed, as it was then, and nothing
feeds it (`reconcileParts_drops`).
-/

set_option autoImplicit false

namespace IotSaas.Templates

open Lib Catalog Editor

variable {F R : Type}

/-! ## One side of the wiring -/

section

/-- A part as it comes when it is added, or put on another driver: nothing is linked. -/
structure Blank (b : BindingDraft F) : Prop where
  links : ∀ ref ∈ linksOf b.channels, ref = .unused
  proposed : b.proposed = []

/-- **How the parts of a side may change**: a part stays, or comes blank. It comes under a uid of its
own, or under that of a part of the side that had another driver. -/
def SideChange (all before next : List (BindingDraft F)) : Prop :=
  ∀ b ∈ next, b ∈ before ∨
    Blank b ∧ ∀ old ∈ all, old.uid = b.uid → old ∈ before ∧ old.driver ≠ b.driver

/-- What has a uid is found by it. -/
theorem find?_uid {α : Type} (uid : α → Nat) {items : List α} (huids : (items.map uid).Nodup)
    {item : α} (hitem : item ∈ items) :
    items.find? (fun other => uid other = uid item) = some item := by
  cases hfind : items.find? fun other => uid other = uid item with
  | none => simpa using List.find?_eq_none.mp hfind item hitem
  | some other =>
    have hmem := List.mem_of_find?_eq_some hfind
    have huid : uid other = uid item := by simpa using List.find?_some hfind
    rw [List.inj_on_of_nodup_map huids hmem hitem huid]

variable {b : BindingDraft F}

theorem isChanged_of_mem {before : List (BindingDraft F)}
    (huids : (before.map BindingDraft.uid).Nodup) (hb : b ∈ before) :
    isChanged before b = false := by
  unfold isChanged
  rw [find?_uid BindingDraft.uid huids hb]
  simp

/-- A part that replaces nothing of its own driver is new. -/
theorem isChanged_of_blank {before : List (BindingDraft F)}
    (h : ∀ old ∈ before, old.uid = b.uid → old.driver ≠ b.driver) : isChanged before b = true := by
  unfold isChanged
  cases hfind : before.find? fun old => old.uid = b.uid with
  | none => rfl
  | some old =>
    have huid : old.uid = b.uid := by simpa using List.find?_some hfind
    simpa using h old (List.mem_of_find?_eq_some hfind) huid

variable {K : RowKind F R} {js : Wiring.Js} {c : Change F R} {side : List (BindingDraft F)}

variable (K js c) in
/-- What is still linked does not go. -/
def KeepsLinked : Prop :=
  ∀ b ∈ c.next, ∀ uid, .row uid ∈ keptLinks js K c.drivers c.before c.rows b → uid ∉ c.dropping

/-- A part that stays goes through as it is. -/
theorem startOf_of_mem (huids : (c.before.map BindingDraft.uid).Nodup) (hkeeps : KeepsLinked K js c)
    (hb : b ∈ c.next) (hold : b ∈ c.before) : startOf K js c b = b := by
  have hkept : ∀ uid, .row uid ∈ linksOf b.channels → uid ∉ c.dropping := by
    intro uid huid
    refine hkeeps b hb uid ?_
    unfold keptLinks
    rw [find?_uid BindingDraft.uid huids hold]
    simpa using huid
  unfold startOf
  rw [isChanged_of_mem huids hold, if_neg Bool.false_ne_true]
  have hitems : b.channels.mapValues (keptRef c.dropping) = b.channels := by
    refine Record.mapValues_eq_self fun item hitem => ?_
    obtain ⟨channel, ref⟩ := item
    cases ref with
    | unused => rfl
    | missing key => rfl
    | row uid => exact if_neg (hkept uid (List.mem_map.mpr ⟨_, hitem, rfl⟩))
  rw [hitems]

/-- What a part starts with, each link once: it is what an old part of the same uid had, and it does
not go. -/
theorem startOf_links (huids : (c.before.map BindingDraft.uid).Nodup)
    (hside : ∀ old ∈ side, old ∈ c.before) (hchange : SideChange c.before side c.next)
    (hkeeps : KeepsLinked K js c) (honce : (fed side).Nodup) (hb : b ∈ c.next) :
    (fedBy (startOf K js c b).channels).Nodup ∧
      ∀ ref ∈ linksOf (startOf K js c b).channels, ref ≠ .unused →
        (∃ old ∈ side, old.uid = b.uid ∧ ref ∈ linksOf old.channels) ∧
          ∀ uid, ref = .row uid → uid ∉ c.dropping := by
  rcases hchange b hb with hold | ⟨hblank, hreplaces⟩
  · rw [startOf_of_mem huids hkeeps hb (hside b hold)]
    refine ⟨(List.nodup_flatMap.mp honce).1 b hold, ?_⟩
    intro ref href hne
    refine ⟨⟨b, hold, rfl, href⟩, ?_⟩
    rintro uid rfl
    refine hkeeps b hb uid ?_
    unfold keptLinks
    rw [find?_uid BindingDraft.uid huids (hside b hold)]
    simpa using href
  · have hchanged : isChanged c.before b = true :=
      isChanged_of_blank fun old hold huid => (hreplaces old hold huid).2
    have hempty : (fedBy b.channels).Nodup ∧ ∀ ref ∈ linksOf b.channels, ref ≠ .unused →
        (∃ old ∈ side, old.uid = b.uid ∧ ref ∈ linksOf old.channels) ∧
          ∀ uid, ref = .row uid → uid ∉ c.dropping := by
      refine ⟨?_, fun ref href hne => absurd (hblank.links ref href) hne⟩
      have hnone : fedBy b.channels = [] := by
        rw [List.eq_nil_iff_forall_not_mem]
        intro uid huid
        cases hblank.links _ (mem_fedBy.mp huid)
      rw [hnone]
      exact List.nodup_nil
    unfold startOf
    rw [hchanged, if_pos rfl]
    cases hspec : findDriver c.drivers b.driver with
    | none => exact hempty
    | some spec =>
      unfold carriedOver
      cases hfind : c.before.find? fun old => old.uid = b.uid with
      | none => exact ⟨List.nodup_nil, nofun⟩
      | some old =>
        have hmem := List.mem_of_find?_eq_some hfind
        have huid : old.uid = b.uid := by simpa using List.find?_some hfind
        obtain ⟨hold, hdriver⟩ := hreplaces old hmem huid
        obtain ⟨hnodup, hcarried⟩ := carryLinks_ok K js old spec c.rows
        refine ⟨hnodup, fun ref href hne => ⟨⟨old, hold, huid, (hcarried ref href).1⟩, ?_⟩⟩
        rintro uid rfl
        refine hkeeps b hb uid ?_
        unfold keptLinks
        rw [hfind]
        dsimp only
        rw [if_neg hdriver, hspec]
        exact href

/-- **How a side starts.** -/
theorem round_start (side : List (BindingDraft F)) {rows : List R} {seq : Nat}
    (huids : (c.before.map BindingDraft.uid).Nodup)
    (hnext : (c.next.map BindingDraft.uid).Nodup) (hside : ∀ old ∈ side, old ∈ c.before)
    (hchange : SideChange c.before side c.next) (hkeeps : KeepsLinked K js c)
    (honce : (fed side).Nodup) (hdrawn : ∀ uid ∈ fed side, uid ≤ seq)
    (htidy : Tidy K js ⟨seq, rows⟩) : Round K js c [] c.next ⟨seq, rows⟩ := by
  have hlinks := fun b hb => startOf_links huids hside hchange hkeeps honce (b := b) hb
  have hold : ∀ b ∈ c.next, ∀ uid ∈ fedBy (startOf K js c b).channels,
      ∃ old ∈ side, old.uid = b.uid ∧ uid ∈ fedBy old.channels := by
    intro b hb uid huid
    obtain ⟨old, hmem, heq, hlink⟩ := ((hlinks b hb).2 _ (mem_fedBy.mp huid) nofun).1
    exact ⟨old, hmem, heq, mem_fedBy.mpr hlink⟩
  refine ⟨htidy, ?_, ?_⟩
  · refine nodup_fed_of_old honce ?_ ?_
    · rw [List.nil_append, List.map_map]
      exact (List.map_congr_left fun b _ => uid_startOf b) ▸ hnext
    · intro x hx
      obtain ⟨b, hb, rfl⟩ := List.mem_map.mp hx
      refine ⟨(hlinks b hb).1, fun uid huid => ?_⟩
      rw [uid_startOf]
      exact hold b hb uid huid
  · intro uid huid
    obtain ⟨x, hx, hfed⟩ := mem_fed.mp huid
    obtain ⟨b, hb, rfl⟩ := List.mem_map.mp hx
    obtain ⟨old, hmem, -, hlink⟩ := hold b hb uid hfed
    exact hdrawn uid (mem_fed.mpr ⟨old, hmem, hlink⟩)

/-- **How it ends**, where all turns may be taken. -/
theorem round_end (side : List (BindingDraft F)) {rows : List R} {seq : Nat}
    (huids : (c.before.map BindingDraft.uid).Nodup) (hnext : (c.next.map BindingDraft.uid).Nodup)
    (hside : ∀ old ∈ side, old ∈ c.before) (hchange : SideChange c.before side c.next)
    (hkeeps : KeepsLinked K js c) (honce : (fed side).Nodup) (hdrawn : ∀ uid ∈ fed side, uid ≤ seq)
    (htidy : Tidy K js ⟨seq, rows⟩) (hok : ProposeOk K js c [] ⟨seq, rows⟩ c.next) :
    Round K js c (propose K js c ⟨seq, rows⟩ c.next).2 [] (propose K js c ⟨seq, rows⟩ c.next).1 := by
  have hstart := round_start side huids hnext hside hchange hkeeps honce hdrawn htidy
  have hsplit : c.next = [] ++ c.next := rfl
  have hend := propose_round hnext hsplit .nil (Nat.le_refl seq) hstart hok
  rwa [List.nil_append] at hend

/-- What is fed in the end does not go, unless it is a row that is there. -/
theorem mem_fed_propose (side : List (BindingDraft F)) {bench : Bench R}
    (huids : (c.before.map BindingDraft.uid).Nodup)
    (hside : ∀ old ∈ side, old ∈ c.before) (hchange : SideChange c.before side c.next)
    (hkeeps : KeepsLinked K js c) (honce : (fed side).Nodup) {uid : Nat}
    (huid : uid ∈ fed (propose K js c bench c.next).2) :
    uid ∉ c.dropping ∨ ∃ row ∈ (propose K js c bench c.next).1.rows, K.uid row = uid := by
  obtain ⟨x, hx, hfed⟩ := mem_fed.mp huid
  obtain ⟨b, hb, hleads⟩ := forall₂_mem (propose_leadsOn c.next bench).flip hx
  rcases hleads _ (mem_fedBy.mp hfed) nofun with hstart | hrow
  · left
    exact ((startOf_links huids hside hchange hkeeps honce hb).2 _ hstart nofun).2 uid rfl
  · right
    obtain ⟨row, hrow, heq⟩ := hrow
    exact ⟨row, hrow, (Ref.row.inj heq).symm⟩

/-- **A row that goes** is one that is to go, and nothing feeds it in the end. -/
theorem propose_drops (side : List (BindingDraft F)) {seq : Nat}
    (huids : (c.before.map BindingDraft.uid).Nodup) (hside : ∀ old ∈ side, old ∈ c.before)
    (hchange : SideChange c.before side c.next) (hkeeps : KeepsLinked K js c)
    (honce : (fed side).Nodup) (hdrawn : ∀ row ∈ c.rows, K.uid row ≤ seq) {row : R}
    (hrow : row ∈ c.rows) :
    let kept := c.rows.filter fun row => decide (K.uid row ∉ c.dropping)
    row ∉ (propose K js c ⟨seq, kept⟩ c.next).1.rows →
      K.uid row ∈ c.dropping ∧ K.uid row ∉ fed (propose K js c ⟨seq, kept⟩ c.next).2 := by
  intro kept hgone
  have hrows : Appended K seq kept (propose K js c ⟨seq, kept⟩ c.next).1.rows :=
    (propose_outcome c.next ⟨seq, kept⟩).2.1
  have hdropped : K.uid row ∈ c.dropping := by
    by_contra hstays
    exact hgone (hrows.subset (List.mem_filter.mpr ⟨hrow, by simpa using hstays⟩))
  refine ⟨hdropped, fun hfed => ?_⟩
  rcases mem_fed_propose side huids hside hchange hkeeps honce hfed with hstays | hthere
  · exact hstays hdropped
  · obtain ⟨other, hother, heq⟩ := hthere
    rcases hrows.old hother with hold | hnew
    · have hstays := (List.mem_filter.mp hold).2
      rw [decide_eq_true_eq, heq] at hstays
      exact hstays hdropped
    · have hle := hdrawn row hrow
      have hlt : seq < K.uid other := hnew
      omega

end

/-! ## The whole change -/

section

variable (js : Wiring.Js)

/-- No row is fed by two channels of its kind, and keys are unique in any letters. -/
structure Distinct (d : TemplateDraft F) : Prop where
  inputs : (fed d.inputs).Nodup
  outputs : (fed d.outputs).Nodup
  metrics : (d.metrics.map fun row => js.toLowerCase (rowKey (F := F) metricKind row)).Nodup
  actuators : (d.actuators.map fun row => js.toLowerCase (rowKey actuatorKind row)).Nodup

/-- That, and no key is reserved. -/
structure InStep (d : TemplateDraft F) : Prop where
  inputs : (fed d.inputs).Nodup
  outputs : (fed d.outputs).Nodup
  metrics : KeysApart (F := F) metricKind js d.metrics
  actuators : KeysApart actuatorKind js d.actuators

instance (d : TemplateDraft F) : Decidable (InStep js d) :=
  decidable_of_iff ((fed d.inputs).Nodup ∧ (fed d.outputs).Nodup ∧
      KeysApart (F := F) metricKind js d.metrics ∧ KeysApart actuatorKind js d.actuators)
    ⟨fun h => ⟨h.1, h.2.1, h.2.2.1, h.2.2.2⟩,
      fun h => ⟨h.inputs, h.outputs, h.metrics, h.actuators⟩⟩

/-- Rows and parts are known by their uids, which were drawn up to `seq`, also where a row has gone
that a channel still points at. -/
structure Drawn (seq : Nat) (d : TemplateDraft F) : Prop where
  rows : (d.metrics.map MetricDraft.uid ++ d.actuators.map ActuatorDraft.uid).Nodup
  drawn : ∀ uid ∈ d.metrics.map MetricDraft.uid ++ d.actuators.map ActuatorDraft.uid, uid ≤ seq
  links : ∀ uid ∈ fed d.parts, uid ≤ seq
  parts : (d.parts.map BindingDraft.uid).Nodup

instance (seq : Nat) (d : TemplateDraft F) : Decidable (Drawn seq d) :=
  decidable_of_iff ((d.metrics.map MetricDraft.uid ++ d.actuators.map ActuatorDraft.uid).Nodup ∧
      (∀ uid ∈ d.metrics.map MetricDraft.uid ++ d.actuators.map ActuatorDraft.uid, uid ≤ seq) ∧
      (∀ uid ∈ fed d.parts, uid ≤ seq) ∧ (d.parts.map BindingDraft.uid).Nodup)
    ⟨fun h => ⟨h.1, h.2.1, h.2.2.1, h.2.2.2⟩, fun h => ⟨h.rows, h.drawn, h.links, h.parts⟩⟩

/-- **How the parts of a template may change.** -/
structure PartsChange (d : TemplateDraft F) (next : HardwareDraft F) : Prop where
  uids : (next.parts.map BindingDraft.uid).Nodup
  inputs : SideChange d.parts d.inputs next.inputs
  outputs : SideChange d.parts d.outputs next.outputs

variable [DecidableEq F] (drivers : List PartSpec) (seq : Nat) (prev : TemplateDraft F)
  (next : HardwareDraft F)

/-- The change of the inputs. -/
def inputsChange : Change F MetricDraft :=
  ⟨drivers, prev.parts, next.inputs, prev.metrics, droppedRows js drivers prev next⟩

/-- The metrics that do not go. -/
def metricsKept : List MetricDraft :=
  prev.metrics.filter fun row => decide (row.uid ∉ droppedRows js drivers prev next)

/-- `propose("inputs")`. -/
def proposedInputs : Bench MetricDraft × List (BindingDraft F) :=
  propose metricKind js (inputsChange js drivers prev next)
    ⟨seq, metricsKept js drivers prev next⟩ next.inputs

/-- The change of the outputs. -/
def outputsChange : Change F (ActuatorDraft F) :=
  ⟨drivers, prev.parts, next.outputs, prev.actuators, droppedRows js drivers prev next⟩

/-- The actuators that do not go. -/
def actuatorsKept : List (ActuatorDraft F) :=
  prev.actuators.filter fun row => decide (row.uid ∉ droppedRows js drivers prev next)

/-- `propose("outputs")`. -/
def proposedOutputs : Bench (ActuatorDraft F) × List (BindingDraft F) :=
  propose actuatorKind js (outputsChange js drivers prev next)
    ⟨(proposedInputs js drivers seq prev next).1.seq, actuatorsKept js drivers prev next⟩
    next.outputs

theorem reconcileWiring_eq : reconcileWiring js drivers seq prev next =
    ((proposedOutputs js drivers seq prev next).1.seq,
      { prev with
        metrics := (proposedInputs js drivers seq prev next).1.rows
        actuators := (proposedOutputs js drivers seq prev next).1.rows
        hardware := some ⟨(proposedInputs js drivers seq prev next).2,
          (proposedOutputs js drivers seq prev next).2⟩ }) := rfl

/-- **When a change may be made**: no row that stays has a reserved key, and every turn may be
taken. -/
structure ChangeOk : Prop where
  metrics : ∀ row ∈ metricsKept js drivers prev next,
    js.toLowerCase (rowKey (F := F) metricKind row) ∉ reservedMetricKeys
  actuators : ∀ row ∈ actuatorsKept js drivers prev next,
    js.toLowerCase (rowKey actuatorKind row) ∉ reservedMetricKeys
  inputs : ProposeOk metricKind js (inputsChange js drivers prev next) []
    ⟨seq, metricsKept js drivers prev next⟩ next.inputs
  outputs : ProposeOk actuatorKind js (outputsChange js drivers prev next) []
    ⟨(proposedInputs js drivers seq prev next).1.seq, actuatorsKept js drivers prev next⟩
    next.outputs

end

variable {d : TemplateDraft F}

theorem InStep.distinct {js : Wiring.Js} (h : InStep js d) : Distinct js d :=
  ⟨h.inputs, h.outputs, h.metrics.unique, h.actuators.unique⟩

variable {seq : Nat}

theorem Drawn.metricUids (h : Drawn seq d) :
    (d.metrics.map (metricKind (F := F)).uid).Nodup := (List.nodup_append'.mp h.rows).1

theorem Drawn.actuatorUids (h : Drawn seq d) :
    (d.actuators.map actuatorKind.uid).Nodup := (List.nodup_append'.mp h.rows).2.1

theorem Drawn.metricsDrawn (h : Drawn seq d) :
    ∀ row ∈ d.metrics, (metricKind (F := F)).uid row ≤ seq :=
  fun _ hrow => h.drawn _ (List.mem_append_left _ (List.mem_map_of_mem hrow))

theorem Drawn.actuatorsDrawn (h : Drawn seq d) :
    ∀ row ∈ d.actuators, actuatorKind.uid row ≤ seq :=
  fun _ hrow => h.drawn _ (List.mem_append_right _ (List.mem_map_of_mem hrow))

/-- What is kept of the rows of a template. -/
theorem tidy_of_sublist {js : Wiring.Js} {K : RowKind F R} {rows kept : List R} {seq seq' : Nat}
    (hkept : kept.Sublist rows) (huids : (rows.map K.uid).Nodup)
    (hdrawn : ∀ row ∈ rows, K.uid row ≤ seq)
    (hunique : (rows.map fun row => js.toLowerCase (rowKey K row)).Nodup)
    (hunreserved : ∀ row ∈ kept, js.toLowerCase (rowKey K row) ∉ reservedMetricKeys)
    (hseq : seq ≤ seq') : Tidy K js ⟨seq', kept⟩ :=
  ⟨⟨hunique.sublist (hkept.map _), hunreserved⟩, huids.sublist (hkept.map _),
    fun row hrow => Nat.le_trans (hdrawn row (hkept.subset hrow)) hseq⟩

/-- Parts keep their uids. -/
theorem uids_of_outcomes {js : Wiring.Js} {K : RowKind F R} {c : Change F R}
    {parts out : List (BindingDraft F)} (h : List.Forall₂ (Outcome K js c seq) parts out) :
    out.map BindingDraft.uid = parts.map BindingDraft.uid :=
  (map_eq_of_forall₂ (fun _ _ houtcome => houtcome.uid.symm) h).symm

theorem snapshotOf_metric {prev : TemplateDraft F} (hdrawn : Drawn seq prev) {row : MetricDraft}
    (h : row ∈ prev.metrics) :
    snapshotOf prev row.uid = some (.metric row) := by
  unfold snapshotOf
  rw [find?_uid MetricDraft.uid hdrawn.metricUids h]

theorem snapshotOf_actuator {prev : TemplateDraft F} (hdrawn : Drawn seq prev)
    {row : ActuatorDraft F} (h : row ∈ prev.actuators) :
    snapshotOf prev row.uid = some (.actuator row) := by
  have hnone : prev.metrics.find? (fun other => other.uid = row.uid) = none := by
    rw [List.find?_eq_none]
    intro other hother heq
    rw [decide_eq_true_eq] at heq
    refine (List.nodup_append'.mp hdrawn.rows).2.2 (List.mem_map_of_mem hother) ?_
    rw [heq]
    exact List.mem_map_of_mem h
  unfold snapshotOf
  rw [hnone, find?_uid ActuatorDraft.uid hdrawn.actuatorUids h]
  rfl

section

variable [DecidableEq F] {js : Wiring.Js} {drivers : List PartSpec} {seq : Nat}
  {prev : TemplateDraft F} {next : HardwareDraft F}

theorem inputs_keep_linked : KeepsLinked metricKind js (inputsChange js drivers prev next) := by
  intro b hb uid huid hdropped
  have hunlinked := (List.mem_filter.mp hdropped).2
  rw [decide_eq_true_eq] at hunlinked
  apply hunlinked
  exact List.mem_append_left _ (List.mem_flatMap.mpr ⟨b, hb, huid⟩)

theorem outputs_keep_linked : KeepsLinked actuatorKind js (outputsChange js drivers prev next) := by
  intro b hb uid huid hdropped
  have hunlinked := (List.mem_filter.mp hdropped).2
  rw [decide_eq_true_eq] at hunlinked
  apply hunlinked
  exact List.mem_append_right _ (List.mem_flatMap.mpr ⟨b, hb, huid⟩)

/-- The inputs after the change. -/
theorem inputs_round (hdrawn : Drawn seq prev) (hdistinct : Distinct js prev)
    (hchange : PartsChange prev next) (hok : ChangeOk js drivers seq prev next) :
    Round metricKind js (inputsChange js drivers prev next)
      (proposedInputs js drivers seq prev next).2 []
      (proposedInputs js drivers seq prev next).1 := by
  have huids := hchange.uids
  rw [HardwareDraft.parts, List.map_append, List.nodup_append'] at huids
  apply round_end prev.inputs hdrawn.parts huids.1 (fun _ hold => List.mem_append_left _ hold)
    hchange.inputs inputs_keep_linked hdistinct.inputs
  · intro uid huid
    apply hdrawn.links
    rw [TemplateDraft.parts, fed_append]
    exact List.mem_append_left _ huid
  · exact tidy_of_sublist List.filter_sublist hdrawn.metricUids hdrawn.metricsDrawn
      hdistinct.metrics hok.metrics (Nat.le_refl seq)
  · exact hok.inputs

variable (js drivers seq prev next) in
theorem seq_le_inputs : seq ≤ (proposedInputs js drivers seq prev next).1.seq :=
  (propose_outcome (c := inputsChange js drivers prev next) next.inputs ⟨seq, _⟩).2.2

/-- The outputs. -/
theorem outputs_round (hdrawn : Drawn seq prev) (hdistinct : Distinct js prev)
    (hchange : PartsChange prev next) (hok : ChangeOk js drivers seq prev next) :
    Round actuatorKind js (outputsChange js drivers prev next)
      (proposedOutputs js drivers seq prev next).2 []
      (proposedOutputs js drivers seq prev next).1 := by
  have huids := hchange.uids
  rw [HardwareDraft.parts, List.map_append, List.nodup_append'] at huids
  apply round_end prev.outputs hdrawn.parts huids.2.1 (fun _ hold => List.mem_append_right _ hold)
    hchange.outputs outputs_keep_linked hdistinct.outputs
  · intro uid huid
    refine Nat.le_trans (hdrawn.links uid ?_) (seq_le_inputs js drivers seq prev next)
    rw [TemplateDraft.parts, fed_append]
    exact List.mem_append_right _ huid
  · exact tidy_of_sublist List.filter_sublist hdrawn.actuatorUids hdrawn.actuatorsDrawn
      hdistinct.actuators hok.actuators (seq_le_inputs js drivers seq prev next)
  · exact hok.outputs

variable (js drivers seq prev next) in
theorem inputs_outcome : List.Forall₂ (Outcome metricKind js (inputsChange js drivers prev next) seq)
    next.inputs (proposedInputs js drivers seq prev next).2 :=
  (propose_outcome (c := inputsChange js drivers prev next) next.inputs ⟨seq, _⟩).1

variable (js drivers seq prev next) in
theorem outputs_outcome : List.Forall₂
    (Outcome actuatorKind js (outputsChange js drivers prev next)
      (proposedInputs js drivers seq prev next).1.seq)
    next.outputs (proposedOutputs js drivers seq prev next).2 :=
  (propose_outcome (c := outputsChange js drivers prev next) next.outputs ⟨_, _⟩).1

/-- A metric after the change is an old one, or was drawn for it. -/
theorem metric_cases {row : MetricDraft}
    (h : row ∈ (proposedInputs js drivers seq prev next).1.rows) :
    row ∈ metricsKept js drivers prev next ∨ seq < row.uid :=
  (propose_outcome (c := inputsChange js drivers prev next) next.inputs ⟨seq, _⟩).2.1.old h

theorem actuator_cases {row : ActuatorDraft F}
    (h : row ∈ (proposedOutputs js drivers seq prev next).1.rows) :
    row ∈ actuatorsKept js drivers prev next ∨
      (proposedInputs js drivers seq prev next).1.seq < row.uid :=
  (propose_outcome (c := outputsChange js drivers prev next) next.outputs ⟨_, _⟩).2.1.old h

/-- **A change leaves the template in step**, if its turns may all be taken. -/
theorem reconcile_inStep (hdrawn : Drawn seq prev) (hdistinct : Distinct js prev)
    (hchange : PartsChange prev next) (hok : ChangeOk js drivers seq prev next) :
    InStep js (reconcileWiring js drivers seq prev next).2 ∧
      Drawn (reconcileWiring js drivers seq prev next).1
        (reconcileWiring js drivers seq prev next).2 := by
  have hin := inputs_round hdrawn hdistinct hchange hok
  have hout := outputs_round hdrawn hdistinct hchange hok
  have hinOnce := hin.once
  have houtOnce := hout.once
  have hinLinks := hin.drawn
  have houtLinks := hout.drawn
  rw [List.map_nil, List.append_nil] at hinOnce houtOnce hinLinks houtLinks
  have hseq : (proposedInputs js drivers seq prev next).1.seq ≤
      (proposedOutputs js drivers seq prev next).1.seq :=
    (propose_outcome (c := outputsChange js drivers prev next) next.outputs ⟨_, _⟩).2.2
  rw [reconcileWiring_eq]
  refine ⟨⟨hinOnce, houtOnce, hin.tidy.keys, hout.tidy.keys⟩, ?_, ?_, ?_, ?_⟩
  · rw [List.nodup_append']
    refine ⟨hin.tidy.uids, hout.tidy.uids, ?_⟩
    intro uid hmetric hactuator
    obtain ⟨m, hm, rfl⟩ := List.mem_map.mp hmetric
    obtain ⟨a, ha, heq⟩ := List.mem_map.mp hactuator
    have hmDrawn : m.uid ≤ (proposedInputs js drivers seq prev next).1.seq := hin.tidy.drawn m hm
    have hle := seq_le_inputs js drivers seq prev next
    rcases actuator_cases ha with haOld | haNew
    · have haMem := List.mem_map_of_mem (f := ActuatorDraft.uid) (List.mem_of_mem_filter haOld)
      have haDrawn := hdrawn.drawn _ (List.mem_append_right _ haMem)
      rcases metric_cases hm with hmOld | hmNew
      · have hmMem := List.mem_map_of_mem (f := MetricDraft.uid) (List.mem_of_mem_filter hmOld)
        refine (List.nodup_append'.mp hdrawn.rows).2.2 hmMem ?_
        exact heq ▸ haMem
      · have heq' : a.uid = m.uid := heq
        omega
    · have heq' : a.uid = m.uid := heq
      omega
  · intro uid huid
    rcases List.mem_append.mp huid with hmetric | hactuator
    · obtain ⟨m, hm, rfl⟩ := List.mem_map.mp hmetric
      exact Nat.le_trans (hin.tidy.drawn m hm) hseq
    · obtain ⟨a, ha, rfl⟩ := List.mem_map.mp hactuator
      exact hout.tidy.drawn a ha
  · intro uid huid
    rw [TemplateDraft.parts, fed_append] at huid
    rcases List.mem_append.mp huid with hinput | houtput
    · exact Nat.le_trans (hinLinks uid hinput) hseq
    · exact houtLinks uid houtput
  · show (((proposedInputs js drivers seq prev next).2 ++
      (proposedOutputs js drivers seq prev next).2).map BindingDraft.uid).Nodup
    rw [List.map_append, uids_of_outcomes (inputs_outcome js drivers seq prev next),
      uids_of_outcomes (outputs_outcome js drivers seq prev next), ← List.map_append]
    exact hchange.uids

/-- **Only such a change does.** -/
theorem changeOk_of_inStep (h : InStep js (reconcileWiring js drivers seq prev next).2) :
    ChangeOk js drivers seq prev next := by
  rw [reconcileWiring_eq] at h
  have hmetrics : Appended (metricKind (F := F)) seq (metricsKept js drivers prev next)
      (proposedInputs js drivers seq prev next).1.rows :=
    (propose_outcome (c := inputsChange js drivers prev next) next.inputs ⟨seq, _⟩).2.1
  have hactuators : Appended actuatorKind (proposedInputs js drivers seq prev next).1.seq
      (actuatorsKept js drivers prev next) (proposedOutputs js drivers seq prev next).1.rows :=
    (propose_outcome (c := outputsChange js drivers prev next) next.outputs ⟨_, _⟩).2.1
  refine ⟨?_, ?_, ?_, ?_⟩
  · exact fun row hrow => h.metrics.unreserved row (hmetrics.subset hrow)
  · exact fun row hrow => h.actuators.unreserved row (hactuators.subset hrow)
  · have hsplit : (inputsChange js drivers prev next).next = [] ++ next.inputs := rfl
    exact proposeOk_of_end hsplit nofun h.metrics h.inputs
  · have hsplit : (outputsChange js drivers prev next).next = [] ++ next.outputs := rfl
    exact proposeOk_of_end hsplit nofun h.actuators h.outputs

/-- What goes was proposed as it is by a part. -/
theorem proposed_of_dropped {uid : Nat} (h : uid ∈ droppedRows js drivers prev next) :
    ∃ b ∈ prev.parts, ∃ snap, snapshotOf prev uid = some snap ∧ (uid, snap) ∈ b.proposed := by
  obtain ⟨old, hold, hentry⟩ := List.mem_flatMap.mp (List.mem_of_mem_filter h)
  obtain ⟨entry, hmem, rfl⟩ := List.mem_map.mp hentry
  obtain ⟨hproposed, hsame⟩ := List.mem_filter.mp hmem
  rw [decide_eq_true_eq] at hsame
  exact ⟨old, List.mem_of_mem_filter hold, entry.2, hsame, hproposed⟩

/-- What a call lets go is as a part has proposed it, and no channel feeds it any more. -/
structure Drops (d d' : TemplateDraft F) : Prop where
  metrics : ∀ row ∈ d.metrics, row ∉ d'.metrics →
    (∃ b ∈ d.parts, (row.uid, .metric row) ∈ b.proposed) ∧ row.uid ∉ fed d'.inputs
  actuators : ∀ row ∈ d.actuators, row ∉ d'.actuators →
    (∃ b ∈ d.parts, (row.uid, .actuator row) ∈ b.proposed) ∧ row.uid ∉ fed d'.outputs

/-- **Rows that were edited, or that a channel still feeds, stay.** -/
theorem reconcile_drops (hdrawn : Drawn seq prev) (hdistinct : Distinct js prev)
    (hchange : PartsChange prev next) :
    Drops prev (reconcileWiring js drivers seq prev next).2 := by
  rw [reconcileWiring_eq]
  constructor
  · intro row hrow hgone
    obtain ⟨hdropped, hunfed⟩ := propose_drops (K := metricKind)
      (c := inputsChange js drivers prev next) prev.inputs hdrawn.parts
      (fun _ hold => List.mem_append_left _ hold) hchange.inputs inputs_keep_linked hdistinct.inputs
      hdrawn.metricsDrawn hrow hgone
    obtain ⟨b, hb, snap, hsnap, hproposed⟩ := proposed_of_dropped hdropped
    have hsame := (snapshotOf_metric hdrawn hrow).symm.trans hsnap
    obtain rfl := Option.some.inj hsame
    exact ⟨⟨b, hb, hproposed⟩, hunfed⟩
  · intro row hrow hgone
    obtain ⟨hdropped, hunfed⟩ := propose_drops (K := actuatorKind)
      (c := outputsChange js drivers prev next) prev.outputs hdrawn.parts
      (fun _ hold => List.mem_append_right _ hold) hchange.outputs outputs_keep_linked
      hdistinct.outputs
      (fun row hrow => Nat.le_trans (hdrawn.actuatorsDrawn row hrow)
        (seq_le_inputs js drivers seq prev next)) hrow hgone
    obtain ⟨b, hb, snap, hsnap, hproposed⟩ := proposed_of_dropped hdropped
    have hsame := (snapshotOf_actuator hdrawn hrow).symm.trans hsnap
    obtain rfl := Option.some.inj hsame
    exact ⟨⟨b, hb, hproposed⟩, hunfed⟩

/-! ## Readings -/

/-- Every link leads to a metric, but for the strays. -/
def Leads (stray : Ref → Prop) (rows : List MetricDraft) (channels : Record Ref) : Prop :=
  ∀ ref ∈ linksOf channels, ref ≠ .unused → (∃ row ∈ rows, ref = .row row.uid) ∨ stray ref

/-- And so of every reading part. -/
def LinksLead (stray : Ref → Prop) (d : TemplateDraft F) : Prop :=
  ∀ b ∈ d.inputs, Leads stray d.metrics b.channels

/-- A link of a reading part that leads nowhere, as one to a key the template does not have. -/
def Stray (d : TemplateDraft F) (ref : Ref) : Prop :=
  (∃ b ∈ d.inputs, ref ∈ linksOf b.channels) ∧ ∀ row ∈ d.metrics, ref ≠ .row row.uid

/-- A draft's links lead to its metrics, but for its strays. -/
theorem linksLead_stray (d : TemplateDraft F) : LinksLead (Stray d) d := by
  intro b hb ref href _
  by_cases hrow : ∃ row ∈ d.metrics, ref = .row row.uid
  · exact .inl hrow
  · exact .inr ⟨⟨b, hb, href⟩, fun row hmem heq => hrow ⟨row, hmem, heq⟩⟩

theorem reconcile_leads (hdrawn : Drawn seq prev) (hdistinct : Distinct js prev)
    (hchange : PartsChange prev next) {stray : Ref → Prop} (hleads : LinksLead stray prev) :
    LinksLead stray (reconcileWiring js drivers seq prev next).2 := by
  rw [reconcileWiring_eq]
  intro x hx ref href hne
  obtain ⟨b, hb, hstart⟩ := forall₂_mem (propose_leadsOn (K := metricKind)
    (c := inputsChange js drivers prev next) next.inputs
    ⟨seq, metricsKept js drivers prev next⟩).flip hx
  rcases hstart ref href hne with hold | hrow
  · obtain ⟨⟨old, hmem, -, hlink⟩, hstays⟩ := (startOf_links hdrawn.parts
      (fun _ hold => List.mem_append_left _ hold) hchange.inputs inputs_keep_linked hdistinct.inputs
      hb).2 ref hold hne
    refine (hleads old hmem ref hlink hne).imp_left ?_
    rintro ⟨row, hrow, heq⟩
    refine ⟨row, ?_, heq⟩
    refine (propose_outcome (c := inputsChange js drivers prev next) next.inputs
      ⟨seq, metricsKept js drivers prev next⟩).2.1.subset ?_
    exact List.mem_filter.mpr ⟨hrow, decide_eq_true (hstays row.uid heq)⟩
  · exact .inl hrow

/-- **The common readings** of a part that is new or on another driver are linked, and those of a
part that stays if they were. -/
theorem reconcile_linked (hdrawn : Drawn seq prev) (hchange : PartsChange prev next)
    {x : BindingDraft F} (hx : x ∈ (reconcileWiring js drivers seq prev next).2.inputs)
    {spec : PartSpec} (hspec : findDriver drivers x.driver = some spec) {ch : ChannelSpec}
    (hch : ch ∈ spec.channels)
    (hstays : ∀ old ∈ prev.inputs, old.uid = x.uid → old.driver = x.driver →
      linked old.channels ch.key = true)
    (hcomes : (∀ old ∈ prev.inputs, old.uid = x.uid → old.driver ≠ x.driver) → ch.common = true) :
    linked x.channels ch.key = true := by
  rw [reconcileWiring_eq] at hx
  obtain ⟨b, hb, houtcome⟩ := forall₂_mem (inputs_outcome js drivers seq prev next).flip hx
  rcases hchange.inputs b hb with hold | ⟨-, hreplaces⟩
  · have hsame : x = b := by
      have hchanged : isChanged prev.parts b = false :=
        isChanged_of_mem hdrawn.parts (List.mem_append_left _ hold)
      exact (houtcome.stays hchanged).trans (startOf_of_mem hdrawn.parts inputs_keep_linked hb
        (List.mem_append_left _ hold))
    rw [hsame] at hstays ⊢
    exact hstays b hold rfl rfl
  · have hchanged : isChanged prev.parts b = true :=
      isChanged_of_blank fun old hold huid => (hreplaces old hold huid).2
    have hcommon : ch.common = true := by
      apply hcomes
      intro old hold huid
      rw [houtcome.driver]
      exact (hreplaces old (List.mem_append_left _ hold) (huid.trans houtcome.uid)).2
    exact houtcome.common spec hchanged (houtcome.driver ▸ hspec) ch hch hcommon

end

/-! ## `reconcileParts` -/

/-- The same rows, and the same parts. -/
structure Alike (d d' : TemplateDraft F) : Prop where
  metrics : d.metrics = d'.metrics
  actuators : d.actuators = d'.actuators
  inputs : d.inputs = d'.inputs
  outputs : d.outputs = d'.outputs

variable {d d' : TemplateDraft F}

theorem Alike.parts (h : Alike d d') : d.parts = d'.parts := by
  unfold TemplateDraft.parts
  rw [h.inputs, h.outputs]

theorem Alike.inStep_iff {js : Wiring.Js} (h : Alike d d') :
    InStep js d ↔ InStep js d' := by
  constructor
  · rintro ⟨hinputs, houtputs, hmetrics, hactuators⟩
    exact ⟨h.inputs ▸ hinputs, h.outputs ▸ houtputs, h.metrics ▸ hmetrics, h.actuators ▸ hactuators⟩
  · rintro ⟨hinputs, houtputs, hmetrics, hactuators⟩
    exact ⟨h.inputs ▸ hinputs, h.outputs ▸ houtputs, h.metrics ▸ hmetrics, h.actuators ▸ hactuators⟩

theorem Alike.drawn (h : Alike d d') (hdrawn : Drawn seq d) :
    Drawn seq d' := by
  obtain ⟨hrows, hmem, hlinks, hparts⟩ := hdrawn
  rw [h.metrics, h.actuators] at hrows hmem
  rw [h.parts] at hlinks hparts
  exact ⟨hrows, hmem, hlinks, hparts⟩

theorem Alike.drops {d d₁ d₂ : TemplateDraft F} (h : Alike d₁ d₂) (hdrops : Drops d d₁) :
    Drops d d₂ := by
  obtain ⟨hmetrics, hactuators⟩ := hdrops
  rw [h.metrics, h.inputs] at hmetrics
  rw [h.actuators, h.outputs] at hactuators
  exact ⟨hmetrics, hactuators⟩

theorem Alike.leads (h : Alike d d') {stray : Ref → Prop} (hleads : LinksLead stray d) :
    LinksLead stray d' := by
  unfold LinksLead
  rw [← h.metrics, ← h.inputs]
  exact hleads

section

variable [DecidableEq F]

/-- The parts after a change: none, where the wiring is cleared. -/
def wiringOf (next : Option (HardwareDraft F)) : HardwareDraft F := next.getD ⟨[], []⟩

/-- A wiring that is cleared leaves what one without parts leaves. -/
theorem reconcileParts_alike (js : Wiring.Js) (drivers : List PartSpec) (seq : Nat)
    (prev : TemplateDraft F) (next : Option (HardwareDraft F)) :
    (reconcileParts js seq prev next (some drivers)).1 =
        (reconcileWiring js drivers seq prev (wiringOf next)).1 ∧
      Alike (reconcileWiring js drivers seq prev (wiringOf next)).2
        (reconcileParts js seq prev next (some drivers)).2 := by
  cases next with
  | some next => exact ⟨rfl, rfl, rfl, rfl, rfl⟩
  | none =>
    cases hhardware : prev.hardware with
    | some h =>
      unfold reconcileParts
      rw [hhardware]
      exact ⟨rfl, rfl, rfl, rfl, rfl⟩
    | none =>
      have hparts : prev.parts = [] := by
        unfold TemplateDraft.parts TemplateDraft.inputs TemplateDraft.outputs
        rw [hhardware]
        rfl
      have hdropped : droppedRows js drivers prev (wiringOf none) = [] := by
        unfold droppedRows untouchedOf
        rw [hparts]
        rfl
      have hkept : ∀ {R : Type} (uid : R → Nat) (rows : List R),
          rows.filter (fun row => decide (uid row ∉ ([] : List Nat))) = rows := by
        intro R uid rows
        exact List.filter_eq_self.mpr fun row _ => by simp
      rw [reconcileWiring_eq]
      unfold proposedOutputs proposedInputs metricsKept actuatorsKept
      rw [hdropped, hkept MetricDraft.uid, hkept ActuatorDraft.uid]
      unfold reconcileParts
      rw [hhardware]
      refine ⟨rfl, rfl, rfl, ?_, ?_⟩
      · unfold TemplateDraft.inputs
        rw [hhardware]
        rfl
      · unfold TemplateDraft.outputs
        rw [hhardware]
        rfl

variable {js : Wiring.Js} {drivers : List PartSpec} {seq : Nat} {prev : TemplateDraft F}
  {next : Option (HardwareDraft F)}

/-- **A change of the parts list** leaves the template in step exactly if it may be made. -/
theorem reconcileParts_inStep_iff (hdrawn : Drawn seq prev) (hdistinct : Distinct js prev)
    (hchange : PartsChange prev (wiringOf next)) :
    InStep js (reconcileParts js seq prev next (some drivers)).2 ↔
      ChangeOk js drivers seq prev (wiringOf next) := by
  obtain ⟨-, halike⟩ := reconcileParts_alike js drivers seq prev next
  rw [← halike.inStep_iff]
  constructor
  · exact changeOk_of_inStep
  · exact fun hok => (reconcile_inStep hdrawn hdistinct hchange hok).1

theorem reconcileParts_drawn (hdrawn : Drawn seq prev) (hdistinct : Distinct js prev)
    (hchange : PartsChange prev (wiringOf next))
    (hok : ChangeOk js drivers seq prev (wiringOf next)) :
    Drawn (reconcileParts js seq prev next (some drivers)).1
      (reconcileParts js seq prev next (some drivers)).2 := by
  obtain ⟨hseq, halike⟩ := reconcileParts_alike js drivers seq prev next
  rw [hseq]
  exact halike.drawn (reconcile_inStep hdrawn hdistinct hchange hok).2

/-- **What it takes away** nobody has edited, and no channel feeds. -/
theorem reconcileParts_drops (hdrawn : Drawn seq prev) (hdistinct : Distinct js prev)
    (hchange : PartsChange prev (wiringOf next)) :
    Drops prev (reconcileParts js seq prev next (some drivers)).2 :=
  (reconcileParts_alike js drivers seq prev next).2.drops
    (reconcile_drops hdrawn hdistinct hchange)

theorem reconcileParts_leads (hdrawn : Drawn seq prev) (hdistinct : Distinct js prev)
    (hchange : PartsChange prev (wiringOf next)) {stray : Ref → Prop}
    (hleads : LinksLead stray prev) :
    LinksLead stray (reconcileParts js seq prev next (some drivers)).2 :=
  (reconcileParts_alike js drivers seq prev next).2.leads
    (reconcile_leads hdrawn hdistinct hchange hleads)

end

end IotSaas.Templates
