import IotSaas.Templates.Change

/-!
# `Templates/Readings.lean` — readings dropped and kept again

`keepReading` changes one channel of one input. Kept, the channel gets a metric that no input
feeds; dropped, it takes its metric along if that is an untouched proposal which no other part
feeds. So a template that is in step stays so through any number of calls, as long as no key that is
proposed is another's, or reserved, in other letters (`callReading_inStep`); and through no others
(`callOk_of_inStep`).
-/

set_option autoImplicit false

namespace IotSaas.Templates

open Lib Catalog Editor

variable {F : Type}

/-! ## One channel of one input -/

/-- What becomes of the inputs. -/
theorem inputs_withChannel {d : TemplateDraft F} {h : HardwareDraft F}
    (huids : (h.inputs.map BindingDraft.uid).Nodup) {b : BindingDraft F} (hb : b ∈ h.inputs)
    (channel : String) (ref : Ref) (proposed : List (Nat × Snapshot F)) :
    ∃ before after, h.inputs = before ++ b :: after ∧
      (withChannel d h b.uid channel ref proposed).inputs =
        before ++ { b with channels := b.channels.set channel ref, proposed } :: after := by
  obtain ⟨before, after, hsplit⟩ := List.append_of_mem hb
  refine ⟨before, after, hsplit, ?_⟩
  have hothers : ∀ x ∈ before ++ after, x.uid ≠ b.uid := by
    intro x hx heq
    have hperm : h.inputs.Perm (b :: (before ++ after)) := hsplit ▸ List.perm_middle
    have hnodup := (hperm.map BindingDraft.uid).nodup_iff.mp huids
    exact (List.nodup_cons.mp hnodup).1 (heq ▸ List.mem_map_of_mem hx)
  have hsame : ∀ xs : List (BindingDraft F), (∀ x ∈ xs, x.uid ≠ b.uid) →
      (xs.map fun x => if x.uid = b.uid then
        { x with channels := x.channels.set channel ref, proposed := proposed } else x) = xs := by
    intro xs hxs
    refine (List.map_congr_left fun x hx => ?_).trans (List.map_id xs)
    rw [if_neg (hxs x hx)]
    rfl
  simp only [withChannel, TemplateDraft.inputs, hsplit, List.map_append, List.map_cons, if_true]
  rw [hsame before fun x hx => hothers x (List.mem_append_left _ hx),
    hsame after fun x hx => hothers x (List.mem_append_right _ hx)]

section

variable {d : TemplateDraft F} {h : HardwareDraft F} {b : BindingDraft F} {channel : String}
  {ref : Ref} {proposed : List (Nat × Snapshot F)}

/-- An input afterwards is another one, as it was, or this one with the channel set. -/
theorem input_cases (huids : (h.inputs.map BindingDraft.uid).Nodup) (hb : b ∈ h.inputs)
    {x : BindingDraft F} (hx : x ∈ (withChannel d h b.uid channel ref proposed).inputs) :
    (x ∈ h.inputs ∧ x.uid ≠ b.uid) ∨
      x = { b with channels := b.channels.set channel ref, proposed := proposed } := by
  obtain ⟨y, hy, rfl⟩ := List.mem_map.mp hx
  by_cases huid : y.uid = b.uid
  · obtain rfl := List.inj_on_of_nodup_map huids hy hb huid
    right
    rw [if_pos rfl]
  · left
    rw [if_neg huid]
    exact ⟨hy, huid⟩

theorem uids_withChannel :
    (withChannel d h b.uid channel ref proposed).inputs.map BindingDraft.uid =
      h.inputs.map BindingDraft.uid := by
  simp only [withChannel, TemplateDraft.inputs, List.map_map]
  refine List.map_congr_left fun x _ => ?_
  simp only [Function.comp_apply]
  split <;> rfl

/-- **A row that no input feeds** may be linked. -/
theorem nodup_withChannel (huids : (h.inputs.map BindingDraft.uid).Nodup) (hb : b ∈ h.inputs)
    (honce : (fed h.inputs).Nodup) (hfresh : ∀ uid, ref = .row uid → uid ∉ fed h.inputs) :
    (fed (withChannel d h b.uid channel ref proposed).inputs).Nodup := by
  obtain ⟨before, after, hsplit, hinputs⟩ :=
    inputs_withChannel (d := d) huids hb channel ref proposed
  rw [hsplit] at honce hfresh
  rw [hinputs]
  rw [nodup_fed_insert] at honce ⊢
  obtain ⟨hself, hothers, hapart⟩ := honce
  have hother : ∀ uid, ref = .row uid → uid ∉ fedBy b.channels ∧ uid ∉ fed (before ++ after) := by
    intro uid href
    have hnot := hfresh uid href
    simp only [fed_append, fed_cons, List.mem_append, not_or] at hnot ⊢
    exact ⟨hnot.2.1, hnot.1, hnot.2.2⟩
  refine ⟨nodup_fedBy_set channel hself fun uid href => (hother uid href).1, hothers, ?_⟩
  intro uid huid
  rcases mem_fedBy_set huid with href | hold
  · exact (hother uid href).2
  · exact hapart uid hold

theorem mem_fed_withChannel (huids : (h.inputs.map BindingDraft.uid).Nodup) (hb : b ∈ h.inputs)
    {uid : Nat} (huid : uid ∈ fed (withChannel d h b.uid channel ref proposed).inputs) :
    ref = .row uid ∨ uid ∈ fed h.inputs := by
  obtain ⟨x, hx, hfed⟩ := mem_fed.mp huid
  rcases input_cases huids hb hx with ⟨hold, -⟩ | rfl
  · exact .inr (mem_fed.mpr ⟨x, hold, hfed⟩)
  · exact (mem_fedBy_set hfed).imp_right fun hold => mem_fed.mpr ⟨b, hb, hold⟩

/-- A channel that is unlinked leaves its row to nobody. -/
theorem unfed_withChannel (huids : (h.inputs.map BindingDraft.uid).Nodup) (hb : b ∈ h.inputs)
    (honce : (fed h.inputs).Nodup) {uid : Nat} (hget : b.channels.get channel = some (.row uid)) :
    uid ∉ fed (withChannel d h b.uid channel .unused proposed).inputs := by
  obtain ⟨before, after, hsplit, hinputs⟩ :=
    inputs_withChannel (d := d) huids hb channel .unused proposed
  rw [hsplit, nodup_fed_insert] at honce
  obtain ⟨hself, -, hapart⟩ := honce
  have hunfed := not_mem_fedBy_unlinked hself hget
  have hothers := hapart uid (mem_fedBy.mpr (mem_linksOf_of_get hget))
  rw [hinputs]
  simp only [fed_append, fed_cons, List.mem_append, not_or] at hothers ⊢
  exact ⟨hothers.1, hunfed, hothers.2⟩

end

theorem mem_takenTargets {parts : List (BindingDraft F)} {uid : Nat} :
    Ref.row uid ∈ takenTargets parts ↔ uid ∈ fed parts := by
  rw [takenTargets, List.mem_filter, List.mem_flatMap, mem_fed]
  simp only [mem_fedBy]
  constructor
  · exact fun hmem => hmem.1
  · exact fun hmem => ⟨hmem, by simp⟩

/-! ## A reading kept -/

theorem inputs_of_hardware {d : TemplateDraft F} {h : HardwareDraft F} (hh : d.hardware = some h) :
    d.inputs = h.inputs := by
  unfold TemplateDraft.inputs
  rw [hh]

theorem outputs_of_hardware {d : TemplateDraft F} {h : HardwareDraft F} (hh : d.hardware = some h) :
    d.outputs = h.outputs := by
  unfold TemplateDraft.outputs
  rw [hh]

/-- **When a reading may be kept**: a metric with its key and type is free, or the key that is
proposed is open. -/
def KeepOk (js : Wiring.Js) (d : TemplateDraft F) (spec : PartSpec) (ch : ChannelSpec) : Prop :=
  (∀ row ∈ d.metrics, wanted (F := F) metricKind js spec ch row = true → row.uid ∈ fed d.inputs) →
    KeyOpen (F := F) metricKind js spec ch d.metrics

section

variable {js : Wiring.Js} {seq : Nat} {d : TemplateDraft F} {h : HardwareDraft F}
  {b : BindingDraft F} {spec : PartSpec} {ch : ChannelSpec}

theorem Drawn.inputUids (hdrawn : Drawn seq d) : (d.inputs.map BindingDraft.uid).Nodup := by
  have hparts := hdrawn.parts
  rw [TemplateDraft.parts, List.map_append, List.nodup_append'] at hparts
  exact hparts.1

/-- Uids and parts after a channel was set, while the metrics are as they were. -/
theorem Drawn.withChannel (hdrawn : Drawn seq d) (hh : d.hardware = some h) (hb : b ∈ h.inputs)
    {channel : String} {ref : Ref} (href : ∀ uid, ref = .row uid → uid ≤ seq)
    (proposed : List (Nat × Snapshot F)) :
    Drawn seq (Templates.withChannel d h b.uid channel ref proposed) := by
  have huids : (h.inputs.map BindingDraft.uid).Nodup := inputs_of_hardware hh ▸ hdrawn.inputUids
  refine ⟨hdrawn.rows, hdrawn.drawn, ?_, ?_⟩
  · intro uid huid
    rw [TemplateDraft.parts, fed_append] at huid
    rcases List.mem_append.mp huid with hinput | houtput
    · rcases mem_fed_withChannel huids hb hinput with hrow | hold
      · exact href uid hrow
      · apply hdrawn.links
        rw [TemplateDraft.parts, fed_append, inputs_of_hardware hh]
        exact List.mem_append_left _ hold
    · apply hdrawn.links
      rw [TemplateDraft.parts, fed_append, outputs_of_hardware hh]
      exact List.mem_append_right _ houtput
  · have hparts := hdrawn.parts
    rw [TemplateDraft.parts, List.map_append, inputs_of_hardware hh,
      outputs_of_hardware hh] at hparts
    rw [TemplateDraft.parts, List.map_append, uids_withChannel]
    exact hparts

/-- A metric that was drawn for the draft. -/
theorem Drawn.addMetric {next : TemplateDraft F} (hdrawn : Drawn seq next) {row : MetricDraft}
    (huid : row.uid = seq + 1) :
    Drawn (seq + 1) { next with metrics := next.metrics ++ [row] } := by
  have hfresh :
      seq + 1 ∉ next.metrics.map MetricDraft.uid ++ next.actuators.map ActuatorDraft.uid := by
    intro hmem
    have hle := hdrawn.drawn _ hmem
    omega
  have hperm : ((next.metrics ++ [row]).map MetricDraft.uid ++
      next.actuators.map ActuatorDraft.uid).Perm
      ((seq + 1) :: (next.metrics.map MetricDraft.uid ++ next.actuators.map ActuatorDraft.uid)) := by
    rw [List.map_append, List.map_singleton, huid, List.append_assoc, List.singleton_append]
    exact List.perm_middle
  refine ⟨?_, ?_, fun uid hfed => Nat.le_succ_of_le (hdrawn.links uid hfed), hdrawn.parts⟩
  · exact hperm.nodup_iff.mpr (List.nodup_cons.mpr ⟨hfresh, hdrawn.rows⟩)
  · intro uid hmem
    rcases List.mem_cons.mp (hperm.mem_iff.mp hmem) with rfl | hold
    · exact Nat.le_refl _
    · exact Nat.le_succ_of_le (hdrawn.drawn uid hold)

/-- **Keeping a reading** leaves the template in step. -/
theorem keep_inStep (hdrawn : Drawn seq d) (hstep : InStep js d) (hh : d.hardware = some h)
    (hb : b ∈ h.inputs) (hok : linked b.channels ch.key = false → KeepOk js d spec ch) :
    InStep js (keep js seq d h b spec ch).2 ∧
      Drawn (keep js seq d h b spec ch).1 (keep js seq d h b spec ch).2 := by
  have huids : (h.inputs.map BindingDraft.uid).Nodup := inputs_of_hardware hh ▸ hdrawn.inputUids
  have honce : (fed h.inputs).Nodup := inputs_of_hardware hh ▸ hstep.inputs
  have houtputs : (fed h.outputs).Nodup := outputs_of_hardware hh ▸ hstep.outputs
  unfold keep
  split
  · exact ⟨hstep, hdrawn⟩
  · rename_i hlinked
    rw [Bool.not_eq_true] at hlinked
    split
    · rename_i uid hfound
      obtain ⟨row, hrow, rfl, -, hbusy⟩ := rowForChannel_found hfound
      rw [decide_eq_false_iff_not, mem_takenTargets] at hbusy
      refine ⟨⟨?_, houtputs, hstep.metrics, hstep.actuators⟩, ?_⟩
      · refine nodup_withChannel huids hb honce fun uid huid => ?_
        cases huid
        exact hbusy
      · refine hdrawn.withChannel hh hb (fun uid huid => ?_) _
        cases huid
        exact hdrawn.drawn _ (List.mem_append_left _ (List.mem_map_of_mem hrow))
    · rename_i row hcreated
      obtain ⟨rfl, hbusy⟩ := rowForChannel_created hcreated
      have hopen := hok hlinked fun row hrow hwanted => by
        have hrowBusy := hbusy row hrow hwanted
        rw [decide_eq_true_eq, mem_takenTargets] at hrowBusy
        rw [inputs_of_hardware hh]
        exact hrowBusy
      have hfresh : seq + 1 ∉ fed h.inputs := by
        intro hfed
        have hle := hdrawn.links (seq + 1) (by
          rw [TemplateDraft.parts, fed_append, inputs_of_hardware hh]
          exact List.mem_append_left _ hfed)
        omega
      refine ⟨⟨?_, houtputs, hstep.metrics.add hopen _ _, hstep.actuators⟩, ?_⟩
      · refine nodup_withChannel (d := d) huids hb honce fun uid huid => ?_
        cases huid
        exact hfresh
      · -- the row first, then the channel
        refine Drawn.withChannel (hdrawn.addMetric rfl) hh hb (fun uid huid => ?_) _
        cases huid
        exact Nat.le_refl _

/-- **Only a reading that may be kept** leaves it so. -/
theorem keepOk_of_keep (hh : d.hardware = some h) (hlinked : linked b.channels ch.key = false)
    (hstep : InStep js (keep js seq d h b spec ch).2) : KeepOk js d spec ch := by
  intro hall
  rw [inputs_of_hardware hh] at hall
  unfold keep at hstep
  rw [hlinked, if_neg Bool.false_ne_true] at hstep
  split at hstep
  · rename_i uid hfound
    obtain ⟨row, hrow, rfl, hwanted, hbusy⟩ := rowForChannel_found hfound
    rw [decide_eq_false_iff_not, mem_takenTargets] at hbusy
    exact absurd (hall row hrow hwanted) hbusy
  · rename_i row hcreated
    obtain ⟨rfl, -⟩ := rowForChannel_created hcreated
    exact .of_apart hstep.metrics

/-- What was linked stays, and the reading is linked. -/
theorem keep_linked (hdrawn : Drawn seq d) (hh : d.hardware = some h) (hb : b ∈ h.inputs)
    {x : BindingDraft F} (hx : x ∈ (keep js seq d h b spec ch).2.inputs) :
    ∃ y ∈ d.inputs, x.uid = y.uid ∧ x.driver = y.driver ∧
      (∀ channel, linked y.channels channel = true → linked x.channels channel = true) ∧
      (x.uid = b.uid → linked x.channels ch.key = true) := by
  have huids : (h.inputs.map BindingDraft.uid).Nodup := inputs_of_hardware hh ▸ hdrawn.inputUids
  have hset : ∀ (uid : Nat) (proposed : List (Nat × Snapshot F)),
      x ∈ (withChannel d h b.uid ch.key (.row uid) proposed).inputs →
      ∃ y ∈ d.inputs, x.uid = y.uid ∧ x.driver = y.driver ∧
        (∀ channel, linked y.channels channel = true → linked x.channels channel = true) ∧
        (x.uid = b.uid → linked x.channels ch.key = true) := by
    intro uid proposed hx
    rw [inputs_of_hardware hh]
    rcases input_cases huids hb hx with ⟨hold, hne⟩ | rfl
    · exact ⟨x, hold, rfl, rfl, fun _ hlinked => hlinked, fun heq => absurd heq hne⟩
    · refine ⟨b, hb, rfl, rfl, fun channel hlinked => ?_, fun _ => ?_⟩
      · rw [linked_set]
        split
        · rfl
        · exact hlinked
      · rw [linked_set, if_pos rfl]
        rfl
  unfold keep at hx
  split at hx
  · rename_i hlinked
    refine ⟨x, hx, rfl, rfl, fun _ h => h, fun huid => ?_⟩
    rw [inputs_of_hardware hh] at hx
    rw [List.inj_on_of_nodup_map huids hx hb huid]
    exact hlinked
  · split at hx
    · exact hset _ _ hx
    · exact hset _ _ hx

/-- Links go on leading to metrics. -/
theorem keep_leads (hdrawn : Drawn seq d) (hh : d.hardware = some h) (hb : b ∈ h.inputs)
    {stray : Ref → Prop} (hleads : LinksLead stray d) :
    LinksLead stray (keep js seq d h b spec ch).2 := by
  have huids : (h.inputs.map BindingDraft.uid).Nodup := inputs_of_hardware hh ▸ hdrawn.inputUids
  have hset : ∀ (rows : List MetricDraft) (uid : Nat) (proposed : List (Nat × Snapshot F)),
      (∀ row ∈ d.metrics, row ∈ rows) → (∃ row ∈ rows, row.uid = uid) →
      ∀ x ∈ (withChannel d h b.uid ch.key (.row uid) proposed).inputs,
        Leads stray rows x.channels := by
    intro rows uid proposed hrows hrow x hx ref href hne
    have hold : ∀ y ∈ h.inputs, ref ∈ linksOf y.channels →
        (∃ row ∈ rows, ref = .row row.uid) ∨ stray ref := by
      intro y hy hlink
      refine (hleads y (inputs_of_hardware hh ▸ hy) ref hlink hne).imp_left ?_
      exact fun ⟨row, hmem, heq⟩ => ⟨row, hrows row hmem, heq⟩
    rcases input_cases huids hb hx with ⟨hmem, -⟩ | rfl
    · exact hold x hmem href
    · rcases mem_linksOf_set href with rfl | hlink
      · obtain ⟨row, hmem, rfl⟩ := hrow
        exact .inl ⟨row, hmem, rfl⟩
      · exact hold b hb hlink
  unfold keep
  split
  · exact hleads
  · split
    · rename_i uid hfound
      obtain ⟨row, hrow, heq, -, -⟩ := rowForChannel_found hfound
      exact hset d.metrics uid _ (fun _ h => h) ⟨row, hrow, heq⟩
    · rename_i row hcreated
      exact hset (d.metrics ++ [row]) row.uid _ (fun _ h => List.mem_append_left _ h)
        ⟨row, List.mem_append_right _ List.mem_cons_self, rfl⟩

/-- No row goes. -/
theorem keep_drops : Drops d (keep js seq d h b spec ch).2 := by
  have hrows : (∀ row ∈ d.metrics, row ∈ (keep js seq d h b spec ch).2.metrics) ∧
      ∀ row ∈ d.actuators, row ∈ (keep js seq d h b spec ch).2.actuators := by
    unfold keep
    split
    · exact ⟨fun _ hrow => hrow, fun _ hrow => hrow⟩
    · split
      · exact ⟨fun _ hrow => hrow, fun _ hrow => hrow⟩
      · exact ⟨fun _ hrow => List.mem_append_left _ hrow, fun _ hrow => hrow⟩
  exact ⟨fun row hrow hgone => absurd (hrows.1 row hrow) hgone,
    fun row hrow hgone => absurd (hrows.2 row hrow) hgone⟩

end

/-! ## A reading dropped -/

section

variable {js : Wiring.Js} {seq : Nat} {d : TemplateDraft F} {h : HardwareDraft F}
  {b : BindingDraft F} {channel : String}

/-- Fewer metrics. -/
theorem Drawn.fewerMetrics {next : TemplateDraft F} (hdrawn : Drawn seq next)
    {rows : List MetricDraft} (hsub : rows.Sublist next.metrics) :
    Drawn seq { next with metrics := rows } := by
  have hrows : (rows.map MetricDraft.uid ++ next.actuators.map ActuatorDraft.uid).Sublist
      (next.metrics.map MetricDraft.uid ++ next.actuators.map ActuatorDraft.uid) :=
    (hsub.map _).append_right _
  exact ⟨hdrawn.rows.sublist hrows, fun uid huid => hdrawn.drawn uid (hrows.subset huid),
    hdrawn.links, hdrawn.parts⟩

variable [DecidableEq F]

/-- What dropping a reading does: nothing, as it has no link; or its channel is unlinked, and the
metric it fed may go, which was proposed as it is. -/
theorem drop_cases (d : TemplateDraft F) (h : HardwareDraft F) (b : BindingDraft F)
    (channel : String) :
    drop d h b channel = d ∨
    (∃ proposed, drop d h b channel = withChannel d h b.uid channel .unused proposed) ∨
    ∃ proposed, ∃ row ∈ d.metrics, b.channels.get channel = some (.row row.uid) ∧
      (row.uid, .metric row) ∈ b.proposed ∧
      drop d h b channel = { withChannel d h b.uid channel .unused proposed with
        metrics := d.metrics.filter fun other => other.uid ≠ row.uid } := by
  unfold drop
  cases hget : b.channels.get channel with
  | none => exact .inl rfl
  | some ref =>
    cases ref with
    | unused => exact .inl rfl
    | missing key => exact .inr (.inl ⟨_, rfl⟩)
    | row uid =>
      right
      dsimp only
      split
      · rename_i huntouched
        split
        · exact .inl ⟨_, rfl⟩
        · right
          unfold untouched at huntouched
          split at huntouched
          · rename_i row hfind
            have huid : row.uid = uid := by simpa using List.find?_some hfind
            subst huid
            rw [decide_eq_true_eq] at huntouched
            obtain ⟨before, after, hproposed, -⟩ := List.lookup_eq_some_iff.mp huntouched
            refine ⟨_, row, List.mem_of_find?_eq_some hfind, rfl, ?_, rfl⟩
            rw [hproposed]
            simp
          · cases huntouched
      · exact .inl ⟨_, rfl⟩

/-- **Dropping a reading** leaves the template in step. -/
theorem drop_inStep (hdrawn : Drawn seq d) (hstep : InStep js d) (hh : d.hardware = some h)
    (hb : b ∈ h.inputs) : InStep js (drop d h b channel) ∧ Drawn seq (drop d h b channel) := by
  have huids : (h.inputs.map BindingDraft.uid).Nodup := inputs_of_hardware hh ▸ hdrawn.inputUids
  have honce : (fed h.inputs).Nodup := inputs_of_hardware hh ▸ hstep.inputs
  have houtputs : (fed h.outputs).Nodup := outputs_of_hardware hh ▸ hstep.outputs
  have hset : ∀ proposed, InStep js (withChannel d h b.uid channel .unused proposed) ∧
      Drawn seq (withChannel d h b.uid channel .unused proposed) := by
    intro proposed
    refine ⟨⟨nodup_withChannel huids hb honce ?_, houtputs, hstep.metrics, hstep.actuators⟩,
      hdrawn.withChannel hh hb ?_ proposed⟩
    · intro uid huid
      cases huid
    · intro uid huid
      cases huid
  rcases drop_cases d h b channel with hsame | hunlinked | hgone
  · rw [hsame]
    exact ⟨hstep, hdrawn⟩
  · obtain ⟨proposed, hsame⟩ := hunlinked
    rw [hsame]
    exact hset proposed
  · obtain ⟨proposed, row, -, -, -, hsame⟩ := hgone
    rw [hsame]
    obtain ⟨hstep', hdrawn'⟩ := hset proposed
    have hsub : (d.metrics.filter fun other => decide (other.uid ≠ row.uid)).Sublist
        (withChannel d h b.uid channel .unused proposed).metrics := List.filter_sublist
    exact ⟨⟨hstep'.inputs, hstep'.outputs, hstep'.metrics.sublist hsub, hstep'.actuators⟩,
      hdrawn'.fewerMetrics hsub⟩

/-- The inputs afterwards, whether or not a metric went. -/
theorem drop_inputs (d : TemplateDraft F) (h : HardwareDraft F) (b : BindingDraft F)
    (channel : String) : (drop d h b channel).inputs = d.inputs ∨
      ∃ proposed, (drop d h b channel).inputs =
        (withChannel d h b.uid channel .unused proposed).inputs := by
  rcases drop_cases d h b channel with hsame | hunlinked | hgone
  · exact .inl (by rw [hsame])
  · obtain ⟨proposed, hsame⟩ := hunlinked
    exact .inr ⟨proposed, by rw [hsame]⟩
  · obtain ⟨proposed, row, -, -, -, hsame⟩ := hgone
    exact .inr ⟨proposed, by rw [hsame]; rfl⟩

/-- Every other channel stays as it was. -/
theorem drop_linked (hdrawn : Drawn seq d) (hh : d.hardware = some h) (hb : b ∈ h.inputs)
    {x : BindingDraft F} (hx : x ∈ (drop d h b channel).inputs) :
    ∃ y ∈ d.inputs, x.uid = y.uid ∧ x.driver = y.driver ∧
      ∀ other, (x.uid = b.uid → other ≠ channel) → linked y.channels other = true →
        linked x.channels other = true := by
  have huids : (h.inputs.map BindingDraft.uid).Nodup := inputs_of_hardware hh ▸ hdrawn.inputUids
  rcases drop_inputs d h b channel with hsame | ⟨proposed, hsame⟩
  · rw [hsame] at hx
    exact ⟨x, hx, rfl, rfl, fun _ _ hlinked => hlinked⟩
  · rw [hsame] at hx
    rw [inputs_of_hardware hh]
    rcases input_cases huids hb hx with ⟨hold, -⟩ | rfl
    · exact ⟨x, hold, rfl, rfl, fun _ _ hlinked => hlinked⟩
    · refine ⟨b, hb, rfl, rfl, fun other hother hlinked => ?_⟩
      rw [linked_set, if_neg (hother rfl)]
      exact hlinked

/-- The metric that goes is one that nothing leads to any more. -/
theorem drop_leads (hdrawn : Drawn seq d) (hstep : InStep js d) (hh : d.hardware = some h)
    (hb : b ∈ h.inputs) {stray : Ref → Prop} (hleads : LinksLead stray d) :
    LinksLead stray (drop d h b channel) := by
  have huids : (h.inputs.map BindingDraft.uid).Nodup := inputs_of_hardware hh ▸ hdrawn.inputUids
  have honce : (fed h.inputs).Nodup := inputs_of_hardware hh ▸ hstep.inputs
  have hset : ∀ proposed, LinksLead stray (withChannel d h b.uid channel .unused proposed) := by
    intro proposed x hx ref href hne
    rcases input_cases huids hb hx with ⟨hold, -⟩ | rfl
    · exact hleads x (inputs_of_hardware hh ▸ hold) ref href hne
    · rcases mem_linksOf_set href with rfl | hlink
      · exact absurd rfl hne
      · exact hleads b (inputs_of_hardware hh ▸ hb) ref hlink hne
  rcases drop_cases d h b channel with hsame | hunlinked | hgone
  · rw [hsame]
    exact hleads
  · obtain ⟨proposed, hsame⟩ := hunlinked
    rw [hsame]
    exact hset proposed
  · obtain ⟨proposed, row, -, hget, -, hsame⟩ := hgone
    rw [hsame]
    intro x hx ref href hne
    refine (hset proposed x hx ref href hne).imp_left ?_
    rintro ⟨other, hother, rfl⟩
    refine ⟨other, List.mem_filter.mpr ⟨hother, ?_⟩, rfl⟩
    rw [decide_eq_true_eq]
    intro heq
    have hunfed : row.uid ∉ fed (withChannel d h b.uid channel .unused proposed).inputs :=
      unfed_withChannel huids hb honce hget
    exact hunfed (mem_fed.mpr ⟨x, hx, mem_fedBy.mpr (heq ▸ href)⟩)

/-- It is as the part has proposed it. -/
theorem drop_drops (hdrawn : Drawn seq d) (hstep : InStep js d) (hh : d.hardware = some h)
    (hb : b ∈ h.inputs) : Drops d (drop d h b channel) := by
  have huids : (h.inputs.map BindingDraft.uid).Nodup := inputs_of_hardware hh ▸ hdrawn.inputUids
  have honce : (fed h.inputs).Nodup := inputs_of_hardware hh ▸ hstep.inputs
  rcases drop_cases d h b channel with hsame | hunlinked | hgone
  · rw [hsame]
    exact ⟨fun _ hrow hgone => absurd hrow hgone, fun _ hrow hgone => absurd hrow hgone⟩
  · obtain ⟨proposed, hsame⟩ := hunlinked
    rw [hsame]
    exact ⟨fun _ hrow hgone => absurd hrow hgone, fun _ hrow hgone => absurd hrow hgone⟩
  · obtain ⟨proposed, row, hrow, hget, hproposed, hsame⟩ := hgone
    rw [hsame]
    refine ⟨fun other hother hgone => ?_, fun _ hrow hgone => absurd hrow hgone⟩
    have huid : other.uid = row.uid := by
      by_contra hne
      exact hgone (List.mem_filter.mpr ⟨hother, decide_eq_true hne⟩)
    obtain rfl := List.inj_on_of_nodup_map hdrawn.metricUids hother hrow huid
    refine ⟨⟨b, ?_, hproposed⟩, unfed_withChannel (d := d) huids hb honce hget⟩
    exact List.mem_append_left _ (inputs_of_hardware hh ▸ hb)

end

/-! ## Calls -/

/-- A call of `keepReading`. -/
structure ReadingCall where
  uid : Nat
  channel : String
  kept : Bool

section

variable [DecidableEq F] (js : Wiring.Js) (drivers : List PartSpec)

/-- A call, on the draft and the last uid that was drawn. -/
def callReading (s : Nat × TemplateDraft F) (call : ReadingCall) : Nat × TemplateDraft F :=
  keepReading js s.1 s.2 call.uid call.channel call.kept (some drivers)

/-- **When a call may be made**: it drops a reading, or keeps one that is linked, or may be kept. -/
def CallOk (s : Nat × TemplateDraft F) (call : ReadingCall) : Prop :=
  call.kept = true → ∀ b ∈ s.2.inputs, b.uid = call.uid →
    ∀ spec, findDriver drivers b.driver = some spec →
      ∀ ch, spec.channels.find? (fun c => c.key = call.channel) = some ch →
        linked b.channels ch.key = false → KeepOk js s.2 spec ch

end

section

variable [DecidableEq F] {js : Wiring.Js} {drivers : List PartSpec} {s : Nat × TemplateDraft F}
  {call : ReadingCall}

variable (js drivers call) in
/-- What a call comes to: nothing, where there is no such reading; or it is kept or dropped. -/
theorem callReading_cases (hdrawn : Drawn s.1 s.2) :
    (callReading js drivers s call = s ∧ ∀ b ∈ s.2.inputs, b.uid = call.uid →
      ∀ spec, findDriver drivers b.driver = some spec → ∀ ch ∈ spec.channels,
        ch.key ≠ call.channel) ∨
    ∃ h b spec ch, s.2.hardware = some h ∧ b ∈ h.inputs ∧ b.uid = call.uid ∧
      findDriver drivers b.driver = some spec ∧
      spec.channels.find? (fun c => c.key = call.channel) = some ch ∧ ch.key = call.channel ∧
      callReading js drivers s call =
        if call.kept then keep js s.1 s.2 h b spec ch else (s.1, drop s.2 h b call.channel) := by
  obtain ⟨seq, d⟩ := s
  unfold callReading keepReading
  dsimp only
  cases hh : d.hardware with
  | none =>
    left
    refine ⟨rfl, fun b hb => ?_⟩
    rw [TemplateDraft.inputs, hh] at hb
    cases hb
  | some h =>
    have hinputs := inputs_of_hardware hh
    have huids : (h.inputs.map BindingDraft.uid).Nodup := hinputs ▸ hdrawn.inputUids
    rw [hinputs]
    dsimp only
    cases hfind : h.inputs.find? fun x => x.uid = call.uid with
    | none =>
      left
      refine ⟨rfl, fun b hb huid => ?_⟩
      simpa [huid] using List.find?_eq_none.mp hfind b hb
    | some b =>
      have hb := List.mem_of_find?_eq_some hfind
      have huid : b.uid = call.uid := by simpa using List.find?_some hfind
      have honly : ∀ other ∈ h.inputs, other.uid = call.uid → other = b := by
        intro other hother heq
        exact List.inj_on_of_nodup_map huids hother hb (heq.trans huid.symm)
      dsimp only
      cases hspec : findDriver drivers b.driver with
      | none =>
        left
        refine ⟨rfl, fun other hother heq spec hother' => ?_⟩
        rw [honly other hother heq, hspec] at hother'
        cases hother'
      | some spec =>
        dsimp only
        cases hch : spec.channels.find? fun c => c.key = call.channel with
        | none =>
          left
          refine ⟨rfl, fun other hother heq spec' hother' ch hch' => ?_⟩
          rw [honly other hother heq, hspec] at hother'
          cases hother'
          simpa using List.find?_eq_none.mp hch ch hch'
        | some ch =>
          right
          exact ⟨h, b, spec, ch, rfl, hb, huid, hspec, hch, by simpa using List.find?_some hch, rfl⟩

/-- **A call that may be made** leaves the template in step. -/
theorem callReading_inStep (hdrawn : Drawn s.1 s.2) (hstep : InStep js s.2)
    (hok : CallOk js drivers s call) :
    InStep js (callReading js drivers s call).2 ∧
      Drawn (callReading js drivers s call).1 (callReading js drivers s call).2 := by
  rcases callReading_cases js drivers call hdrawn with ⟨hsame, -⟩ | hcall
  · rw [hsame]
    exact ⟨hstep, hdrawn⟩
  · obtain ⟨h, b, spec, ch, hh, hb, huid, hspec, hfind, -, hcall⟩ := hcall
    rw [hcall]
    split
    · rename_i hkept
      refine keep_inStep hdrawn hstep hh hb fun hlinked => ?_
      exact hok hkept b (inputs_of_hardware hh ▸ hb) huid spec hspec ch hfind hlinked
    · exact drop_inStep hdrawn hstep hh hb

/-- **Only such a call does.** -/
theorem callOk_of_inStep (hdrawn : Drawn s.1 s.2)
    (hstep : InStep js (callReading js drivers s call).2) : CallOk js drivers s call := by
  intro hkept b hb huid spec hspec ch hfind hlinked
  rcases callReading_cases js drivers call hdrawn with ⟨-, hnone⟩ | hcall
  · have hkey : ch.key = call.channel := by simpa using List.find?_some hfind
    exact absurd hkey (hnone b hb huid spec hspec ch (List.mem_of_find?_eq_some hfind))
  · obtain ⟨h, b', spec', ch', hh, hb', huid', hspec', hfind', -, hcall⟩ := hcall
    have hsame : b = b' := by
      refine List.inj_on_of_nodup_map hdrawn.inputUids hb ?_ (huid.trans huid'.symm)
      rw [inputs_of_hardware hh]
      exact hb'
    subst hsame
    rw [hspec] at hspec'
    cases hspec'
    rw [hfind] at hfind'
    cases hfind'
    rw [hcall, if_pos hkept] at hstep
    exact keepOk_of_keep hh hlinked hstep

/-- **A metric that was edited, or that an input still feeds, stays.** -/
theorem callReading_drops (hdrawn : Drawn s.1 s.2) (hstep : InStep js s.2) :
    Drops s.2 (callReading js drivers s call).2 := by
  rcases callReading_cases js drivers call hdrawn with ⟨hsame, -⟩ | hcall
  · rw [hsame]
    exact ⟨fun _ hrow hgone => absurd hrow hgone, fun _ hrow hgone => absurd hrow hgone⟩
  · obtain ⟨h, b, spec, ch, hh, hb, -, -, -, -, hcall⟩ := hcall
    rw [hcall]
    split
    · exact keep_drops
    · exact drop_drops hdrawn hstep hh hb

theorem callReading_leads (hdrawn : Drawn s.1 s.2) (hstep : InStep js s.2)
    {stray : Ref → Prop} (hleads : LinksLead stray s.2) :
    LinksLead stray (callReading js drivers s call).2 := by
  rcases callReading_cases js drivers call hdrawn with ⟨hsame, -⟩ | hcall
  · rw [hsame]
    exact hleads
  · obtain ⟨h, b, spec, ch, hh, hb, -, -, -, -, hcall⟩ := hcall
    rw [hcall]
    split
    · exact keep_leads hdrawn hh hb hleads
    · exact drop_leads hdrawn hstep hh hb hleads

/-- What the call is not about stays linked, and a reading that is kept is linked. -/
theorem callReading_linked (hdrawn : Drawn s.1 s.2) {x : BindingDraft F}
    (hx : x ∈ (callReading js drivers s call).2.inputs) :
    ∃ y ∈ s.2.inputs, x.uid = y.uid ∧ x.driver = y.driver ∧
      (∀ channel, (x.uid = call.uid → channel ≠ call.channel) →
        linked y.channels channel = true → linked x.channels channel = true) ∧
      (x.uid = call.uid → call.kept = true → ∀ spec, findDriver drivers x.driver = some spec →
        ∀ ch ∈ spec.channels, ch.key = call.channel → linked x.channels ch.key = true) := by
  rcases callReading_cases js drivers call hdrawn with ⟨hsame, hnone⟩ | hcall
  · rw [hsame] at hx
    refine ⟨x, hx, rfl, rfl, fun _ _ hlinked => hlinked, ?_⟩
    intro huid _ spec hspec ch hch hkey
    exact absurd hkey (hnone x hx huid spec hspec ch hch)
  · obtain ⟨h, b, spec, ch, hh, hb, huid, hspec, -, hkey, hcall⟩ := hcall
    rw [hcall] at hx
    split at hx
    · obtain ⟨y, hy, hyuid, hdriver, hold, hnew⟩ := keep_linked hdrawn hh hb hx
      refine ⟨y, hy, hyuid, hdriver, fun channel _ => hold channel, ?_⟩
      intro hxuid _ spec' _ ch' _ hkey'
      rw [hkey', ← hkey]
      exact hnew (hxuid.trans huid.symm)
    · rename_i hdropped
      obtain ⟨y, hy, hyuid, hdriver, hold⟩ := drop_linked hdrawn hh hb hx
      refine ⟨y, hy, hyuid, hdriver, ?_, fun _ hkept => absurd hkept hdropped⟩
      intro channel hother
      exact hold channel fun heq => hother (heq.trans huid)

end

end IotSaas.Templates
