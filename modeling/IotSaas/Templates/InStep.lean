import IotSaas.Templates.Readings
import Mathlib.Data.List.Induction

/-!
# `Templates/InStep.lean` — rows in step with the parts

One change of the parts list and any number of calls after it. `StaysInStep` is what the editor
promises of them: no row is fed twice, keys stay apart, what was edited or is still fed stays, and
what can publish is linked. `rows_stay_in_step` says which changes and calls keep the promise:
those that never give a channel the row another new part has got, and never propose a key that is
taken, or reserved, in other letters.
-/

set_option autoImplicit false

namespace IotSaas.Templates

open Lib Catalog Editor

variable {F : Type}

/-! ## A change and the calls after it -/

section

variable [DecidableEq F] (js : Wiring.Js) (drivers : List PartSpec)

/-- The draft after some calls. -/
def callReadings (after : Nat × TemplateDraft F) (calls : List ReadingCall) :
    Nat × TemplateDraft F :=
  calls.foldl (callReading js drivers) after

/-- What the last call about a reading was. -/
def lastCall (calls : List ReadingCall) (uid : Nat) (channel : String) : Option Bool :=
  (calls.reverse.find? fun call => call.uid = uid ∧ call.channel = channel).map ReadingCall.kept

/-- **Which readings can publish**: those that were last kept, and where no call was about a
reading, the common ones of a part that came, and those a part that stays had linked. -/
def CanPublish (prev : TemplateDraft F) (calls : List ReadingCall) (b : BindingDraft F)
    (ch : ChannelSpec) : Prop :=
  match lastCall calls b.uid ch.key with
  | some kept => kept = true
  | none =>
      (∀ old ∈ prev.inputs, old.uid = b.uid → old.driver = b.driver →
        linked old.channels ch.key = true) ∧
      ((∀ old ∈ prev.inputs, old.uid = b.uid → old.driver ≠ b.driver) → ch.common = true)

/-- **The rows stay in step with the parts**, through a change and the calls after it. -/
structure StaysInStep (prev : TemplateDraft F) (after : Nat × TemplateDraft F)
    (calls : List ReadingCall) : Prop where
  inStep : ∀ before, before <+: calls → InStep js (callReadings js drivers after before).2
  changed : Drops prev after.2
  called : ∀ before call, before ++ [call] <+: calls →
    Drops (callReadings js drivers after before).2
      (callReadings js drivers after (before ++ [call])).2
  /-- What can publish is linked to a metric, if only over a link that led to one before. -/
  linked : ∀ b ∈ (callReadings js drivers after calls).2.inputs, ∀ spec,
    findDriver drivers b.driver = some spec → ∀ ch ∈ spec.channels, CanPublish prev calls b ch →
    ∃ ref, b.channels.get ch.key = some ref ∧ ref ≠ .unused ∧
      ((∃ row ∈ (callReadings js drivers after calls).2.metrics, ref = .row row.uid) ∨
        Stray prev ref)

end

theorem link_of_linked {channels : Record Ref} {channel : String}
    (h : linked channels channel = true) :
    ∃ ref, channels.get channel = some ref ∧ ref ≠ .unused ∧ ref ∈ linksOf channels := by
  unfold linked at h
  cases hget : channels.get channel with
  | none =>
    rw [hget] at h
    cases h
  | some ref =>
    refine ⟨ref, rfl, ?_, mem_linksOf_of_get hget⟩
    rintro rfl
    rw [hget] at h
    cases h

theorem lastCall_append (calls : List ReadingCall) (call : ReadingCall) (uid : Nat)
    (channel : String) : lastCall (calls ++ [call]) uid channel =
      if call.uid = uid ∧ call.channel = channel then some call.kept
      else lastCall calls uid channel := by
  unfold lastCall
  rw [List.reverse_append, List.reverse_singleton, List.singleton_append, List.find?_cons]
  by_cases hcall : call.uid = uid ∧ call.channel = channel
  · rw [if_pos hcall, decide_eq_true hcall]
    rfl
  · rw [if_neg hcall, decide_eq_false hcall]

theorem callReadings_append [DecidableEq F] (js : Wiring.Js) (drivers : List PartSpec)
    (after : Nat × TemplateDraft F) (calls : List ReadingCall) (call : ReadingCall) :
    callReadings js drivers after (calls ++ [call]) =
      callReading js drivers (callReadings js drivers after calls) call := by
  unfold callReadings
  rw [List.foldl_append]
  rfl

section

variable [DecidableEq F] {js : Wiring.Js} {drivers : List PartSpec} {prev : TemplateDraft F}
  {after : Nat × TemplateDraft F}

/-- In the middle of the calls. -/
def Sound (js : Wiring.Js) (s : Nat × TemplateDraft F) : Prop := InStep js s.2 ∧ Drawn s.1 s.2

/-- **The calls leave the template in step** exactly if each may be made. -/
theorem callReadings_sound_iff (hafter : Sound js after) (calls : List ReadingCall) :
    (∀ before, before <+: calls → Sound js (callReadings js drivers after before)) ↔
      RunMeets (fun s call => some (callReading js drivers s call)) (CallOk js drivers) after
        calls := by
  refine foldl_prefixes_iff (I := Sound js) (fun _ h => h) ?_ ?_ hafter
  · exact fun s call hs hok => callReading_inStep hs.2 hs.1 hok
  · exact fun s call hs hnext => callOk_of_inStep hs.2 hnext.1

theorem callReadings_meets (hafter : Sound js after) {calls : List ReadingCall}
    (hstep : ∀ before, before <+: calls → InStep js (callReadings js drivers after before).2) :
    RunMeets (fun s call => some (callReading js drivers s call)) (CallOk js drivers) after
      calls := by
  refine (foldl_prefixes_iff (I := Sound js) (P := fun s => InStep js s.2) (fun _ h => h.1) ?_ ?_
    hafter).mp hstep
  · exact fun s call hs hok => callReading_inStep hs.2 hs.1 hok
  · exact fun s call hs hnext => callOk_of_inStep hs.2 hnext

theorem callReadings_leads {calls : List ReadingCall}
    (hsound : ∀ before, before <+: calls → Sound js (callReadings js drivers after before))
    {stray : Ref → Prop} (hleads : LinksLead stray after.2) :
    LinksLead stray (callReadings js drivers after calls).2 := by
  induction calls using List.reverseRecOn with
  | nil => exact hleads
  | append_singleton calls call ih =>
    have hbefore := hsound calls (List.prefix_append calls [call])
    rw [callReadings_append]
    refine callReading_leads hbefore.2 hbefore.1 (ih fun before h => ?_)
    exact hsound before (h.trans (List.prefix_append calls [call]))

/-- A reading that can publish has a link: the calls are taken from the end, as the last one about
a reading settles it. -/
theorem linked_of_canPublish {calls : List ReadingCall}
    (hsound : ∀ before, before <+: calls → Sound js (callReadings js drivers after before))
    (hafter : ∀ b ∈ after.2.inputs, ∀ spec, findDriver drivers b.driver = some spec →
      ∀ ch ∈ spec.channels, CanPublish prev [] b ch → linked b.channels ch.key = true)
    {b : BindingDraft F} (hb : b ∈ (callReadings js drivers after calls).2.inputs)
    {spec : PartSpec} (hspec : findDriver drivers b.driver = some spec) {ch : ChannelSpec}
    (hch : ch ∈ spec.channels) (hcan : CanPublish prev calls b ch) :
    linked b.channels ch.key = true := by
  induction calls using List.reverseRecOn generalizing b with
  | nil => exact hafter b hb spec hspec ch hch hcan
  | append_singleton calls call ih =>
    have hbefore := hsound calls (List.prefix_append calls [call])
    rw [callReadings_append] at hb
    obtain ⟨y, hy, huid, hdriver, hold, hnew⟩ := callReading_linked hbefore.2 hb
    unfold CanPublish at hcan
    rw [lastCall_append] at hcan
    by_cases hcall : call.uid = b.uid ∧ call.channel = ch.key
    · rw [if_pos hcall] at hcan
      exact hnew hcall.1.symm hcan spec hspec ch hch hcall.2.symm
    · rw [if_neg hcall] at hcan
      apply hold ch.key
      · exact fun heq hkey => hcall ⟨heq.symm, hkey.symm⟩
      · refine ih (fun before h => hsound before (h.trans (List.prefix_append calls [call]))) hy
          (hdriver ▸ hspec) ?_
        unfold CanPublish
        rw [← huid, ← hdriver]
        exact hcan

end

/-- **Rows stay in step with the parts** exactly if the change may be made, and each of the calls
after it. -/
theorem rows_stay_in_step [DecidableEq F] (js : Wiring.Js) (drivers : List PartSpec) {seq : Nat}
    {prev : TemplateDraft F} (hdrawn : Drawn seq prev) (hdistinct : Distinct js prev)
    {next : Option (HardwareDraft F)} (hchange : PartsChange prev (wiringOf next))
    (calls : List ReadingCall) :
    let after := reconcileParts js seq prev next (some drivers)
    StaysInStep js drivers prev after calls ↔
      ChangeOk js drivers seq prev (wiringOf next) ∧
        RunMeets (fun s call => some (callReading js drivers s call)) (CallOk js drivers) after
          calls := by
  intro after
  have hstep : InStep js after.2 ↔ ChangeOk js drivers seq prev (wiringOf next) :=
    reconcileParts_inStep_iff hdrawn hdistinct hchange
  have hafter : ChangeOk js drivers seq prev (wiringOf next) → Sound js after := fun hok =>
    ⟨hstep.mpr hok, reconcileParts_drawn hdrawn hdistinct hchange hok⟩
  constructor
  · intro hstays
    have hok := hstep.mp (hstays.inStep [] List.nil_prefix)
    exact ⟨hok, callReadings_meets (hafter hok) hstays.inStep⟩
  · rintro ⟨hok, hmeets⟩
    have hsound := (callReadings_sound_iff (hafter hok) calls).mpr hmeets
    refine ⟨fun before h => (hsound before h).1, reconcileParts_drops hdrawn hdistinct hchange,
      ?_, ?_⟩
    · intro before call h
      have hbefore := hsound before ((List.prefix_append before [call]).trans h)
      rw [callReadings_append]
      exact callReading_drops hbefore.2 hbefore.1
    · intro b hb spec hspec ch hch hcan
      have hleads := callReadings_leads hsound
        (reconcileParts_leads hdrawn hdistinct hchange (linksLead_stray prev))
      suffices hlinked : linked b.channels ch.key = true by
        obtain ⟨ref, hget, hused, hmem⟩ := link_of_linked hlinked
        exact ⟨ref, hget, hused, hleads b hb ref hmem hused⟩
      refine linked_of_canPublish hsound ?_ hb hspec hch hcan
      intro b hb spec hspec ch hch hcan
      rw [← (reconcileParts_alike js drivers seq prev next).2.inputs] at hb
      exact reconcile_linked hdrawn hchange hb hspec hch hcan.1 hcan.2

/-! ## Two sensors -/

/-- JavaScript, as far as letters without accents go. -/
def plainLetters : Wiring.Js where
  number := fun _ => .nan
  parseInt := fun _ => .nan
  showNumber := fun _ => ""
  toLowerCase := fun s => String.ofList (s.toList.map Char.toLower)

def dht22 : PartSpec where
  id := "dht22"
  label := "DHT22 / AM2302"
  channels :=
    [{ key := "temperature", label := "Temperature (°C)", dataType := some .float },
      { key := "humidity", label := "Humidity (%)", dataType := some .float }]

/-- `blankBinding`. -/
def sensor (uid : Nat) : BindingDraft Int where
  uid
  driver := "dht22"
  channels := ⟨[("temperature", .unused), ("humidity", .unused)], by decide⟩

theorem sensor_blank (uid : Nat) : Blank (sensor uid) := by
  refine ⟨?_, rfl⟩
  intro ref href
  simpa [linksOf, sensor] using href

/-- A template with metrics of its own, and nothing wired yet. -/
def bench (metrics : List MetricDraft) : TemplateDraft Int where
  name := "Bench"
  enabled := true
  runsOn := .genericFirmware
  metrics
  actuators := []
  hardware := some ⟨[], []⟩

/-- With one sensor. -/
def oneSensor : TemplateDraft Int :=
  (reconcileParts plainLetters 2 (bench []) (some ⟨[sensor 2], []⟩) (some [dht22])).2

/-- A second one comes, and its temperature is dropped and kept again. -/
theorem rows_stay_in_step_second :
    StaysInStep plainLetters [dht22] oneSensor
      (reconcileParts plainLetters 5 oneSensor (some ⟨oneSensor.inputs ++ [sensor 5], []⟩)
        (some [dht22]))
      [⟨5, "temperature", false⟩, ⟨5, "temperature", true⟩] := by
  have hdrawn : Drawn 5 oneSensor := by decide +kernel
  have hstep : InStep plainLetters oneSensor := by decide +kernel
  have hchange : PartsChange oneSensor (wiringOf (some ⟨oneSensor.inputs ++ [sensor 5], []⟩)) := by
    refine ⟨by decide +kernel, ?_, nofun⟩
    intro b hb
    rcases List.mem_append.mp hb with hold | hnew
    · exact .inl hold
    · obtain rfl := List.mem_singleton.mp hnew
      have hown : ∀ old ∈ oneSensor.parts, old.uid ≠ 5 := by decide +kernel
      exact .inr ⟨sensor_blank 5, fun old hold huid => absurd huid (hown old hold)⟩
  refine (rows_stay_in_step plainLetters [dht22] hdrawn hstep.distinct hchange _).mpr ⟨?_, ?_⟩
  · exact (reconcileParts_inStep_iff hdrawn hstep.distinct hchange).mp (by decide +kernel)
  · refine ⟨nofun, fun s hs => ?_⟩
    obtain rfl := Option.some.inj hs
    exact ⟨callOk_of_inStep (by decide +kernel) (by decide +kernel), fun _ _ => trivial⟩

/-- **Two sensors that come at once** fill the same two rows; and one sensor proposes a key that a
metric has in other letters. -/
theorem two_sensors_fill_one_row :
    let two : HardwareDraft Int := ⟨[sensor 2, sensor 3], []⟩
    let after := (reconcileParts plainLetters 3 (bench []) (some two) (some [dht22])).2
    let air : MetricDraft := { blankMetric 1 with name := "Air", key := "Temperature" }
    let one : HardwareDraft Int := ⟨[sensor 2], []⟩
    let after' := (reconcileParts plainLetters 3 (bench [air]) (some one) (some [dht22])).2
    (Drawn 3 (bench []) ∧ InStep plainLetters (bench []) ∧ PartsChange (bench []) two ∧
      fed after.inputs = [4, 5, 4, 5] ∧ ¬ InStep plainLetters after) ∧
    (Drawn 3 (bench [air]) ∧ InStep plainLetters (bench [air]) ∧ PartsChange (bench [air]) one ∧
      after'.metrics.map MetricDraft.key = ["Temperature", "temperature", "humidity"] ∧
      ¬ InStep plainLetters after') := by
  have hchange : ∀ (rows : List MetricDraft) (uids : List Nat), uids.Nodup →
      PartsChange (bench rows) ⟨uids.map sensor, []⟩ := by
    intro rows uids huids
    refine ⟨?_, ?_, nofun⟩
    · unfold HardwareDraft.parts
      rw [List.append_nil, List.map_map]
      exact (List.map_id uids).symm ▸ huids
    · intro b hb
      obtain ⟨uid, -, rfl⟩ := List.mem_map.mp hb
      exact .inr ⟨sensor_blank uid, nofun⟩
  refine ⟨⟨by decide, by decide, hchange [] [2, 3] (by decide), ?_, ?_⟩, by decide,
    by decide +kernel, hchange _ [2] (by decide), ?_, ?_⟩
  all_goals decide +kernel

end IotSaas.Templates
