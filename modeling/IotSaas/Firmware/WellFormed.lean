import IotSaas.Firmware.SketchPins

/-!
# `Firmware/WellFormed.lean` — when a generated sketch compiles to what it says

The backend holds the keys of a template to a pattern and apart from each other, and `buildSketch`
relies on that. It is not enough: a key may begin with a digit, a metric and an actuator may have the
same key and so the same pin, two keys may differ in `-` and `_` or, of a metric and an actuator, in
case alone, a key may be `reset` or that of a topic, the pattern lets a line feed through at the end
of a key, and more rows than a board has pins share GPIO 0. The sketch is well formed exactly where
none of this is so (`wellFormed_iff`).
-/

set_option autoImplicit false

namespace IotSaas.Firmware.Sketch

open Lib Lib.CSource Catalog Editor Wiring

namespace SketchOptions

/-! ## Literals -/

theorem denotes_ofText (text : String) : (Quoted.ofText text).Denotes := by
  have h := readLiteral_escaped text.toList []
  simpa [Quoted.Denotes, Quoted.ofText, cText, readLiteral] using h

theorem isBreak_of_plain {c : Char} (h : isPlain c = true) : isBreak c = false := by
  simp only [isPlain, Bool.not_eq_true', Bool.or_eq_false_iff] at h
  exact h.2

theorem denotes_within {before after : String} (hbefore : ∀ c ∈ before.toList, isPlain c = true)
    (hafter : ∀ c ∈ after.toList, isPlain c = true) (text : String) :
    (Quoted.within before text after).Denotes := by
  have hread : readLiteral after.toList = some after.toList := by
    have h := readLiteral_plain_append hafter []
    simpa [readLiteral] using h
  have hspaced : spaceBreaks (before.toList ++ text.toList ++ after.toList) =
      before.toList ++ spaceBreaks text.toList ++ after.toList := by
    rw [spaceBreaks_append_right fun c hc => isBreak_of_plain (hafter c hc),
      spaceBreaks_append fun c hc => isBreak_of_plain (hbefore c hc)]
  unfold Quoted.Denotes Quoted.within
  dsimp only
  rw [String.toList_append, String.toList_append, String.toList_append, String.toList_append,
    hspaced, cText, String.toList_ofList, List.append_assoc, readLiteral_plain_append hbefore,
    readLiteral_escaped, hread]
  simp

/-- What is printed as it is denotes itself, unless it has a line feed. -/
theorem denotes_raw_iff {text : String} (h : ∀ c ∈ text.toList, isPlain c = true ∨ c = '\n') :
    (Quoted.raw text).Denotes ↔ '\n' ∉ text.toList := by
  unfold Quoted.Denotes Quoted.raw
  dsimp only
  constructor
  · intro hread hfeed
    have hnone : readLiteral text.toList = none := by
      apply readLiteral_break
      · intro c hc heq
        subst heq
        rcases h _ hc with hplain | hbad
        · exact absurd hplain (by decide)
        · exact absurd hbad (by decide)
      · exact ⟨'\n', hfeed, rfl⟩
    rw [hnone] at hread
    cases hread
  · intro hfeed
    have hplain : ∀ c ∈ text.toList, isPlain c = true :=
      fun c hc => (h c hc).resolve_right fun heq => hfeed (heq ▸ hc)
    have hread := readLiteral_plain_append hplain []
    rw [spaceBreaks_of_forall fun c hc => isBreak_of_plain (hplain c hc)]
    simpa [readLiteral] using hread

variable {js : Js} {info : SketchOptions}

theorem isPlain_of_slug {slug : String} (h : IsSlug slug) : ∀ c ∈ slug.toList, isPlain c = true := by
  intro c hc
  apply isPlain_of_keyChar
  simp [isKeyChar, h c hc]

/-- A topic. -/
theorem denotes_topic_iff {folding : CaseFolding} (h : Accepted folding info) {middle id : String}
    (hmiddle : ∀ c ∈ middle.toList, isPlain c = true)
    (hid : ∀ c ∈ id.toList, isKeyChar c = true ∨ c = '\n') :
    (Quoted.raw (info.subtree ++ middle ++ id)).Denotes ↔ '\n' ∉ id.toList := by
  have hstart : ∀ c ∈ (info.subtree ++ middle).toList, isPlain c = true := by
    intro c hc
    simp only [subtree, String.toList_append, List.mem_append] at hc
    rcases hc with ((hc | hc) | hc) | hc
    · exact isPlain_of_slug h.tenantSlug c hc
    · have hslash : ∀ c ∈ "/".toList, isPlain c = true := List.all_eq_true.mp (by decide)
      exact hslash c hc
    · exact isPlain_of_slug h.deviceSlug c hc
    · exact hmiddle c hc
  rw [denotes_raw_iff, String.toList_append, List.mem_append, or_iff_right]
  · intro hfeed
    exact absurd (hstart _ hfeed) (by decide)
  · intro c hc
    rw [String.toList_append, List.mem_append] at hc
    rcases hc with hc | hc
    · exact .inl (hstart c hc)
    · exact (hid c hc).imp_left isPlain_of_keyChar

/-- **Every literal denotes its text** exactly where no key ends in a line feed. -/
theorem literals_iff {folding : CaseFolding} (h : Accepted folding info)
    (provName : String → String) :
    (∀ q ∈ info.literals js provName, q.Denotes) ↔
      ∀ id ∈ info.rowIds js ++ info.actuatorIds js, '\n' ∉ id.toList := by
  have hkeyed : info.KeyedWell js := keyedWell h
  have hactuator : ∀ id ∈ info.actuatorIds js, ∀ c ∈ id.toList, isKeyChar c = true ∨ c = '\n' :=
    fun id hid => (chars_of_pattern (hkeyed.actuators id hid)).2
  have htopic (middle id : String) (hmiddle : ∀ c ∈ middle.toList, isPlain c = true)
      (hid : ∀ c ∈ id.toList, isKeyChar c = true ∨ c = '\n') :=
    denotes_topic_iff h hmiddle hid
  constructor
  · intro hall id hid
    rcases List.mem_append.mp hid with hid | hid
    -- Every row has a topic of its own, and every actuator its command topic.
    · rw [← htopic "/" id (List.all_eq_true.mp (by decide)) (hkeyed.rows id hid)]
      apply hall
      obtain ⟨m, hm, rfl⟩ := List.mem_map.mp hid
      simp only [literals, List.mem_append, List.mem_flatMap]
      exact .inl (.inr ⟨m, hm, by simp⟩)
    · rw [← htopic "/cmd/" id (List.all_eq_true.mp (by decide)) (hactuator id hid)]
      apply hall
      simp only [literals, List.mem_append, List.mem_flatMap]
      exact .inl (.inl (.inl (.inr ⟨id, hid, by simp⟩)))
  · intro hfeed q hq
    have hraw {middle id : String} (hmiddle : ∀ c ∈ middle.toList, isPlain c = true)
        (hid : id ∈ info.rowIds js ++ info.actuatorIds js) :
        (Quoted.raw (info.subtree ++ middle ++ id)).Denotes := by
      rw [htopic middle id hmiddle]
      · exact hfeed id hid
      · rcases List.mem_append.mp hid with hid | hid
        · exact hkeyed.rows id hid
        · exact hactuator id hid
    -- A topic without a key in it: the same with the empty key.
    have hfixed {middle : String} (hmiddle : ∀ c ∈ middle.toList, isPlain c = true) :
        (Quoted.raw (info.subtree ++ middle)).Denotes := by
      have hempty := (htopic middle "" hmiddle (by simp)).mpr (by simp)
      rwa [String.append_empty] at hempty
    simp only [literals, List.mem_append, List.mem_flatMap] at hq
    rcases hq with (((hq | ⟨id, hid, hq⟩) | hq) | ⟨m, hm, hq⟩) | ⟨a, ha, hq⟩
    · simp only [List.mem_cons, List.not_mem_nil, or_false] at hq
      rcases hq with rfl | rfl | rfl | rfl | rfl
      · exact denotes_ofText _
      · exact denotes_ofText _
      · exact denotes_ofText _
      · exact hfixed (List.all_eq_true.mp (by decide))
      · exact hfixed (List.all_eq_true.mp (by decide))
    · have hid' := List.mem_append_right (info.rowIds js) hid
      simp only [List.mem_cons, List.not_mem_nil, or_false] at hq
      rcases hq with rfl | rfl | rfl
      · exact hraw (List.all_eq_true.mp (by decide)) hid'
      · exact hraw (List.all_eq_true.mp (by decide)) hid'
      · exact hraw (List.all_eq_true.mp (by decide)) hid'
    · cases hwifi : info.wifi with
      | none =>
        rw [hwifi, List.mem_singleton] at hq
        exact hq ▸ denotes_ofText _
      | some wifi =>
        rw [hwifi] at hq
        simp only [List.mem_cons, List.not_mem_nil, or_false] at hq
        rcases hq with rfl | rfl
        · exact denotes_ofText _
        · exact denotes_ofText _
    · have hid : wireId js m.name m.key ∈ info.rowIds js ++ info.actuatorIds js :=
        List.mem_append_left _ (List.mem_map_of_mem hm)
      simp only [List.mem_cons, List.not_mem_nil, or_false] at hq
      rcases hq with rfl | rfl
      · exact denotes_ofText _
      · exact hraw (List.all_eq_true.mp (by decide)) hid
    · simp only [List.mem_cons, List.not_mem_nil, or_false] at hq
      rcases hq with rfl | rfl
      · exact denotes_within (List.all_eq_true.mp (by decide)) (List.all_eq_true.mp (by decide)) _
      · exact denotes_within (List.all_eq_true.mp (by decide)) (List.all_eq_true.mp (by decide)) _

end SketchOptions

open SketchOptions

/-! ## The condition -/

/-- What a template has to keep to, beyond what the backend makes sure of. -/
structure Clear (js : Js) (info : SketchOptions) : Prop where
  /-- No key ends in a line feed, nor has one elsewhere. -/
  noFeed : ∀ id ∈ info.rowIds js ++ info.actuatorIds js, '\n' ∉ id.toList
  /-- No key that has a pin begins with a digit. -/
  noDigit : ∀ id ∈ info.inputIds js ++ info.outputIds js, ∀ c ∈ id.toList.head?, c.isDigit = false
  /-- Keys that have a pin are apart up to case, and with `-` read as `_`. -/
  pinsApart : ((info.inputIds js ++ info.outputIds js).map
    fun id => toUpperCase (underscored id)).Nodup
  /-- Where the sketch has a reset button, none of them is `reset`. -/
  noReset : info.phone = true → ∀ id ∈ info.inputIds js ++ info.outputIds js,
    toUpperCase (underscored id) ≠ "RESET"
  /-- Keys of actuators are apart with `-` read as `_`. -/
  actuatorsApart : ((info.actuatorIds js).map underscored).Nodup
  /-- No key that has a pin is like `topic_cmd_valve` beside an actuator `VALVE_PIN`. -/
  topicsApart : ∀ id ∈ info.inputIds js ++ info.outputIds js, ∀ id' ∈ info.actuatorIds js,
    ∀ start ∈ ["TOPIC_CMD_", "TOPIC_STATE_", "TOPIC_ACK_"],
      toUpperCase (underscored id) ++ "_PIN" ≠ start ++ underscored id'
  enoughPins : info.EnoughPins js

/-- **A sketch is well formed exactly where its template is clear**: of every template the backend
accepts, on every board, with every option. -/
theorem wellFormed_iff {js : Js} (provName : String → String) {folding : CaseFolding}
    {info : SketchOptions} (h : Accepted folding info) :
    WellFormed js provName info ↔ Clear js info := by
  have hkeyed : info.KeyedWell js := keyedWell h
  have hactuator : ∀ id ∈ info.actuatorIds js, ∀ c ∈ id.toList, isKeyChar c = true ∨ c = '\n' :=
    fun id hid => (chars_of_pattern (hkeyed.actuators id hid)).2
  have hinput : ∀ id ∈ info.inputIds js, ∀ c ∈ id.toList, isKeyChar c = true ∨ c = '\n' :=
    fun id hid => (chars_of_pattern (hkeyed.inputs id hid)).2
  have hinputRow : ∀ id ∈ info.inputIds js, id ∈ info.rowIds js := fun id hid =>
    (List.filter_sublist.map fun m : TemplateMetric => wireId js m.name m.key).subset hid
  -- Without line feeds an identifier is the key with `-` read as `_`.
  have hactuators (hfeed : ∀ id ∈ info.rowIds js ++ info.actuatorIds js, '\n' ∉ id.toList) :
      ∀ id ∈ info.actuatorIds js, toIdentifier id = underscored id := fun id hid =>
    toIdentifier_key (hactuator id hid) (hfeed id (List.mem_append_right _ hid))
  have hpinned (hfeed : ∀ id ∈ info.rowIds js ++ info.actuatorIds js, '\n' ∉ id.toList) :
      ∀ id ∈ info.inputIds js ++ info.outputIds js, toIdentifier id = underscored id := by
    intro id hid
    rcases List.mem_append.mp hid with hid | hid
    · exact toIdentifier_key (hinput id hid)
        (hfeed id (List.mem_append_left _ (hinputRow id hid)))
    · exact hactuators hfeed id (outputIds_sublist.subset hid)
  have hpins (hfeed : ∀ id ∈ info.rowIds js ++ info.actuatorIds js, '\n' ∉ id.toList) :
      ((info.inputIds js ++ info.outputIds js).map fun id => toUpperCase (toIdentifier id))
        = (info.inputIds js ++ info.outputIds js).map fun id => toUpperCase (underscored id) :=
    List.map_congr_left fun id hid => by rw [hpinned hfeed id hid]
  constructor
  · intro hwell
    have hfeed := (literals_iff h provName).mp hwell.literals
    obtain ⟨hnodup, hreset, hapart, htopics⟩ := (declared_nodup_iff js info).mp hwell.distinct
    constructor
    · exact hfeed
    · exact (declared_identifiers_iff hkeyed).mp hwell.identifiers
    · rwa [← hpins hfeed]
    · intro hphone id hid
      rw [← hpinned hfeed id hid]
      exact hreset hphone id hid
    · rwa [← List.map_congr_left (hactuators hfeed)]
    · intro id hid id' hid' start hstart heq
      rw [← hpinned hfeed id hid, ← hactuators hfeed id' hid'] at heq
      exact htopics id hid id' hid' (mem_topicConsts.mpr ⟨start, hstart, heq⟩)
    · exact (defaultPins_injective_iff hkeyed).mp hwell.pins
  · intro hclear
    have hfeed := hclear.noFeed
    constructor
    · exact (declared_identifiers_iff hkeyed).mpr hclear.noDigit
    · rw [declared_nodup_iff]
      refine ⟨?_, ?_, ?_, ?_⟩
      · rw [hpins hfeed]
        exact hclear.pinsApart
      · intro hphone id hid
        rw [hpinned hfeed id hid]
        exact hclear.noReset hphone id hid
      · rw [List.map_congr_left (hactuators hfeed)]
        exact hclear.actuatorsApart
      · intro id hid id' hid' hmem
        obtain ⟨start, hstart, heq⟩ := mem_topicConsts.mp hmem
        rw [pinConst, hpinned hfeed id hid, hactuators hfeed id' hid'] at heq
        exact hclear.topicsApart id hid id' hid' start hstart heq
    · exact (literals_iff h provName).mpr hfeed
    · exact (defaultPins_injective_iff hkeyed).mpr hclear.enoughPins

/-- A sensor and a lock on one door. -/
def doorSketch (actuatorKey : String) : SketchOptions :=
  { tenantSlug := "acme"
    deviceSlug := "door-1"
    metrics := [{ name := "Door", key := some "door", dataType := "bool" }]
    actuators := [{ name := "Door", key := some actuatorKey, valueType := "bool" }]
    deviceName := "Door 1"
    host := "mqtt.example.com"
    tls := false
    credential := none }

theorem doorSketch_slugs (actuatorKey : String) : IsSlug (doorSketch actuatorKey).tenantSlug ∧
    IsSlug (doorSketch actuatorKey).deviceSlug := by
  simp only [IsSlug, doorSketch]
  exact ⟨List.all_eq_true.mp (by decide), List.all_eq_true.mp (by decide)⟩

theorem wellFormed_iff_apart :
    WellFormed lowerJs id (doorSketch "door-lock") ↔ Clear lowerJs (doorSketch "door-lock") :=
  wellFormed_iff id
    (show Accepted lowerCased (doorSketch "door-lock") from
      { metrics := ⟨[{ name := "Door", key := some "door" }], rfl⟩
        actuators := ⟨[{ name := "Door", key := some "door-lock" }], rfl⟩
        tenantSlug := (doorSketch_slugs _).1
        deviceSlug := (doorSketch_slugs _).2 })

/-- Both named `door`, they have one `DOOR_PIN` between them. -/
theorem door_declared_twice :
    Accepted lowerCased (doorSketch "door") ∧ ¬ WellFormed lowerJs id (doorSketch "door") := by
  constructor
  · constructor
    · exact ⟨[{ name := "Door", key := some "door" }], rfl⟩
    · exact ⟨[{ name := "Door", key := some "door" }], rfl⟩
    · exact (doorSketch_slugs _).1
    · exact (doorSketch_slugs _).2
  · intro hwell
    obtain ⟨hpins, -⟩ := (declared_nodup_iff lowerJs (doorSketch "door")).mp hwell.distinct
    exact absurd hpins (by decide)

end IotSaas.Firmware.Sketch
