import IotSaas.Editor.Text
import IotSaas.Lib.Decimal
import IotSaas.Templates.Draft

/-!
# `Templates/RoundTrip.lean` — a template opened and saved

Numbers survive their texts, and a scalar that is not blank is sent as it was saved. What does not
survive is what the texts cannot say: spaces around a name or a key, a value of a type the editor
has no field for, and, in a list of allowed values, a comma that is not followed by one space, which
cuts one value into two. `template_trip_iff` names them all: off them nothing changes.
-/

set_option autoImplicit false

namespace IotSaas.Templates

open Lib Catalog Editor

variable {F : Type}

/-! ## What is to come back -/

/-- The documented normalisation: an on/off reading has no unit and runs from 0 to 1, and either the
interval or the deadband is meant. -/
def CatalogMetric.normalized [OfNat F 0] [OfNat F 1] (m : CatalogMetric F) : CatalogMetric F :=
  { m with
    unit := if m.dataType = .bool then none else m.unit
    decimals := if m.dataType = .bool then some 0 else m.decimals
    min := if m.dataType = .bool then some 0 else m.min
    max := if m.dataType = .bool then some 1 else m.max
    publishIntervalSeconds := if m.publish = .onChange then none else m.publishIntervalSeconds
    publishDeadband := if m.publish = .onChange then m.publishDeadband else none }

/-- A metric as it is sent. -/
def CatalogMetric.sent (m : CatalogMetric F) : CatalogMetric (JsNumber F) :=
  { m with
    decimals := m.decimals.map .finite
    min := m.min.map .finite
    max := m.max.map .finite
    publishIntervalSeconds := m.publishIntervalSeconds.map .finite
    publishDeadband := m.publishDeadband.map .finite }

/-- The request has the rows of the entry. -/
structure KeepsRows [OfNat F 0] [OfNat F 1] (e : CatalogEntry F) (r : TemplateRequest F) :
    Prop where
  metrics : r.metrics = e.metrics.map fun m => m.normalized.sent
  actuators : r.actuators = e.actuators

/-! ## When it does -/

/-- Neither the name nor the key has spaces around it, and the key is not empty. -/
structure Trims (name : String) (key : Option String) : Prop where
  name : jsTrim name = name
  key : ∀ k, key = some k → k ≠ "" ∧ jsTrim k = k

/-- Every comma is followed by one space, and no other space stands around what is between. -/
def WellSpaced (s : String) : Prop := isTidy isJsSpace ' ' (s.toList.splitOn ',') = true

/-- The command of an on/off actuator, and not a blank text. -/
def Commands (valueType : ActuatorValueType) (v : Option (Scalar F)) : Prop :=
  v = none ∨ valueType = .bool ∧ ∀ s, v = some (.string s) → jsTrim s ≠ ""

/-- The values of an actuator of texts, each of them well spaced. -/
def Allows (valueType : ActuatorValueType) (allowed : Option (List (Scalar F))) : Prop :=
  allowed = none ∨ valueType = .string ∧
    ∃ values, allowed = some values ∧ values ≠ [] ∧ ∀ s, .string s ∈ values → WellSpaced s

/-- An entry with nothing in it that the editor's texts cannot say. -/
structure Sayable (e : CatalogEntry F) : Prop where
  metrics : ∀ m ∈ e.metrics, Trims m.name m.key
  actuators : ∀ a ∈ e.actuators, Trims a.name a.key ∧ Commands a.valueType a.onValue ∧
    Commands a.valueType a.offValue ∧ Allows a.valueType a.allowedValues

/-! ## Texts -/

theorem orNull_iff {key : Option String} :
    orNull (key.getD "") = key ↔ ∀ k, key = some k → k ≠ "" ∧ jsTrim k = k := by
  unfold orNull
  cases key with
  | none => simp [jsTrim_empty]
  | some k =>
    simp only [Option.getD_some, Option.some.injEq, forall_eq']
    by_cases hblank : jsTrim k = ""
    · rw [if_pos hblank]
      constructor
      · intro h
        cases h
      · rintro ⟨hne, htrim⟩
        exact absurd (htrim.symm.trans hblank) hne
    · rw [if_neg hblank, Option.some.injEq]
      exact ⟨fun h => ⟨ne_empty_of_jsTrim hblank, h⟩, fun h => h.2⟩

theorem allowedText_eq (s : String) :
    allowedText s = (retyped isJsSpace ',' s.toList).map String.ofList := by
  have htrim : (fun piece => jsTrim (String.ofList piece)) = String.ofList ∘ trim isJsSpace := by
    funext piece
    rw [jsTrim, String.toList_ofList]
    rfl
  unfold allowedText retyped
  rw [htrim, ← List.map_map, List.filter_map]
  congr 1
  refine List.filter_congr fun piece _ => ?_
  cases piece <;> simp

/-- A text is what its pieces make again exactly if it is well spaced. -/
theorem allowedText_iff {s : String} :
    allowedText s ≠ [] ∧ ", ".intercalate (allowedText s) = s ↔ WellSpaced s := by
  unfold WellSpaced
  rw [← retyped_iff rfl (by decide), allowedText_eq, ← String.toList_inj, String.toList_intercalate]
  simp [List.map_map, Function.comp_def]

theorem wellSpaced_joined {texts : List String} (hne : texts ≠ []) :
    WellSpaced (", ".intercalate texts) ↔ ∀ text ∈ texts, WellSpaced text := by
  unfold WellSpaced
  rw [String.toList_intercalate]
  show isTidy _ _ (([',', ' '].intercalate _).splitOn ',') = true ↔ _
  rw [isTidy_joined (by decide) (by simpa using hne)]
  simp

/-! ## Values -/

section

variable {js : Editor.Js F}

/-- JavaScript reads a number it printed, and prints no comma and no space. -/
structure NumberTrips (js : Editor.Js F) (x : F) : Prop where
  parsed : js.parseNumber (js.showNumber x) = .finite x
  shown : js.showNumber x ≠ ""
  plain : ∀ c ∈ (js.showNumber x).toList, c ≠ ',' ∧ isJsSpace c = false

theorem wellSpaced_of_plain {s : String} (hne : s ≠ "")
    (h : ∀ c ∈ s.toList, c ≠ ',' ∧ isJsSpace c = false) : WellSpaced s :=
  isTidy_of_plain (fun hnil => hne (String.toList_inj.mp hnil)) h

theorem jsTrim_of_plain {s : String} (h : ∀ c ∈ s.toList, c ≠ ',' ∧ isJsSpace c = false) :
    jsTrim s = s := by
  rw [jsTrim, trim_of_forall fun c hc => (h c hc).2, String.ofList_toList]

/-- The saved values are sent if the text still says them, and never else: pieces that are the values
make the text again. -/
theorem allowedOf_some {text : String} {values : List (Scalar F)}
    (htext : ", ".intercalate (values.map (Scalar.text js)) = text) :
    allowedOf js text (some values) = some values ↔ WellSpaced text := by
  rw [← allowedText_iff]
  by_cases hnil : allowedText text = []
  · simp [allowedOf, hnil]
  · by_cases hjoin : ", ".intercalate (allowedText text) = text
    · have hkeep : ", ".intercalate (values.map (Scalar.text js)) =
          ", ".intercalate (allowedText text) := htext.trans hjoin.symm
      rw [allowedOf, if_neg hnil, if_pos hkeep]
      simp [hnil, hjoin]
    · have hlose : ", ".intercalate (values.map (Scalar.text js)) ≠
          ", ".intercalate (allowedText text) := fun h => hjoin (h.symm.trans htext)
      rw [allowedOf, if_neg hnil, if_neg hlose, Option.some.injEq]
      constructor
      · intro hvalues
        refine absurd ?_ hlose
        rw [← hvalues, List.map_map]
        simp [Function.comp_def, Scalar.text]
      · rintro ⟨-, h⟩
        exact absurd h hjoin

theorem onlyFor_iff {valueType wanted : ActuatorValueType} {A : Type} {v sent : Option A}
    {P : Prop} (h : sent = v ↔ v = none ∨ P) :
    (if valueType = wanted then sent else none) = v ↔ v = none ∨ valueType = wanted ∧ P := by
  by_cases htype : valueType = wanted
  · rw [if_pos htype, h]
    simp [htype]
  · rw [if_neg htype]
    simp [htype, eq_comm]

theorem map_numbered_iff {A B C : Type} {row : Nat → A → B} {f : B → C} {g : A → C} {P : A → Prop}
    (h : ∀ uid a, f (row uid a) = g a ↔ P a) (seq : Nat) (list : List A) :
    (numbered row seq list).map f = list.map g ↔ ∀ a ∈ list, P a := by
  induction list generalizing seq with
  | nil => simp [numbered]
  | cons a rest ih => simp [numbered, h, ih]

variable (hjs : ∀ x, NumberTrips js x)

include hjs

/-- Of a scalar's text only a string can be other than plain. -/
theorem text_plain {v : Scalar F} (hstring : ∀ s, v ≠ .string s) :
    v.text js ≠ "" ∧ ∀ c ∈ (v.text js).toList, c ≠ ',' ∧ isJsSpace c = false := by
  cases v with
  | bool b =>
    cases b with
    | false => simp [Scalar.text, isJsSpace]
    | true => simp [Scalar.text, isJsSpace]
  | number x => exact ⟨(hjs x).shown, (hjs x).plain⟩
  | string s => exact absurd rfl (hstring s)

theorem num_numberText (x : Option F) : num js (numberText js x) = x.map .finite := by
  cases x with
  | none => exact if_pos jsTrim_empty
  | some x =>
    have htext : numberText js (some x) = js.showNumber x := rfl
    have hne := (hjs x).shown
    rw [num, htext, jsTrim_of_plain (hjs x).plain, if_neg hne, (hjs x).parsed]
    rfl

theorem scalar_iff {v : Option (Scalar F)} :
    scalar js (scalarText js v) v = v ↔ ∀ s, v = some (.string s) → jsTrim s ≠ "" := by
  cases v with
  | none => simp [scalar, scalarText, jsTrim_empty]
  | some v =>
    have htext : scalarText js (some v) = v.text js := rfl
    have hscalar : scalar js (v.text js) (some v) = some v ↔ jsTrim (v.text js) ≠ "" := by
      unfold scalar
      split <;> simp_all
    rw [htext, hscalar]
    constructor
    · rintro h s hs
      cases hs
      exact h
    · intro h
      by_cases hstring : ∃ s, v = .string s
      · obtain ⟨s, rfl⟩ := hstring
        exact h s rfl
      · obtain ⟨hne, hplain⟩ := text_plain hjs fun s hs => hstring ⟨s, hs⟩
        rwa [jsTrim_of_plain hplain]

theorem wellSpaced_texts {values : List (Scalar F)} :
    (∀ text ∈ values.map (Scalar.text js), WellSpaced text) ↔
      ∀ s, .string s ∈ values → WellSpaced s := by
  constructor
  · intro h s hs
    exact h s (List.mem_map.mpr ⟨_, hs, rfl⟩)
  · intro h text htext
    obtain ⟨v, hv, rfl⟩ := List.mem_map.mp htext
    by_cases hstring : ∃ s, v = .string s
    · obtain ⟨s, rfl⟩ := hstring
      exact h s hv
    · obtain ⟨hne, hplain⟩ := text_plain hjs fun s hs => hstring ⟨s, hs⟩
      exact wellSpaced_of_plain hne hplain

/-- **A list of allowed values comes back** exactly if its texts are well spaced. -/
theorem allowedOf_iff {saved : Option (List (Scalar F))} :
    allowedOf js (", ".intercalate ((saved.getD []).map (Scalar.text js))) saved = saved ↔
      saved = none ∨ ∃ values, saved = some values ∧ values ≠ [] ∧
        ∀ s, .string s ∈ values → WellSpaced s := by
  cases saved with
  | none => simp [allowedOf, allowedText_eq, retyped, trim]
  | some values =>
    have hsame : allowedOf js (", ".intercalate (values.map (Scalar.text js))) (some values) =
        some values ↔ _ := allowedOf_some rfl
    rw [Option.getD_some, hsame]
    by_cases hne : values = []
    · subst hne
      simp [WellSpaced, isTidy, isTrimmed]
    · rw [wellSpaced_joined (by simpa using hne), wellSpaced_texts hjs]
      simp [hne]

/-! ## Rows -/

variable [OfNat F 0] [OfNat F 1]

theorem metric_iff (duplicate : Bool) (uid : Nat) (m : CatalogMetric F) :
    (metricRow js duplicate uid m).toMetric js = m.normalized.sent ↔ Trims m.name m.key := by
  obtain ⟨name, key, unit, dataType, decimals, min, max, publish, interval, deadband⟩ := m
  unfold metricRow MetricDraft.toMetric CatalogMetric.sent CatalogMetric.normalized
  -- the numbers are those of the metric, so that name and key are left
  simp only [num_numberText hjs, apply_ite (Option.map _), Option.map_some, Option.map_none,
    CatalogMetric.mk.injEq, and_true]
  rw [orNull_iff]
  constructor
  · rintro ⟨hname, hkey⟩
    exact ⟨hname, hkey⟩
  · intro h
    exact ⟨h.name, h.key⟩

omit [OfNat F 0] [OfNat F 1] in
theorem command_iff {valueType : ActuatorValueType} {v : Option (Scalar F)} :
    (if valueType = .bool then scalar js (scalarText js v) v else none) = v ↔
      Commands valueType v := by
  refine onlyFor_iff ((scalar_iff hjs).trans ?_)
  cases v with
  | none => simp
  | some v => simp

omit [OfNat F 0] [OfNat F 1] in
theorem actuator_iff (duplicate : Bool) (uid : Nat) (a : CatalogActuator F) :
    (actuatorRow js duplicate uid a).toActuator js = a ↔
      Trims a.name a.key ∧ Commands a.valueType a.onValue ∧ Commands a.valueType a.offValue ∧
        Allows a.valueType a.allowedValues := by
  have hallowed : (if a.valueType = .string then
      allowedOf js (", ".intercalate ((a.allowedValues.getD []).map (Scalar.text js)))
        a.allowedValues else none) = a.allowedValues ↔ Allows a.valueType a.allowedValues :=
    onlyFor_iff (allowedOf_iff hjs)
  obtain ⟨name, key, valueType, allowed, onValue, offValue⟩ := a
  unfold actuatorRow ActuatorDraft.toActuator
  simp only [CatalogActuator.mk.injEq, true_and]
  rw [orNull_iff, hallowed, command_iff hjs, command_iff hjs]
  constructor
  · rintro ⟨hname, hkey, hlist, hon, hoff⟩
    exact ⟨⟨hname, hkey⟩, hon, hoff, hlist⟩
  · rintro ⟨htrims, hon, hoff, hlist⟩
    exact ⟨htrims.name, htrims.key, hlist, hon, hoff⟩

/-! ## The round trip -/

/-- **Opening and saving a template keeps its rows exactly if the editor's texts can say them.** -/
theorem template_trip_iff (seq : Nat) (duplicate : Bool) (e : CatalogEntry F) :
    KeepsRows e (draftToRequest js (templateRows js seq e duplicate)) ↔ Sayable e := by
  have hmetrics : (draftToRequest js (templateRows js seq e duplicate)).metrics =
      e.metrics.map (fun m => m.normalized.sent) ↔ ∀ m ∈ e.metrics, Trims m.name m.key :=
    map_numbered_iff (metric_iff hjs duplicate) seq e.metrics
  have hactuators : (draftToRequest js (templateRows js seq e duplicate)).actuators =
      e.actuators.map id ↔ _ :=
    map_numbered_iff (actuator_iff hjs duplicate) (seq + e.metrics.length) e.actuators
  rw [List.map_id] at hactuators
  constructor
  · intro h
    exact ⟨hmetrics.mp h.metrics, hactuators.mp h.actuators⟩
  · intro h
    exact ⟨hmetrics.mpr h.metrics, hactuators.mpr h.actuators⟩

end

/-! ## A climate node -/

/-- JavaScript's conversions, on whole numbers. -/
def wholeNumbers : Editor.Js Nat where
  parseNumber text :=
    match readDecimal text.toList with
    | some n => .finite n
    | none => .nan
  showNumber := Nat.repr
  parseJson _ := none
  stringify _ := ""

theorem wholeNumbers_trip (n : Nat) : NumberTrips wholeNumbers n := by
  refine ⟨?_, fun hnil => repr_ne_nil n ?_, fun c hc => ?_⟩
  · show (match readDecimal n.repr.toList with
      | some n => JsNumber.finite n
      | none => .nan) = _
    rw [readDecimal_repr]
  · exact congrArg String.toList hnil
  · have hdigit := isDigit_of_mem_repr (n := n) hc
    have hbounds := digit_bounds hdigit
    refine ⟨?_, ?_⟩
    · rintro rfl
      exact absurd hdigit (by decide)
    · simp only [isJsSpace, Bool.or_eq_false_iff, Bool.and_eq_false_iff, decide_eq_false_iff_not]
      omega

/-- A thermometer, a fan that is switched by numbers, and a valve. -/
def climateNode (positions : List (Scalar Nat)) : CatalogEntry Nat :=
  { name := "Climate"
    active := true
    runsOn := .ownCode
    metrics := [{ name := "Temperature", key := some "temperature", unit := some "°C",
                  decimals := some 1, min := some 0, max := some 80,
                  publishIntervalSeconds := some 30 }]
    actuators := [{ name := "Fan", key := some "fan1", onValue := some (.number 1),
                    offValue := some (.number 0) },
                  { name := "Valve", key := some "valve", valueType := .string,
                    allowedValues := some positions }] }

theorem template_trip_climate : KeepsRows (climateNode [.string "open", .number 50, .string "shut"])
    (draftToRequest wholeNumbers (templateRows wholeNumbers 0
      (climateNode [.string "open", .number 50, .string "shut"]) false)) := by
  refine (template_trip_iff wholeNumbers_trip 0 false _).mpr ⟨?_, ?_⟩
  · intro m hm
    cases List.mem_singleton.mp hm
    exact ⟨by decide, by simp; decide⟩
  · intro a ha
    rcases List.mem_pair.mp ha with rfl | rfl
    · exact ⟨⟨by decide, by simp; decide⟩, .inr (by simp), .inr (by simp), .inl rfl⟩
    · refine ⟨⟨by decide, by simp; decide⟩, .inl rfl, .inl rfl, .inr ⟨rfl, _, rfl, by simp, ?_⟩⟩
      intro s hs
      rcases List.mem_cons.mp hs with hs | hs
      · cases hs
        rfl
      · rcases List.mem_pair.mp hs with hs | hs
        · cases hs
        · cases hs
          rfl

/-- One position of the valve comes back as two. -/
theorem position_cut_in_two : ¬ KeepsRows (climateNode [.string "open,slow", .string "shut"])
    (draftToRequest wholeNumbers (templateRows wholeNumbers 0
      (climateNode [.string "open,slow", .string "shut"]) false)) := by
  intro h
  have hvalves := congrArg (fun actuators => actuators.map CatalogActuator.allowedValues) h.actuators
  revert hvalves
  decide

end IotSaas.Templates
