import IotSaas.Firmware.SketchText

/-!
# `Firmware/SketchNames.lean` — the names a sketch declares

`toIdentifier` makes one character of `-`, `_` and all that is no letter and no digit, and a pin's
constant is in upper case besides, for inputs and outputs alike. So two keys the backend holds apart
may come out as one name. `declared_nodup_iff` says when none do, and `declared_identifiers_iff` when
all names are identifiers, which only a leading digit can prevent.
-/

set_option autoImplicit false

namespace IotSaas.Firmware.Sketch

open Lib Lib.CSource Catalog Editor Wiring

/-! ## Characters -/

/-- An identifier of word characters only. -/
theorem isWordChar_of_toIdentifier {name : String} {c : Char} (h : c ∈ (toIdentifier name).toList) :
    isWordChar c = true := by
  rw [toIdentifier, String.toList_ofList, List.mem_flatMap] at h
  obtain ⟨d, -, hc⟩ := h
  split at hc
  · rw [List.mem_singleton] at hc
    rwa [hc]
  · have hunderscore : c = '_' := by
      split at hc <;> simpa using hc
    subst hunderscore
    rfl

theorem mem_toUpperCase {id : String} {c : Char} (h : c ∈ (toUpperCase id).toList) :
    ∃ d ∈ id.toList, c = d.toUpper := by
  rw [toUpperCase, String.toList_ofList, List.mem_map] at h
  obtain ⟨d, hd, rfl⟩ := h
  exact ⟨d, hd, rfl⟩

/-! ## Words -/

namespace SketchOptions

/-- The beginnings of the names an actuator has. -/
def starts : List String :=
  ["TOPIC_CMD_", "TOPIC_STATE_", "TOPIC_ACK_", "setActuator_", "handleCommand_", "handleState_"]

/-- No such beginning begins another. -/
theorem starts_free : ∀ a ∈ starts, ∀ b ∈ starts, a.toList <+: b.toList → a = b := by decide

/-- What begins alike goes on alike. -/
theorem start_inj {a b x y : String} (ha : a ∈ starts) (hb : b ∈ starts)
    (h : a ++ x = b ++ y) : a = b ∧ x = y := by
  have hlists : a.toList ++ x.toList = b.toList ++ y.toList := by
    rw [← String.toList_append, ← String.toList_append, h]
  have hprefix := List.prefix_or_prefix_of_prefix
    (List.prefix_append a.toList x.toList) (hlists ▸ List.prefix_append b.toList y.toList)
  have hab : a = b := by
    rcases hprefix with hp | hp
    · exact starts_free a ha b hb hp
    · exact (starts_free b hb a ha hp).symm
  subst hab
  exact ⟨rfl, (String.append_right_inj a).mp h⟩

theorem mem_topicConsts {id name : String} : name ∈ topicConsts id ↔
    ∃ start ∈ ["TOPIC_CMD_", "TOPIC_STATE_", "TOPIC_ACK_"], name = start ++ toIdentifier id := by
  simp only [topicConsts, List.mem_map, eq_comm]

theorem mem_handlers {id name : String} : name ∈ handlers id ↔
    ∃ start ∈ ["setActuator_", "handleCommand_", "handleState_"],
      name = start ++ toIdentifier id := by
  simp only [handlers, List.mem_map, eq_comm]

/-- Names of one kind are apart where the identifiers are. -/
theorem nodup_started (some : List String) (hsome : some ⊆ starts) (hnodup : some.Nodup)
    (hne : some ≠ []) (ids : List String) :
    (ids.flatMap fun id => some.map fun start => start ++ toIdentifier id).Nodup ↔
      (ids.map toIdentifier).Nodup := by
  have heach : ∀ id ∈ ids, (some.map fun start => start ++ toIdentifier id).Nodup := by
    intro id _
    apply hnodup.map
    intro a b hab
    exact (String.append_left_inj (toIdentifier id)).mp hab
  have hpair (id id' : String) : Function.onFun List.Disjoint
      (fun id => some.map fun start => start ++ toIdentifier id) id id' ↔
      toIdentifier id ≠ toIdentifier id' := by
    constructor
    · intro hdisjoint heq
      obtain ⟨start, hstart⟩ := List.exists_mem_of_ne_nil some hne
      exact hdisjoint (List.mem_map_of_mem hstart)
        (List.mem_map.mpr ⟨start, hstart, by rw [heq]⟩)
    · intro hne name hname hname'
      obtain ⟨a, ha, rfl⟩ := List.mem_map.mp hname
      obtain ⟨b, hb, hab⟩ := List.mem_map.mp hname'
      exact hne (start_inj (hsome hb) (hsome ha) hab).2.symm
  rw [List.nodup_flatMap, and_iff_right heach]
  unfold List.Nodup
  rw [List.pairwise_map]
  constructor
  · exact fun h => h.imp fun h => (hpair _ _).mp h
  · exact fun h => h.imp fun h => (hpair _ _).mpr h

/-! ## The sketch's own names -/

/-- All of them, whether printed or not. -/
def allOwn : List String := ownParts.flatMap Prod.snd

theorem allOwn_nodup : allOwn.Nodup := by decide +kernel

theorem allOwn_named : ∀ name ∈ allOwn, isIdentifier name = true ∧
    (∀ start ∈ starts, ¬start.toList <+: name.toList) ∧
    ("_PIN".toList <:+ name.toList → name = "RESET_PIN") := by
  decide +kernel

theorem allOwn_identifiers : ∀ name ∈ allOwn, isIdentifier name = true :=
  fun name h => (allOwn_named name h).1

theorem allOwn_apart : ∀ name ∈ allOwn, ∀ start ∈ starts, ¬start.toList <+: name.toList :=
  fun name h => (allOwn_named name h).2.1

theorem allOwn_pin : ∀ name ∈ allOwn, "_PIN".toList <:+ name.toList → name = "RESET_PIN" :=
  fun name h => (allOwn_named name h).2.2

variable (js : Js) (info : SketchOptions)

theorem ownNames_sublist : info.ownNames.Sublist allOwn := by
  unfold ownNames allOwn
  generalize ownParts = parts
  induction parts with
  | nil => exact List.Sublist.refl _
  | cons part parts ih =>
    rw [List.flatMap_cons, List.flatMap_cons]
    apply List.Sublist.append _ ih
    split
    · exact List.Sublist.refl _
    · exact List.nil_sublist _

theorem reset_mem_ownNames : "RESET_PIN" ∈ info.ownNames ↔ info.phone = true := by
  have hparts : ∀ part ∈ ownParts, "RESET_PIN" ∈ part.2 → part.1 = .phone := by
    simp [ownParts]
  constructor
  · intro h
    obtain ⟨part, hpart, hmem⟩ := List.mem_flatMap.mp h
    split at hmem
    · rename_i hprints
      rw [hparts part hpart hmem] at hprints
      exact hprints
    · cases hmem
  · intro hphone
    refine List.mem_flatMap.mpr ⟨(.phone, ["RESET_PIN", "RESET_HOLD_MS"]), by simp [ownParts], ?_⟩
    rw [if_pos (show info.prints .phone = true from hphone)]
    exact List.mem_cons_self

/-! ## Names apart -/

theorem pin_suffix (id : String) : "_PIN".toList <:+ (pinConst id).toList := by
  rw [pinConst, String.toList_append]
  exact List.suffix_append _ _

/-- A pin's constant has no lower case letter. -/
theorem not_isLower_of_pinConst {id : String} {c : Char} (h : c ∈ (pinConst id).toList) :
    c.isLower = false := by
  rw [pinConst, String.toList_append, List.mem_append] at h
  rcases h with h | h
  · obtain ⟨d, -, rfl⟩ := mem_toUpperCase h
    exact isLower_toUpper d
  · have hall : ("_PIN".toList.all fun c => !c.isLower) = true := by decide
    simpa using List.all_eq_true.mp hall c h

theorem pinConst_not_mem_handlers (id id' : String) : pinConst id ∉ handlers id' := by
  intro h
  obtain ⟨start, hstart, heq⟩ := mem_handlers.mp h
  have hlower : (["setActuator_", "handleCommand_", "handleState_"].all fun start =>
      start.toList.any Char.isLower) = true := by decide
  obtain ⟨c, hc, hclower⟩ := List.any_eq_true.mp (List.all_eq_true.mp hlower start hstart)
  have hmem : c ∈ (pinConst id).toList := by
    rw [heq, String.toList_append]
    exact List.mem_append_left _ hc
  rw [not_isLower_of_pinConst hmem] at hclower
  cases hclower

theorem own_ne_pinConst_iff (ids : List String) :
    (∀ own ∈ info.ownNames, ∀ id ∈ ids, own ≠ pinConst id) ↔
      (info.phone = true → ∀ id ∈ ids, toUpperCase (toIdentifier id) ≠ "RESET") := by
  have hreset (id : String) :
      "RESET_PIN" = pinConst id ↔ toUpperCase (toIdentifier id) = "RESET" := by
    rw [pinConst, show "RESET_PIN" = "RESET" ++ "_PIN" from rfl, String.append_left_inj, eq_comm]
  constructor
  · intro h hphone id hid heq
    exact h "RESET_PIN" ((reset_mem_ownNames info).mpr hphone) id hid ((hreset id).mpr heq)
  · intro h own hown id hid heq
    have hown' := (ownNames_sublist info).subset hown
    have hpin : own = "RESET_PIN" := allOwn_pin own hown' (heq ▸ pin_suffix id)
    subst hpin
    exact h ((reset_mem_ownNames info).mp hown) id hid ((hreset id).mp heq)

/-- **The names are pairwise distinct** exactly where the identifiers of the pins are, in upper case,
those of the actuators as they are, no pin takes the name of the reset button of a sketch that has
one, and none that of a topic. -/
theorem declared_nodup_iff : (info.declared js).Nodup ↔
    ((info.inputIds js ++ info.outputIds js).map fun id => toUpperCase (toIdentifier id)).Nodup ∧
    (info.phone = true → ∀ id ∈ info.inputIds js ++ info.outputIds js,
      toUpperCase (toIdentifier id) ≠ "RESET") ∧
    ((info.actuatorIds js).map toIdentifier).Nodup ∧
    ∀ id ∈ info.inputIds js ++ info.outputIds js, ∀ id' ∈ info.actuatorIds js,
      pinConst id ∉ topicConsts id' := by
  generalize hpinned : info.inputIds js ++ info.outputIds js = pinned
  have hpins : (pinned.map pinConst).Nodup ↔
      (pinned.map fun id => toUpperCase (toIdentifier id)).Nodup := by
    have hmap : pinned.map pinConst =
        (pinned.map fun id => toUpperCase (toIdentifier id)).map (· ++ "_PIN") := by
      rw [List.map_map]
      rfl
    rw [hmap]
    constructor
    · exact List.Nodup.of_map _
    · intro h
      exact h.map fun a b hab => (String.append_left_inj "_PIN").mp hab
  -- An actuator's names begin differently: each clashes only with the same one of another.
  have htopics := nodup_started ["TOPIC_CMD_", "TOPIC_STATE_", "TOPIC_ACK_"]
    (by decide) (by decide) (by decide) (info.actuatorIds js)
  have hhandlers := nodup_started ["setActuator_", "handleCommand_", "handleState_"]
    (by decide) (by decide) (by decide) (info.actuatorIds js)
  have hown : info.ownNames.Nodup := allOwn_nodup.sublist (ownNames_sublist info)
  -- Nothing the sketch declares by itself begins as an actuator's names do.
  have hapart {own start id : String} (h : own ∈ info.ownNames) (hstart : start ∈ starts) :
      own ≠ start ++ toIdentifier id := by
    intro heq
    apply allOwn_apart own ((ownNames_sublist info).subset h) start hstart
    rw [heq, String.toList_append]
    exact List.prefix_append _ _
  unfold declared
  rw [hpinned, List.nodup_append, List.nodup_append, List.nodup_append, hpins]
  constructor
  · intro ⟨⟨⟨_, hpinsNodup, hownPins⟩, htopicsNodup, hpinTopics⟩, _, _⟩
    refine ⟨hpinsNodup, ?_, htopics.mp htopicsNodup, ?_⟩
    · rw [← own_ne_pinConst_iff]
      exact fun own hmem id hid => hownPins own hmem _ (List.mem_map_of_mem hid)
    · intro id hid id' hid' hmem
      exact hpinTopics _ (List.mem_append_right _ (List.mem_map_of_mem hid)) _
        (List.mem_flatMap.mpr ⟨id', hid', hmem⟩) rfl
  · intro ⟨hpinsNodup, hreset, hactuators, hpinTopics⟩
    rw [← own_ne_pinConst_iff] at hreset
    refine ⟨⟨⟨hown, hpinsNodup, ?_⟩, htopics.mpr hactuators, ?_⟩, hhandlers.mpr hactuators, ?_⟩
    · intro own hmem name hname
      obtain ⟨id, hid, rfl⟩ := List.mem_map.mp hname
      exact hreset own hmem id hid
    · intro name hname name' hname'
      obtain ⟨id', hid', hmem'⟩ := List.mem_flatMap.mp hname'
      rcases List.mem_append.mp hname with hname | hname
      · obtain ⟨start, hstart, rfl⟩ := mem_topicConsts.mp hmem'
        have hsub : ["TOPIC_CMD_", "TOPIC_STATE_", "TOPIC_ACK_"] ⊆ starts := by decide
        exact hapart hname (hsub hstart)
      · obtain ⟨id, hid, rfl⟩ := List.mem_map.mp hname
        intro heq
        exact hpinTopics id hid id' hid' (heq ▸ hmem')
    · intro name hname name' hname'
      obtain ⟨id', hid', hmem'⟩ := List.mem_flatMap.mp hname'
      obtain ⟨start', hstart', rfl⟩ := mem_handlers.mp hmem'
      have hsub : ["setActuator_", "handleCommand_", "handleState_"] ⊆ starts := by decide
      rcases List.mem_append.mp hname with hname | hname
      · rcases List.mem_append.mp hname with hname | hname
        · exact hapart hname (hsub hstart')
        · obtain ⟨id, hid, rfl⟩ := List.mem_map.mp hname
          intro heq
          exact pinConst_not_mem_handlers id id' (heq ▸ hmem')
      · obtain ⟨id, hid, hmem⟩ := List.mem_flatMap.mp hname
        obtain ⟨start, hstart, rfl⟩ := mem_topicConsts.mp hmem
        have hsub' : ["TOPIC_CMD_", "TOPIC_STATE_", "TOPIC_ACK_"] ⊆ starts := by decide
        have hdiffer : ∀ a ∈ ["TOPIC_CMD_", "TOPIC_STATE_", "TOPIC_ACK_"],
            ∀ b ∈ ["setActuator_", "handleCommand_", "handleState_"], a ≠ b := by decide
        intro heq
        exact hdiffer start hstart start' hstart' (start_inj (hsub' hstart) (hsub hstart') heq).1

end SketchOptions

end IotSaas.Firmware.Sketch
