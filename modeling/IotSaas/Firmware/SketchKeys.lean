import IotSaas.Firmware.SketchNames

/-!
# `Firmware/SketchKeys.lean` — the keys of a template the backend has accepted

The backend holds the keys of a template to `KEY_PATTERN` and apart from each other (`keyedWell`).
What becomes of such a key as an identifier: it is the key with `-` read as `_`, unless a line feed
ends it, and its pin's constant is an identifier unless a digit begins it.
-/

set_option autoImplicit false

namespace IotSaas.Firmware.Sketch

open Lib Lib.CSource Catalog Editor Wiring

/-! ## Keys -/

/-- A key of the pattern: letters, digits, `-` and `_`, the first a letter or a digit, and perhaps a
line feed at its end. -/
theorem chars_of_pattern {key : String} (h : matchesKeyPattern key = true) :
    (∃ head rest, key.toList = head :: rest ∧ isWordChar head = true ∧ head ≠ '_') ∧
      ∀ c ∈ key.toList, isKeyChar c = true ∨ c = '\n' := by
  rw [matchesKeyPattern_eq] at h
  have hbody : ∃ body feed, key.toList = body ++ feed ∧ (∀ c ∈ feed, c = '\n') ∧
      isSegment body = true := by
    split at h
    · rename_i hlast
      refine ⟨key.toList.dropLast, ['\n'], ?_, by simp, h⟩
      exact (List.dropLast_append_getLast? '\n' hlast).symm
    · exact ⟨key.toList, [], by simp, by simp, h⟩
  obtain ⟨body, feed, hkey, hfeed, hsegment⟩ := hbody
  constructor
  · cases body with
    | nil => cases hsegment
    | cons head rest =>
      refine ⟨head, rest ++ feed, hkey, ?_⟩
      simp only [isSegment, Bool.and_eq_true] at hsegment
      have halnum := hsegment.1.1
      simp only [isSlugAlnum, between, Bool.or_eq_true, Bool.and_eq_true, decide_eq_true_eq] at halnum
      have hrange : 65 ≤ head.toNat ∧ head.toNat ≤ 90 ∨ 97 ≤ head.toNat ∧ head.toNat ≤ 122 ∨
          48 ≤ head.toNat ∧ head.toNat ≤ 57 := by
        rcases halnum with (h | h) | h
        · exact .inr (.inl h)
        · exact .inr (.inr h)
        · exact .inl h
      constructor
      · rw [isWordChar_iff]
        omega
      · intro hunderscore
        rw [hunderscore] at hrange
        exact absurd hrange (by decide)
  · intro c hc
    rw [hkey, List.mem_append] at hc
    rcases hc with hc | hc
    · exact .inl (isKeyChar_of_mem hsegment hc)
    · exact .inr (hfeed c hc)

theorem isKeyChar_cases {c : Char} (h : isKeyChar c = true) : isWordChar c = true ∨ c = '-' := by
  simp only [isKeyChar, isSlugChar, isSlugAlnum, between, Bool.or_eq_true, Bool.and_eq_true,
    decide_eq_true_eq] at h
  rw [isWordChar_iff]
  rcases h with ((h | rfl) | h) | rfl
  · rcases h with h | h
    · exact .inl (.inr (.inl h))
    · exact .inl (.inr (.inr (.inr h)))
  · exact .inr rfl
  · exact .inl (.inl h)
  · exact .inl (.inr (.inr (.inl rfl)))

theorem isPlain_of_word {c : Char} (h : isWordChar c = true) : isPlain c = true := by
  rw [isWordChar_iff] at h
  have hne (d : Char) (hd : d.toNat = 92 ∨ d.toNat = 34 ∨ d.toNat = 10 ∨ d.toNat = 13) : c ≠ d := by
    intro heq
    subst heq
    omega
  simp [isPlain, isBreak, hne '\\' (.inl rfl), hne '"' (.inr (.inl rfl)),
    hne '\n' (.inr (.inr (.inl rfl))), hne '\r' (.inr (.inr (.inr rfl)))]

/-- A character that a raw literal may have. -/
theorem isPlain_of_keyChar {c : Char} (h : isKeyChar c = true) : isPlain c = true := by
  rcases isKeyChar_cases h with h | rfl
  · exact isPlain_of_word h
  · rfl

/-- `-` read as `_`. -/
def underscored (key : String) : String :=
  String.ofList (key.toList.map fun c => if c = '-' then '_' else c)

/-- What `toIdentifier` makes of a key without a line feed. -/
theorem toIdentifier_key {key : String} (h : ∀ c ∈ key.toList, isKeyChar c = true ∨ c = '\n')
    (hfeed : '\n' ∉ key.toList) : toIdentifier key = underscored key := by
  unfold toIdentifier underscored
  congr 1
  rw [← List.flatMap_singleton' (key.toList.map _), List.flatMap_map]
  apply List.flatMap_congr
  intro c hc
  have hkey := (h c hc).resolve_right fun heq => hfeed (heq ▸ hc)
  rcases isKeyChar_cases hkey with hword | rfl
  · have hne : c ≠ '-' := by
      intro heq
      subst heq
      exact absurd hword (by decide)
    rw [if_pos hword, if_neg hne]
  · rfl

namespace SketchOptions

variable (js : Js) (provName : String → String) (info : SketchOptions)

/-- The wire ids of the metrics that have a row. -/
def rowIds : List String := info.rows.map fun m => wireId js m.name m.key

/-- What the backend makes sure of: keys of the pattern, and apart from each other. -/
structure KeyedWell : Prop where
  inputs : ∀ id ∈ info.inputIds js, matchesKeyPattern id = true
  actuators : ∀ id ∈ info.actuatorIds js, matchesKeyPattern id = true
  rows : ∀ id ∈ info.rowIds js, ∀ c ∈ id.toList, isKeyChar c = true ∨ c = '\n'
  inputs_nodup : (info.inputIds js).Nodup
  actuators_nodup : (info.actuatorIds js).Nodup

variable {js} {info}

theorem wireId_of_key {name key : String} (h : matchesKeyPattern key = true) :
    wireId js name (some key) = key := by
  have hne : key ≠ "" := by
    intro heq
    subst heq
    exact absurd h (by decide)
  simp [wireId, hne]

theorem slugify_chars (name : String) :
    ∀ c ∈ (Wiring.slugify js name).toList, isKeyChar c = true := by
  intro c hc
  rw [Wiring.slugify, String.toList_ofList] at hc
  have hslug := isSlugChar_of_hyphenate c (mem_trim hc)
  simp [isKeyChar, hslug]

theorem outputIds_sublist : (info.outputIds js).Sublist (info.actuatorIds js) :=
  List.filter_sublist.map _

theorem keyedWell {folding : CaseFolding} (h : Accepted folding info) : info.KeyedWell js := by
  obtain ⟨submitted, hmetrics⟩ := h.metrics
  obtain ⟨submitted', hactuators⟩ := h.actuators
  obtain ⟨⟨hevery, hnodup⟩, -⟩ := normalizeMetrics_keyed hmetrics
  obtain ⟨seen, -, -, -, hformat⟩ := normalizeMetrics_ok hmetrics
  obtain ⟨hactuatorKeys, hactuatorsNodup⟩ := normalizeActuators_keyed hactuators
  have hmetric : ∀ m ∈ info.metrics, ∃ key, m.key = some key ∧ matchesKeyPattern key = true := by
    intro m hm
    have hmem := List.mem_map_of_mem (f := TemplateMetric.toCatalogMetric) hm
    obtain ⟨key, -, hkey⟩ := hevery _ hmem
    exact ⟨key, hkey, hformat _ hmem key hkey (by simp)⟩
  have hactuator : ∀ a ∈ info.actuators, ∃ key, a.key = some key ∧
      matchesKeyPattern key = true := fun a ha => hactuatorKeys _ (List.mem_map_of_mem ha)
  -- Ids are keys, so they are apart as keys are.
  have hapart {α : Type} {items : List α} {name : α → String} {key : α → Option String}
      (hkeys : ∀ x ∈ items, ∃ k, key x = some k ∧ matchesKeyPattern k = true)
      (hn : (items.map key).Nodup) : (items.map fun x => wireId js (name x) (key x)).Nodup := by
    have hmap : (items.map fun x => wireId js (name x) (key x)).map some = items.map key := by
      rw [List.map_map]
      apply List.map_congr_left
      intro x hx
      obtain ⟨k, hk, hpattern⟩ := hkeys x hx
      simp [hk, wireId_of_key hpattern]
    rw [← hmap] at hn
    exact hn.of_map some
  have hrows : info.rows = info.metrics ∨ info.rows = [] ∨ info.rows = [placeholderMetric] := by
    unfold SketchInfo.rows
    split
    · exact .inl rfl
    · split
      · exact .inr (.inl rfl)
      · exact .inr (.inr rfl)
  have hinputs : ∀ m ∈ info.rows, m.dataType = "bool" → m ∈ info.metrics := by
    intro m hm hbool
    rcases hrows with heq | heq | heq
    · exact heq ▸ hm
    · rw [heq] at hm
      cases hm
    · rw [heq, List.mem_singleton] at hm
      subst hm
      exact absurd hbool (by decide)
  constructor
  · intro id hid
    obtain ⟨m, hm, rfl⟩ := List.mem_map.mp hid
    obtain ⟨hm, hbool⟩ := List.mem_filter.mp hm
    obtain ⟨key, hkey, hpattern⟩ := hmetric m (hinputs m hm (by simpa using hbool))
    rw [hkey, wireId_of_key hpattern]
    exact hpattern
  · intro id hid
    obtain ⟨a, ha, rfl⟩ := List.mem_map.mp hid
    obtain ⟨key, hkey, hpattern⟩ := hactuator a ha
    rw [hkey, wireId_of_key hpattern]
    exact hpattern
  · intro id hid
    obtain ⟨m, hm, rfl⟩ := List.mem_map.mp hid
    rcases hrows with heq | heq | heq
    · obtain ⟨key, hkey, hpattern⟩ := hmetric m (heq ▸ hm)
      rw [hkey, wireId_of_key hpattern]
      exact (chars_of_pattern hpattern).2
    · rw [heq] at hm
      cases hm
    · rw [heq, List.mem_singleton] at hm
      subst hm
      exact fun c hc => .inl (slugify_chars _ c hc)
  · rcases hrows with heq | heq | heq
    · rw [inputIds, heq]
      apply hapart
      · exact fun m hm => hmetric m (List.mem_of_mem_filter hm)
      · rw [List.map_map] at hnodup
        exact hnodup.sublist (List.filter_sublist.map _)
    · rw [inputIds, heq]
      exact List.nodup_nil
    · rw [inputIds, heq]
      exact List.nodup_nil
  · rw [actuatorIds]
    apply hapart hactuator
    rw [List.map_map] at hactuatorsNodup
    exact hactuatorsNodup

/-! ## Identifiers -/

theorem starts_words : ∀ start ∈ starts, isWord start.toList = true := by decide

theorem starts_no_keywords :
    ∀ start ∈ starts, ∀ word ∈ keywords, ¬start.toList <+: word.toList := by decide +kernel

theorem pin_no_keyword : ∀ word ∈ keywords, ¬"_PIN".toList <:+ word.toList := by decide +kernel

theorem isIdentifier_started {start : String} (h : start ∈ starts) (id : String) :
    isIdentifier (start ++ toIdentifier id) = true := by
  rw [isIdentifier, Bool.and_eq_true, decide_eq_true_eq, String.toList_append]
  constructor
  · exact isWord_append (starts_words start h) fun c hc => isWordChar_of_toIdentifier hc
  · apply not_keyword_of_prefix (starts_no_keywords start h)
    rw [String.toList_append]
    exact List.prefix_append _ _

/-- A pin's constant is an identifier if its key does not begin with a digit. -/
theorem isIdentifier_pinConst {id : String} (h : matchesKeyPattern id = true) :
    isIdentifier (pinConst id) = true ↔ ∀ c ∈ id.toList.head?, c.isDigit = false := by
  obtain ⟨⟨head, rest, hid, hhead, -⟩, -⟩ := chars_of_pattern h
  have hkeyword : pinConst id ∉ keywords := not_keyword_of_suffix pin_no_keyword (pin_suffix id)
  have hchars : ∃ more, (pinConst id).toList = head.toUpper :: more ∧
      more.all isWordChar = true := by
    refine ⟨((rest.flatMap fun c => if isWordChar c then [c] else
      if c.toNat < 2 ^ 16 then ['_'] else ['_', '_']).map Char.toUpper) ++ "_PIN".toList, ?_, ?_⟩
    · simp [pinConst, toUpperCase, toIdentifier, hid, hhead, String.toList_append]
    · have hall : ∀ c ∈ (pinConst id).toList, isWordChar c = true := by
        intro c hc
        rw [pinConst, String.toList_append, List.mem_append] at hc
        rcases hc with hc | hc
        · obtain ⟨d, hd, rfl⟩ := mem_toUpperCase hc
          exact isWordChar_toUpper (isWordChar_of_toIdentifier hd)
        · have hpin : ∀ c ∈ "_PIN".toList, isWordChar c = true :=
            List.all_eq_true.mp (by decide)
          exact hpin c hc
      rw [List.all_eq_true]
      intro c hc
      apply hall
      simp [pinConst, toUpperCase, toIdentifier, hid, hhead, String.toList_append] at hc ⊢
      exact .inr hc
  obtain ⟨more, hmore, hall⟩ := hchars
  rw [isIdentifier, hmore, isWord, hall, Bool.and_true, Bool.and_eq_true, decide_eq_true_eq,
    and_iff_left hkeyword, isNondigit_toUpper hhead, hid]
  simp

theorem declared_identifiers_iff (h : info.KeyedWell js) :
    (∀ name ∈ info.declared js, isIdentifier name = true) ↔
      ∀ id ∈ info.inputIds js ++ info.outputIds js, ∀ c ∈ id.toList.head?, c.isDigit = false := by
  have hpinned : ∀ id ∈ info.inputIds js ++ info.outputIds js, matchesKeyPattern id = true := by
    intro id hid
    rcases List.mem_append.mp hid with hid | hid
    · exact h.inputs id hid
    · exact h.actuators id (outputIds_sublist.subset hid)
  constructor
  · intro hall id hid
    rw [← isIdentifier_pinConst (hpinned id hid)]
    apply hall
    unfold declared
    exact List.mem_append_left _ (List.mem_append_left _
      (List.mem_append_right _ (List.mem_map_of_mem hid)))
  · intro hdigits name hname
    unfold declared at hname
    rw [List.mem_append, List.mem_append, List.mem_append] at hname
    rcases hname with ((hname | hname) | hname) | hname
    · exact allOwn_identifiers name ((ownNames_sublist info).subset hname)
    · obtain ⟨id, hid, rfl⟩ := List.mem_map.mp hname
      exact (isIdentifier_pinConst (hpinned id hid)).mpr (hdigits id hid)
    · obtain ⟨id, -, hmem⟩ := List.mem_flatMap.mp hname
      obtain ⟨start, hstart, rfl⟩ := mem_topicConsts.mp hmem
      have hsub : ["TOPIC_CMD_", "TOPIC_STATE_", "TOPIC_ACK_"] ⊆ starts := by decide
      exact isIdentifier_started (hsub hstart) id
    · obtain ⟨id, -, hmem⟩ := List.mem_flatMap.mp hname
      obtain ⟨start, hstart, rfl⟩ := mem_handlers.mp hmem
      have hsub : ["setActuator_", "handleCommand_", "handleState_"] ⊆ starts := by decide
      exact isIdentifier_started (hsub hstart) id

end SketchOptions

end IotSaas.Firmware.Sketch
