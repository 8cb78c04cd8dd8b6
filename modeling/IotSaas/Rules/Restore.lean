import IotSaas.Rules.Checkpoint

/-!
# `Rules/Restore.lean` — a checkpoint that was damaged

`rule_state_from_dict` promises that anything malformed becomes a fresh `RuleState`, so that no
entry of the checkpoint stops the others from being restored. What an entry means is defined here
without the code (`Encodes`), and so is what restoring a text should do (`Tolerates`). The code does
it for the texts that are `Sparing` and for no others (`restore_tolerates_iff`): a key of a leaf map
that is not made of numbers raises, and so does a document that is no object, or is nested too
deeply; a malformed field is dropped on its own, not with its entry; and an entry that comes later
under another spelling of the same id wins, malformed or not.
-/

set_option autoImplicit false

namespace IotSaas.Rules

open Lib

variable {N : Type}

/-! ## What an entry means -/

/-- A timer: `null`, or the time of an ISO text. -/
inductive TimerOf (py : PyText N) : Json N → Option Datetime → Prop where
  | unset : TimerOf py .null none
  | set {s : String} {t : Datetime} (h : py.fromisoformat s = some t) :
      TimerOf py (.str s) (some t)

/-- A flag is a boolean. -/
inductive FlagOf : Json N → Bool → Prop where
  | bool (b : Bool) : FlagOf (.bool b) b

/-- A fingerprint: `null`, or a text. -/
inductive FingerprintOf : Json N → Option String → Prop where
  | unset : FingerprintOf .null none
  | set (s : String) : FingerprintOf (.str s) (some s)

/-- A leaf map: an object of booleans, under keys that spell paths. -/
inductive LeavesOf (py : PyText N) : Json N → LeafStates → Prop where
  | obj {members : List (String × Json N)} {leaves : List (List Int × LeafState)}
      (h : List.Forall₂ (fun member leaf => pathOfKey py member.1 = some leaf.1 ∧
        member.2 = .bool leaf.2.latchedTrue) (Record.ofPairs members).items leaves) :
      LeavesOf py (.obj members) (atPositions (Dict.ofList leaves))

/-- A field is read as it should be, or is not there and has its default. -/
def Field {α : Type} (Means : Json N → α → Prop) (default : α) (value : Option (Json N)) (a : α) :
    Prop :=
  match value with
  | none => a = default
  | some v => Means v a

/-- An entry's fields all mean something, and together they are `state`. -/
structure Fields (py : PyText N) (raw : Record (Json N)) (state : RuleState) : Prop where
  conditionSince : Field (TimerOf py) none (raw.get "condition_since") state.conditionSince
  armed : Field FlagOf true (raw.get "armed") state.armed
  lastFiredAt : Field (TimerOf py) none (raw.get "last_fired_at") state.lastFiredAt
  leafStates : Field (LeavesOf py) .empty (raw.get "leaf_states") state.leafStates
  resetLeafStates :
    Field (LeavesOf py) .empty (raw.get "reset_leaf_states") state.resetLeafStates
  conditionFingerprint :
    Field FingerprintOf none (raw.get "condition_fingerprint") state.conditionFingerprint
  active : Field FlagOf false (raw.get "active") state.active
  clearSince : Field (TimerOf py) none (raw.get "clear_since") state.clearSince

/-- A well-formed entry, and the state it encodes. -/
inductive Encodes (py : PyText N) : Json N → RuleState → Prop where
  | obj {members : List (String × Json N)} {state : RuleState}
      (h : Fields py (Record.ofPairs members) state) : Encodes py (.obj members) state

def WellFormed (py : PyText N) (blob : Json N) : Prop := ∃ state, Encodes py blob state

/-! ## What restoring should do -/

/-- The entries of the stored document; there are none where it is no object. -/
def storedEntries (loads : String → Loaded N) (raw : Option String) : List (String × Json N) :=
  match raw with
  | none => []
  | some text =>
      if text = "" then []
      else
        match loads text with
        | .document (.obj members) => (Record.ofPairs members).items
        | _ => []

/-- The entry is one of rule `id`. -/
def EntryOf (py : PyText N) (id : Uuid) (entry : String × Json N) : Prop :=
  py.parseUuid entry.1 = some id

/-- `entry` is the last well-formed entry of rule `id`, and encodes `state`; `later` are the
entries after it. -/
structure LastWellFormed (py : PyText N) (entries : List (String × Json N)) (id : Uuid)
    (state : RuleState) (later : List (String × Json N)) : Prop where
  found : ∃ before key blob, entries = before ++ (key, blob) :: later ∧
    EntryOf py id (key, blob) ∧ Encodes py blob state
  last : ∀ entry ∈ later, EntryOf py id entry → ¬ WellFormed py entry.2

/-- **What the checkpoint's reader promises**, of one stored text: nothing is raised, a malformed
entry is skipped or becomes a fresh state, and a known rule that has a well-formed entry has its
state. -/
def Tolerates (py : PyText N) (loads : String → Loaded N) (known : Uuid → Bool)
    (raw : Option String) (ruleStates : Dict Uuid RuleState) : Prop :=
  ∃ restored, restoreRuleStates py loads known raw ruleStates = .ok restored ∧
    (∀ entry ∈ storedEntries loads raw, ¬ WellFormed py entry.2 →
      (∀ id, EntryOf py id entry → known id = false) ∨
        ruleStateFromDict py entry.2 = .ok {}) ∧
    ∀ id state later, known id = true →
      LastWellFormed py (storedEntries loads raw) id state later → restored.get id = some state

/-! ## When it does -/

/-- The text is no JSON, or a document that has no entries, or an object of entries. -/
def Iterable (py : PyText N) (loads : String → Loaded N) (raw : Option String) : Prop :=
  match raw with
  | none => True
  | some text =>
      text = "" ∨
        match loads text with
        | .invalid => True
        | .tooDeep => False
        | .document data => truthy py data = false ∨ ∃ members, data = .obj members

/-- No text of a time. -/
def NoTimer (py : PyText N) (value : Option (Json N)) : Prop :=
  ∀ s, value = some (.str s) → py.fromisoformat s = none

/-- No leaf at any position of a tree, and no key that is not made of numbers. -/
def NoLeaves (py : PyText N) (value : Option (Json N)) : Prop :=
  ∀ members, value = some (.obj members) → ∀ member ∈ (Record.ofPairs members).items,
    ∃ path, pathOfKey py member.1 = some path ∧ ∃ i ∈ path, i < 0

/-- The fields hold nothing but defaults and what is dropped. -/
structure BlankFields (py : PyText N) (raw : Record (Json N)) : Prop where
  conditionSince : NoTimer py (raw.get "condition_since")
  armed : ∀ v, raw.get "armed" = some v → truthy py v = true
  lastFiredAt : NoTimer py (raw.get "last_fired_at")
  leafStates : NoLeaves py (raw.get "leaf_states")
  resetLeafStates : NoLeaves py (raw.get "reset_leaf_states")
  conditionFingerprint : ∀ s, raw.get "condition_fingerprint" ≠ some (.str s)
  active : ∀ v, raw.get "active" = some v → truthy py v = false
  clearSince : NoTimer py (raw.get "clear_since")

/-- An entry with nothing in it. -/
def Blank (py : PyText N) (blob : Json N) : Prop :=
  ∀ members, blob = .obj members → BlankFields py (Record.ofPairs members)

/-- **The texts that are restored as promised.** -/
structure Sparing (py : PyText N) (loads : String → Loaded N) (known : Uuid → Bool)
    (raw : Option String) : Prop where
  iterable : Iterable py loads raw
  /-- A malformed entry of a known rule has nothing in it. -/
  blank : ∀ entry ∈ storedEntries loads raw, ∀ id, EntryOf py id entry → known id = true →
    ¬ WellFormed py entry.2 → Blank py entry.2
  /-- None comes after a well-formed one of the same rule, unless that is as good as fresh. -/
  order : ∀ id state later, known id = true →
    LastWellFormed py (storedEntries loads raw) id state later →
    state = {} ∨ ∀ entry ∈ later, ¬ EntryOf py id entry

/-! ## Leaf maps -/

variable {py : PyText N}

variable {members : List (String × Json N)} {leaves : List (List Int × LeafState)}

theorem readLeafStates_of_leaves
    (h : List.Forall₂ (fun member leaf => pathOfKey py member.1 = some leaf.1 ∧
      truthy py member.2 = leaf.2.latchedTrue) members leaves) :
    ∀ out, readLeafStates py members out =
      .ok (leaves.foldl (fun d leaf => d.set leaf.1 leaf.2) out) := by
  induction h with
  | nil =>
    intro out
    rfl
  | cons hhead _ ih =>
    intro out
    rw [readLeafStates, hhead.1, hhead.2]
    exact ih _

theorem readLeafStates_bad (h : ∃ member ∈ members, pathOfKey py member.1 = none) :
    ∀ out, readLeafStates py members out = .error .valueError := by
  induction members with
  | nil =>
    obtain ⟨member, hmember, _⟩ := h
    cases hmember
  | cons member rest ih =>
    intro out
    unfold readLeafStates
    cases hpath : pathOfKey py member.1 with
    | none => rfl
    | some path =>
      obtain ⟨bad, hbad, hnone⟩ := h
      rcases List.mem_cons.mp hbad with rfl | hbad
      · rw [hpath] at hnone
        cases hnone
      · exact ih ⟨bad, hbad, hnone⟩ _

variable (py) in
/-- Every key spells a path, or one does not. -/
theorem leaves_or_bad (members : List (String × Json N)) :
    (∃ leaves : List (List Int × LeafState),
      List.Forall₂ (fun member leaf => pathOfKey py member.1 = some leaf.1 ∧
        truthy py member.2 = leaf.2.latchedTrue) members leaves) ∨
      ∃ member ∈ members, pathOfKey py member.1 = none := by
  induction members with
  | nil => exact .inl ⟨[], .nil⟩
  | cons member rest ih =>
    cases hpath : pathOfKey py member.1 with
    | none => exact .inr ⟨member, List.mem_cons_self, hpath⟩
    | some path =>
      rcases ih with ⟨leaves, hleaves⟩ | ⟨bad, hbad, hnone⟩
      · exact .inl ⟨(path, ⟨truthy py member.2⟩) :: leaves, .cons ⟨hpath, rfl⟩ hleaves⟩
      · exact .inr ⟨bad, List.mem_cons_of_mem _ hbad, hnone⟩

/-- A path that no tree has: it goes through a negative index. -/
theorem eq_map_ofNat {path : List Int} (h : ¬ ∃ i ∈ path, i < 0) :
    path = (path.map Int.toNat).map Int.ofNat := by
  refine Eq.trans (List.map_id path).symm ?_
  rw [List.map_map]
  apply List.map_congr_left
  intro i hi
  have hnonneg : 0 ≤ i := by
    by_contra hneg
    exact h ⟨i, hi, by omega⟩
  exact (Int.toNat_of_nonneg hnonneg).symm

theorem atPositions_eq_empty :
    atPositions (Dict.ofList leaves) = .empty ↔ ∀ leaf ∈ leaves, ∃ i ∈ leaf.1, i < 0 := by
  constructor
  · intro h leaf hleaf
    by_contra hneg
    have hpath := eq_map_ofNat hneg
    have hsome := Dict.get_ofList_isSome (List.mem_map_of_mem hleaf)
    have hnone : (Dict.ofList leaves).get ((leaf.1.map Int.toNat).map Int.ofNat) = none :=
      congrArg (fun d => Dict.get d (leaf.1.map Int.toNat)) h
    rw [hpath, hnone] at hsome
    cases hsome
  · intro h
    ext path st
    have habsent : path.map Int.ofNat ∉ leaves.map Prod.fst := by
      intro hmem
      obtain ⟨leaf, hleaf, heq⟩ := List.mem_map.mp hmem
      obtain ⟨i, hi, hneg⟩ := h leaf hleaf
      rw [heq] at hi
      obtain ⟨n, _, rfl⟩ := List.mem_map.mp hi
      exact absurd hneg (by simp)
    rw [atPositions, Dict.get_ofList_eq_none habsent, Dict.get_empty]

theorem leafStatesFromDict_of_leaves
    (h : List.Forall₂ (fun member leaf => pathOfKey py member.1 = some leaf.1 ∧
      truthy py member.2 = leaf.2.latchedTrue) (Record.ofPairs members).items leaves) :
    leafStatesFromDict py (some (.obj members)) = .ok (atPositions (Dict.ofList leaves)) := by
  rw [leafStatesFromDict, readLeafStates_of_leaves h]
  rfl

theorem LeavesOf.read {v : Json N} {d : LeafStates} (h : LeavesOf py v d) :
    leafStatesFromDict py (some v) = .ok d := by
  cases h with
  | obj h => exact leafStatesFromDict_of_leaves (h.imp fun _ _ hm => ⟨hm.1, by rw [hm.2]; rfl⟩)

theorem forall_leaves (P : List Int → Prop)
    (h : List.Forall₂ (fun member leaf => pathOfKey py member.1 = some leaf.1 ∧
      truthy py member.2 = leaf.2.latchedTrue) members leaves) :
    (∀ leaf ∈ leaves, P leaf.1) ↔
      ∀ member ∈ members, ∃ path, pathOfKey py member.1 = some path ∧ P path := by
  induction h with
  | nil => simp
  | cons hhead _ ih =>
    rw [List.forall_mem_cons, List.forall_mem_cons, ih, hhead.1]
    simp

variable {value : Option (Json N)}

/-- A leaf map is read as no leaf at all exactly when it holds none. -/
theorem leafStatesFromDict_eq_empty :
    leafStatesFromDict py value = .ok .empty ↔ NoLeaves py value := by
  by_cases hobj : ∃ members, value = some (.obj members)
  · obtain ⟨members, rfl⟩ := hobj
    have hno : NoLeaves py (some (.obj members)) ↔
        ∀ member ∈ (Record.ofPairs members).items,
          ∃ path, pathOfKey py member.1 = some path ∧ ∃ i ∈ path, i < 0 := by
      constructor
      · intro h
        exact h members rfl
      · intro h members' heq
        cases heq
        exact h
    rw [hno]
    rcases leaves_or_bad py (Record.ofPairs members).items with
      ⟨leaves, hleaves⟩ | hbad
    · rw [leafStatesFromDict_of_leaves hleaves, Except.ok.injEq, atPositions_eq_empty,
        forall_leaves (fun path => ∃ i ∈ path, i < 0) hleaves]
    · rw [leafStatesFromDict, readLeafStates_bad hbad]
      constructor
      · intro h
        cases h
      · intro h
        obtain ⟨member, hmember, hnone⟩ := hbad
        obtain ⟨path, hpath, _⟩ := h member hmember
        rw [hnone] at hpath
        cases hpath
  · constructor
    · intro _ members heq
      exact absurd ⟨members, heq⟩ hobj
    · intro _
      unfold leafStatesFromDict
      split
      · exact absurd ⟨_, rfl⟩ hobj
      · rfl

/-! ## One entry -/

/-- What the reader makes of each field. -/
structure Reads (py : PyText N) (raw : Record (Json N)) (state : RuleState) : Prop where
  conditionSince : state.conditionSince = readTimer py (raw.get "condition_since")
  armed : state.armed = ((raw.get "armed").map (truthy py)).getD true
  lastFiredAt : state.lastFiredAt = readTimer py (raw.get "last_fired_at")
  leafStates : leafStatesFromDict py (raw.get "leaf_states") = .ok state.leafStates
  resetLeafStates :
    leafStatesFromDict py (raw.get "reset_leaf_states") = .ok state.resetLeafStates
  conditionFingerprint :
    state.conditionFingerprint = readFingerprint (raw.get "condition_fingerprint")
  active : state.active = ((raw.get "active").map (truthy py)).getD false
  clearSince : state.clearSince = readTimer py (raw.get "clear_since")

variable {state : RuleState}

theorem ruleStateFromDict_obj :
    ruleStateFromDict py (.obj members) = .ok state ↔
      Reads py (Record.ofPairs members) state := by
  unfold ruleStateFromDict
  dsimp only
  constructor
  · intro h
    cases hleaves : leafStatesFromDict py ((Record.ofPairs members).get "leaf_states") with
    | error e => rw [hleaves] at h; cases h
    | ok leaves =>
      cases hresets :
          leafStatesFromDict py ((Record.ofPairs members).get "reset_leaf_states") with
      | error e => rw [hleaves, hresets] at h; cases h
      | ok resets =>
        rw [hleaves, hresets] at h
        cases h
        exact ⟨rfl, rfl, rfl, hleaves, hresets, rfl, rfl, rfl⟩
  · intro h
    rw [h.leafStates, h.resetLeafStates]
    show Except.ok _ = _
    rw [← h.conditionSince, ← h.armed, ← h.lastFiredAt, ← h.conditionFingerprint, ← h.active,
      ← h.clearSince]

theorem timer_read {timer : Option Datetime} (h : Field (TimerOf py) none value timer) :
    timer = readTimer py value := by
  cases value with
  | none => exact h
  | some v =>
    cases h with
    | unset => rfl
    | set hdate => exact hdate.symm

theorem flag_read {default : Bool} {flag : Bool} (h : Field FlagOf default value flag) :
    flag = (value.map (truthy py)).getD default := by
  cases value with
  | none => exact h
  | some v =>
    cases h with
    | bool b => rfl

theorem fingerprint_read {fingerprint : Option String}
    (h : Field FingerprintOf none value fingerprint) :
    fingerprint = readFingerprint value := by
  cases value with
  | none => exact h
  | some v =>
    cases h with
    | unset => rfl
    | set s => rfl

theorem leaves_read {d : LeafStates} (h : Field (LeavesOf py) .empty value d) :
    leafStatesFromDict py value = .ok d := by
  cases value with
  | none => rw [show d = .empty from h]; rfl
  | some v => exact LeavesOf.read h

/-- **A well-formed entry is read as the state it encodes.** -/
theorem Encodes.read {blob : Json N} (h : Encodes py blob state) :
    ruleStateFromDict py blob = .ok state := by
  cases h with
  | obj h =>
    exact ruleStateFromDict_obj.mpr
      { conditionSince := timer_read h.conditionSince
        armed := flag_read h.armed
        lastFiredAt := timer_read h.lastFiredAt
        leafStates := leaves_read h.leafStates
        resetLeafStates := leaves_read h.resetLeafStates
        conditionFingerprint := fingerprint_read h.conditionFingerprint
        active := flag_read h.active
        clearSince := timer_read h.clearSince }

theorem readTimer_eq_none :
    none = readTimer py value ↔ NoTimer py value := by
  constructor
  · intro h s hs
    rw [hs] at h
    exact h.symm
  · intro h
    unfold readTimer
    split
    · exact (h _ rfl).symm
    · rfl

theorem flag_eq_default {default : Bool} :
    default = (value.map (truthy py)).getD default ↔
      ∀ v, value = some v → truthy py v = default := by
  cases value with
  | none => simp
  | some v => simp [eq_comm]

theorem readFingerprint_eq_none :
    none = readFingerprint value ↔ ∀ s, value ≠ some (.str s) := by
  constructor
  · intro h s hs
    rw [hs] at h
    cases h
  · intro h
    unfold readFingerprint
    split
    · exact absurd rfl (h _)
    · rfl

/-- **An entry is read as a fresh state exactly when it is blank.** -/
theorem ruleStateFromDict_eq_fresh {blob : Json N} :
    ruleStateFromDict py blob = .ok {} ↔ Blank py blob := by
  have hobj : ∀ members, ruleStateFromDict py (.obj members) = .ok {} ↔
      BlankFields py (Record.ofPairs members) := by
    intro members
    rw [ruleStateFromDict_obj]
    constructor
    · intro h
      exact ⟨readTimer_eq_none.mp h.conditionSince, flag_eq_default.mp h.armed,
        readTimer_eq_none.mp h.lastFiredAt, leafStatesFromDict_eq_empty.mp h.leafStates,
        leafStatesFromDict_eq_empty.mp h.resetLeafStates,
        readFingerprint_eq_none.mp h.conditionFingerprint, flag_eq_default.mp h.active,
        readTimer_eq_none.mp h.clearSince⟩
    · intro h
      exact ⟨readTimer_eq_none.mpr h.conditionSince, flag_eq_default.mpr h.armed,
        readTimer_eq_none.mpr h.lastFiredAt, leafStatesFromDict_eq_empty.mpr h.leafStates,
        leafStatesFromDict_eq_empty.mpr h.resetLeafStates,
        readFingerprint_eq_none.mpr h.conditionFingerprint, flag_eq_default.mpr h.active,
        readTimer_eq_none.mpr h.clearSince⟩
  by_cases hisobj : ∃ members, blob = .obj members
  · obtain ⟨members, rfl⟩ := hisobj
    rw [hobj]
    constructor
    · intro h members' heq
      cases heq
      exact h
    · intro h
      exact h members rfl
  · constructor
    · intro _ members heq
      exact absurd ⟨members, heq⟩ hisobj
    · intro _
      unfold ruleStateFromDict
      split
      · exact absurd ⟨_, rfl⟩ hisobj
      · rfl

/-! ## All entries -/

variable {known : Uuid → Bool}

variable {entry : String × Json N}

/-- An entry that is not taken over: no id, or none of a known rule. -/
theorem restoreEntries_skip (h : ∀ id, EntryOf py id entry → known id = false)
    (rest : List (String × Json N)) (ruleStates : Dict Uuid RuleState) :
    restoreEntries py known (entry :: rest) ruleStates =
      restoreEntries py known rest ruleStates := by
  obtain ⟨key, blob⟩ := entry
  rw [restoreEntries]
  cases hid : py.parseUuid key with
  | none => rfl
  | some id =>
    dsimp only
    rw [if_pos (h id hid)]

theorem restoreEntries_take {id : Uuid} (hid : EntryOf py id entry) (hknown : known id = true)
    (hread : ruleStateFromDict py entry.2 = .ok state) (rest : List (String × Json N))
    (ruleStates : Dict Uuid RuleState) :
    restoreEntries py known (entry :: rest) ruleStates =
      restoreEntries py known rest (ruleStates.set id state) := by
  obtain ⟨key, blob⟩ := entry
  have hid' : py.parseUuid key = some id := hid
  rw [restoreEntries, hid']
  simp [hknown, show ruleStateFromDict py blob = .ok state from hread]

theorem restoreEntries_fail {id : Uuid} {e : RestoreError} (hid : EntryOf py id entry)
    (hknown : known id = true) (hread : ruleStateFromDict py entry.2 = .error e)
    (rest : List (String × Json N)) (ruleStates : Dict Uuid RuleState) :
    restoreEntries py known (entry :: rest) ruleStates = .error e := by
  obtain ⟨key, blob⟩ := entry
  have hid' : py.parseUuid key = some id := hid
  rw [restoreEntries, hid']
  simp [hknown, show ruleStateFromDict py blob = .error e from hread]

variable (py known) in
/-- The entry is one of a known rule, or of none. -/
theorem taken_or_skipped (entry : String × Json N) :
    (∃ id, EntryOf py id entry ∧ known id = true) ∨
      ∀ id, EntryOf py id entry → known id = false := by
  by_cases h : ∃ id, EntryOf py id entry ∧ known id = true
  · exact .inl h
  · refine .inr ?_
    intro id hid
    by_contra hknown
    exact h ⟨id, hid, by simpa using hknown⟩

/-- **The loop ends exactly when every entry of a known rule is read.** -/
theorem restoreEntries_isOk {entries : List (String × Json N)} :
    ∀ {ruleStates : Dict Uuid RuleState},
      (∃ restored, restoreEntries py known entries ruleStates = .ok restored) ↔
        ∀ entry ∈ entries, ∀ id, EntryOf py id entry → known id = true →
          ∃ state, ruleStateFromDict py entry.2 = .ok state := by
  induction entries with
  | nil =>
    intro ruleStates
    exact ⟨fun _ _ h => (List.not_mem_nil h).elim, fun _ => ⟨ruleStates, rfl⟩⟩
  | cons entry rest ih =>
    intro ruleStates
    rw [List.forall_mem_cons]
    rcases taken_or_skipped py known entry with ⟨id, hid, hknown⟩ | hskip
    · cases hread : ruleStateFromDict py entry.2 with
      | ok state =>
        rw [restoreEntries_take hid hknown hread, ih]
        exact ⟨fun h => ⟨fun _ _ _ => ⟨state, rfl⟩, h⟩, fun h => h.2⟩
      | error e =>
        rw [restoreEntries_fail hid hknown hread]
        constructor
        · intro h
          obtain ⟨restored, h⟩ := h
          cases h
        · intro h
          obtain ⟨state, h⟩ := h.1 id hid hknown
          cases h
    · rw [restoreEntries_skip hskip, ih]
      constructor
      · intro h
        refine ⟨?_, h⟩
        intro id hid hknown
        rw [hskip id hid] at hknown
        cases hknown
      · exact fun h => h.2

/-- A rule with no entry keeps the state it had. -/
theorem restoreEntries_frame {id : Uuid} {restored : Dict Uuid RuleState} :
    ∀ {entries : List (String × Json N)} {ruleStates : Dict Uuid RuleState},
      (∀ entry ∈ entries, ¬ EntryOf py id entry) →
      restoreEntries py known entries ruleStates = .ok restored →
      restored.get id = ruleStates.get id := by
  intro entries
  induction entries with
  | nil =>
    intro ruleStates _ h
    cases h
    rfl
  | cons entry rest ih =>
    intro ruleStates hnone h
    obtain ⟨hentry, hrest⟩ := List.forall_mem_cons.mp hnone
    rcases taken_or_skipped py known entry with ⟨id', hid, hknown⟩ | hskip
    · cases hread : ruleStateFromDict py entry.2 with
      | ok state =>
        rw [restoreEntries_take hid hknown hread] at h
        rw [ih hrest h]
        refine Dict.get_set_ne _ _ ?_
        intro heq
        exact hentry (heq ▸ hid)
      | error e =>
        rw [restoreEntries_fail hid hknown hread] at h
        cases h
    · rw [restoreEntries_skip hskip] at h
      exact ih hrest h

/-- **The last entry of a known rule is the one that stays.** -/
theorem restoreEntries_last {id : Uuid} {later : List (String × Json N)}
    {restored : Dict Uuid RuleState} (hid : EntryOf py id entry) (hknown : known id = true)
    (hread : ruleStateFromDict py entry.2 = .ok state)
    (hlast : ∀ entry' ∈ later, ¬ EntryOf py id entry') :
    ∀ {before : List (String × Json N)} {ruleStates : Dict Uuid RuleState},
      restoreEntries py known (before ++ entry :: later) ruleStates = .ok restored →
      restored.get id = some state := by
  intro before
  induction before with
  | nil =>
    intro ruleStates h
    rw [List.nil_append, restoreEntries_take hid hknown hread] at h
    rw [restoreEntries_frame hlast h, Dict.get_set_self]
  | cons first rest ih =>
    intro ruleStates h
    rw [List.cons_append] at h
    rcases taken_or_skipped py known first with ⟨id', hid', hknown'⟩ | hskip
    · cases hread' : ruleStateFromDict py first.2 with
      | ok state' =>
        rw [restoreEntries_take hid' hknown' hread'] at h
        exact ih h
      | error e =>
        rw [restoreEntries_fail hid' hknown' hread'] at h
        cases h
    · rw [restoreEntries_skip hskip] at h
      exact ih h

/-- The last element that has a property, where any has. -/
theorem last_or_none {α : Type} (P : α → Prop) (items : List α) :
    (∃ before item later, items = before ++ item :: later ∧ P item ∧ ∀ next ∈ later, ¬ P next) ∨
      ∀ item ∈ items, ¬ P item := by
  induction items with
  | nil => exact .inr fun _ h => (List.not_mem_nil h).elim
  | cons item rest ih =>
    rcases ih with ⟨before, last, later, rfl, hlast, hlater⟩ | hnone
    · exact .inl ⟨item :: before, last, later, rfl, hlast, hlater⟩
    · by_cases hitem : P item
      · exact .inl ⟨[], item, rest, rfl, hitem, hnone⟩
      · exact .inr (List.forall_mem_cons.mpr ⟨hitem, hnone⟩)

/-! ## The stored text -/

variable {loads : String → Loaded N} {raw : Option String}

theorem restoreRuleStates_of_iterable (h : Iterable py loads raw)
    (ruleStates : Dict Uuid RuleState) :
    restoreRuleStates py loads known raw ruleStates =
      restoreEntries py known (storedEntries loads raw) ruleStates := by
  unfold restoreRuleStates storedEntries
  cases raw with
  | none => rfl
  | some text =>
    dsimp only
    by_cases hempty : text = ""
    · rw [if_pos hempty, if_pos hempty]
      rfl
    · rw [if_neg hempty, if_neg hempty]
      have hdoc := h.resolve_left hempty
      cases hload : loads text with
      | invalid => rfl
      | tooDeep => rw [hload] at hdoc; exact hdoc.elim
      | document data =>
        rw [hload] at hdoc
        dsimp only
        by_cases htruthy : truthy py data = false
        · rw [if_pos htruthy]
          cases data with
          | obj members =>
            have hnil : members = [] := by simpa [truthy] using htruthy
            rw [hnil]
            rfl
          | null => rfl
          | bool b => rfl
          | num n => rfl
          | str s => rfl
          | arr items => rfl
        · obtain ⟨members, rfl⟩ := hdoc.resolve_left htruthy
          rw [if_neg htruthy]

theorem iterable_of_ok {ruleStates restored : Dict Uuid RuleState}
    (h : restoreRuleStates py loads known raw ruleStates = .ok restored) :
    Iterable py loads raw := by
  unfold restoreRuleStates at h
  unfold Iterable
  cases raw with
  | none => trivial
  | some text =>
    dsimp only at h ⊢
    by_cases hempty : text = ""
    · exact .inl hempty
    · rw [if_neg hempty] at h
      refine .inr ?_
      cases hload : loads text with
      | invalid => trivial
      | tooDeep => rw [hload] at h; cases h
      | document data =>
        rw [hload] at h
        dsimp only at h ⊢
        by_cases htruthy : truthy py data = false
        · exact .inl htruthy
        · rw [if_neg htruthy] at h
          cases data with
          | obj members => exact .inr ⟨members, rfl⟩
          | null => cases h
          | bool b => cases h
          | num n => cases h
          | str s => cases h
          | arr items => cases h

variable (py known loads raw) in
/-- **A stored text is restored as promised exactly when it is sparing.** -/
theorem restore_tolerates_iff (ruleStates : Dict Uuid RuleState) :
    Tolerates py loads known raw ruleStates ↔ Sparing py loads known raw := by
  constructor
  · intro h
    obtain ⟨restored, hok, hmalformed, hwell⟩ := h
    have hiterable := iterable_of_ok hok
    rw [restoreRuleStates_of_iterable hiterable] at hok
    refine ⟨hiterable, ?_, ?_⟩
    · intro entry hentry id hid hknown hbad
      rcases hmalformed entry hentry hbad with hskip | hfresh
      · rw [hskip id hid] at hknown
        cases hknown
      · exact ruleStateFromDict_eq_fresh.mp hfresh
    · intro id state later hknown hwellLast
      rcases last_or_none (EntryOf py id) later with
        ⟨between, entry, rest, hlater, hid, hlast⟩ | hnone
      · -- the entry that stays is malformed, so it was read as a fresh state
        refine .inl ?_
        obtain ⟨before, key, blob, hentries, _, _⟩ := hwellLast.found
        have hmem : entry ∈ later := by simp [hlater]
        have hmem' : entry ∈ storedEntries loads raw := by simp [hentries, hmem]
        have hfresh : ruleStateFromDict py entry.2 = .ok {} := by
          rcases hmalformed entry hmem' (hwellLast.last entry hmem hid) with hskip | hfresh
          · rw [hskip id hid] at hknown
            cases hknown
          · exact hfresh
        have hshape : storedEntries loads raw =
            (before ++ (key, blob) :: between) ++ entry :: rest := by
          rw [hentries, hlater]
          simp
        rw [hshape] at hok
        have hget := restoreEntries_last hid hknown hfresh hlast hok
        rw [hwell id state later hknown hwellLast] at hget
        exact Option.some.inj hget
      · exact .inr hnone
  · intro h
    have hread : ∀ entry ∈ storedEntries loads raw, ∀ id, EntryOf py id entry →
        known id = true → ∃ state, ruleStateFromDict py entry.2 = .ok state := by
      intro entry hentry id hid hknown
      by_cases hwell : WellFormed py entry.2
      · obtain ⟨state, hstate⟩ := hwell
        exact ⟨state, hstate.read⟩
      · exact ⟨{}, ruleStateFromDict_eq_fresh.mpr (h.blank entry hentry id hid hknown hwell)⟩
    obtain ⟨restored, hok⟩ : ∃ restored,
        restoreEntries py known (storedEntries loads raw) ruleStates = .ok restored :=
      restoreEntries_isOk.mpr hread
    refine ⟨restored, ?_, ?_, ?_⟩
    · rw [restoreRuleStates_of_iterable h.iterable]
      exact hok
    · intro entry hentry hbad
      rcases taken_or_skipped py known entry with ⟨id, hid, hknown⟩ | hskip
      · exact .inr (ruleStateFromDict_eq_fresh.mpr (h.blank entry hentry id hid hknown hbad))
      · exact .inl hskip
    · intro id state later hknown hwellLast
      obtain ⟨before, key, blob, hentries, hid, hencodes⟩ := hwellLast.found
      rcases last_or_none (EntryOf py id) later with
        ⟨between, entry, rest, hlater, hid', hlast⟩ | hnone
      · rcases h.order id state later hknown hwellLast with hfresh | hnone
        · have hmem : entry ∈ later := by simp [hlater]
          have hblank := h.blank entry (by simp [hentries, hmem]) id hid' hknown
            (hwellLast.last entry hmem hid')
          have hshape : storedEntries loads raw =
              (before ++ (key, blob) :: between) ++ entry :: rest := by
            rw [hentries, hlater]
            simp
          rw [hshape] at hok
          rw [hfresh]
          exact restoreEntries_last hid' hknown (ruleStateFromDict_eq_fresh.mpr hblank) hlast hok
        · exact absurd hid' (hnone entry (by simp [hlater]))
      · rw [hentries] at hok
        exact restoreEntries_last hid hknown hencodes.read hnone hok

/-- A latch under a key that is no path, before the entry of another rule. -/
def badKey : String :=
  "\x7b\"7f0c1b1e-5b7a-4c58-9a44-2f6a3c1d9e10\": \x7b\"leaf_states\": \x7b\"x\": true\x7d\x7d, " ++
    "\"0d8a52c4-90c7-4e0f-8f0b-6b1d7a2c3e4f\": \x7b\"armed\": false\x7d\x7d"

/-- The key raises, and the other rule's state is lost with it. -/
theorem badKey_not_tolerated :
    ¬ Tolerates epochText Rules.loads (fun _ => true) (some badKey) .empty := by
  intro h
  obtain ⟨restored, hok, _⟩ := h
  have hraises :
      (restoreRuleStates epochText Rules.loads (fun _ => true) (some badKey) .empty).isOk =
        false := by
    decide +kernel
  rw [hok] at hraises
  cases hraises

end IotSaas.Rules
