import IotSaas.Lib.Record
import IotSaas.Realtime.Dumps
import IotSaas.Rules.Calls

/-!
# `Rules/Checkpoint.lean` — rule states across a restart

`snapshot_rule_states` writes every rule's state to Redis as one JSON document, and
`restore_rule_states` reads it back into the next process. A `dict` has an order of items here, the
one the document is written in; which one it is makes no difference to what comes back.

A state that calls have built comes back as it was (`readBack_ruleState`): the dotted keys of the
leaf maps are read as the paths they were written from, the root's empty key among them. So a run
that is restarted between any of its calls answers what it would have answered without
(`restarts_unseen`).
-/

set_option autoImplicit false

namespace IotSaas.Rules

open Lib
open JsonText (parse allOf allOf_some)
open Realtime (PyNumber dumps numerals parse_dumps numeralsOfMembers_eq)

/-- What Python makes of a text, or of a number of type `N`: `none` is a `ValueError`. -/
structure PyText (N : Type) where
  isoformat : Datetime → String
  fromisoformat : String → Option Datetime
  int : String → Option Int
  parseUuid : String → Option Uuid
  /-- `bool(number)`. -/
  nonzero : N → Bool

variable {N : Type}

/-! ## Writing -/

/-- `_path_key`. -/
def pathKey (path : Path) : String := ".".intercalate (path.map Nat.repr)

/-- `_leaf_states_to_dict`, of the items of the map. -/
def leafStatesToDict (states : List (Path × LeafState)) : Json N :=
  .obj (Record.ofPairs (states.map fun item => (pathKey item.1, .bool item.2.latchedTrue))).items

/-- `value.isoformat() if value else None`. -/
def timerToJson (isoformat : Datetime → String) (timer : Option Datetime) : Json N :=
  match timer with
  | some t => .str (isoformat t)
  | none => .null

/-- A rule's state and the items of its leaf maps. -/
structure Itemized where
  state : RuleState
  leafStates : List (Path × LeafState)
  resetLeafStates : List (Path × LeafState)
  lists_leafStates : Dict.Lists leafStates state.leafStates
  lists_resetLeafStates : Dict.Lists resetLeafStates state.resetLeafStates

/-- `rule_state_to_dict`. -/
def ruleStateToDict (isoformat : Datetime → String) (item : Itemized) : Json N :=
  .obj [("condition_since", timerToJson isoformat item.state.conditionSince),
    ("armed", .bool item.state.armed),
    ("last_fired_at", timerToJson isoformat item.state.lastFiredAt),
    ("leaf_states", leafStatesToDict item.leafStates),
    ("reset_leaf_states", leafStatesToDict item.resetLeafStates),
    ("condition_fingerprint", (item.state.conditionFingerprint.map .str).getD .null),
    ("active", .bool item.state.active),
    ("clear_since", timerToJson isoformat item.state.clearSince)]

/-- The payload of `snapshot_rule_states`, of the items of `_rule_states`. -/
def checkpoint (isoformat : Datetime → String) (entries : List (Uuid × Itemized)) : Json N :=
  .obj (Record.ofPairs
    (entries.map fun entry => (entry.1, ruleStateToDict isoformat entry.2))).items

/-- `snapshot_rule_states`: the text it stores. -/
def snapshotRuleStates (isoformat : Datetime → String) (entries : List (Uuid × Itemized)) :
    String :=
  String.ofList (dumps (checkpoint isoformat entries))

/-! ## Reading -/

/-- What stops `restore_rule_states`, and with it the start of the worker. -/
inductive RestoreError where
  | valueError | attributeError | recursionError
  deriving DecidableEq

/-- `bool(value)`. -/
def truthy (py : PyText N) : Json N → Bool
  | .null => false
  | .bool b => b
  | .num n => py.nonzero n
  | .str s => decide (s ≠ "")
  | .arr items => !items.isEmpty
  | .obj members => !members.isEmpty

/-- `tuple(int(i) for i in key.split(".")) if key else ()`. -/
def pathOfKey (py : PyText N) (key : String) : Option (List Int) :=
  if key = "" then some []
  else (key.toList.splitOn '.').mapM fun piece => py.int (String.ofList piece)

/-- The loop of `_leaf_states_from_dict`. -/
def readLeafStates (py : PyText N) :
    List (String × Json N) → Dict (List Int) LeafState →
      Except RestoreError (Dict (List Int) LeafState)
  | [], out => .ok out
  | (key, latched) :: rest, out =>
      match pathOfKey py key with
      | none => .error .valueError
      | some path => readLeafStates py rest (out.set path ⟨truthy py latched⟩)

/-- The leaf states at the positions of a tree. A key such as `"-1"` spells a path too, and the code
keeps its state in the map it restores; but an index is never negative, so no evaluation ever looks
that path up, and the model's map, which is one of positions, does not have it. -/
def atPositions (out : Dict (List Int) LeafState) : LeafStates :=
  ⟨fun path => out.get (path.map Int.ofNat)⟩

/-- `_leaf_states_from_dict`. -/
def leafStatesFromDict (py : PyText N) (raw : Option (Json N)) : Except RestoreError LeafStates :=
  match raw with
  | some (.obj members) =>
      (readLeafStates py (Record.ofPairs members).items .empty).map atPositions
  | _ => .ok .empty

/-- `_dt`. -/
def readTimer (py : PyText N) (value : Option (Json N)) : Option Datetime :=
  match value with
  | some (.str s) => py.fromisoformat s
  | _ => none

/-- `fp if isinstance(fp, str) else None`. -/
def readFingerprint (value : Option (Json N)) : Option String :=
  match value with
  | some (.str s) => some s
  | _ => none

/-- `rule_state_from_dict`. -/
def ruleStateFromDict (py : PyText N) (raw : Json N) : Except RestoreError RuleState :=
  match raw with
  | .obj members => do
      let raw := Record.ofPairs members
      let leafStates ← leafStatesFromDict py (raw.get "leaf_states")
      let resetLeafStates ← leafStatesFromDict py (raw.get "reset_leaf_states")
      return {
        conditionSince := readTimer py (raw.get "condition_since")
        armed := ((raw.get "armed").map (truthy py)).getD true
        lastFiredAt := readTimer py (raw.get "last_fired_at")
        leafStates := leafStates
        resetLeafStates := resetLeafStates
        conditionFingerprint := readFingerprint (raw.get "condition_fingerprint")
        active := ((raw.get "active").map (truthy py)).getD false
        clearSince := readTimer py (raw.get "clear_since") }
  | _ => .ok {}

/-- What `json.loads` does with a text. -/
inductive Loaded (N : Type) where
  | document (data : Json N)
  /-- A `ValueError`. -/
  | invalid
  /-- A `RecursionError`, which is no `ValueError`. -/
  | tooDeep

/-- `json.loads`, on the texts `json.dumps` prints. -/
def loads (text : String) : Loaded (List Char) :=
  match parse text.toList with
  | some data => .document data
  | none => .invalid

/-- The loop of `restore_rule_states`. `known` is `rule_id in _rules_by_id`. -/
def restoreEntries (py : PyText N) (known : Uuid → Bool) :
    List (String × Json N) → Dict Uuid RuleState → Except RestoreError (Dict Uuid RuleState)
  | [], ruleStates => .ok ruleStates
  | (ruleIdStr, blob) :: rest, ruleStates =>
      match py.parseUuid ruleIdStr with
      | none => restoreEntries py known rest ruleStates
      | some ruleId =>
          if known ruleId = false then restoreEntries py known rest ruleStates
          else
            match ruleStateFromDict py blob with
            | .error e => .error e
            | .ok state => restoreEntries py known rest (ruleStates.set ruleId state)

/-- `restore_rule_states`, given what the key holds in Redis. -/
def restoreRuleStates (py : PyText N) (loads : String → Loaded N) (known : Uuid → Bool)
    (raw : Option String) (ruleStates : Dict Uuid RuleState) :
    Except RestoreError (Dict Uuid RuleState) :=
  match raw with
  | none => .ok ruleStates
  | some text =>
      if text = "" then .ok ruleStates
      else
        match loads text with
        | .invalid => .ok ruleStates
        | .tooDeep => .error .recursionError
        | .document data =>
            -- `data or {}`
            if truthy py data = false then .ok ruleStates
            else
              match data with
              | .obj members =>
                  restoreEntries py known (Record.ofPairs members).items ruleStates
              | _ => .error .attributeError

/-! ## Path keys -/

theorem not_mem_repr (n : Nat) : '.' ∉ n.repr.toList := by
  intro h
  rw [Nat.toList_repr] at h
  have hdigit := Nat.isDigit_of_mem_toDigits (by decide) (by decide) h
  revert hdigit
  decide

theorem toList_pathKey (path : Path) :
    (pathKey path).toList = ['.'].intercalate (path.map fun i => i.repr.toList) := by
  rw [pathKey, String.toList_intercalate, List.map_map]
  rfl

/-- A path that is not the root's is what its key splits into. -/
theorem splitOn_pathKey {path : Path} (h : path ≠ []) :
    (pathKey path).toList.splitOn '.' = path.map fun i => i.repr.toList := by
  rw [toList_pathKey, List.splitOn_intercalate]
  · intro piece hpiece
    obtain ⟨i, _, rfl⟩ := List.mem_map.mp hpiece
    exact not_mem_repr i
  · simpa using h

/-- Only the root's key is empty. -/
theorem pathKey_eq_empty {path : Path} : pathKey path = "" ↔ path = [] := by
  constructor
  · intro h
    by_contra hne
    have hsplit := splitOn_pathKey hne
    rw [h] at hsplit
    cases path with
    | nil => exact hne rfl
    | cons i rest =>
      have hi : [] = i.repr.toList := (List.cons.inj hsplit).1
      exact Nat.repr_ne_empty (String.toList_inj.mp hi.symm)
  · intro h
    rw [h]
    rfl

/-- **No two paths share a key.** -/
theorem pathKey_injective : Function.Injective pathKey := by
  intro path path' h
  by_cases hpath : path = []
  · subst hpath
    exact (pathKey_eq_empty.mp h.symm).symm
  · have hpath' : path' ≠ [] := by
      intro hnil
      exact hpath (pathKey_eq_empty.mp (h.trans (pathKey_eq_empty.mpr hnil)))
    have hsplit : path.map (fun i => i.repr.toList) = path'.map fun i => i.repr.toList := by
      rw [← splitOn_pathKey hpath, h, splitOn_pathKey hpath']
    refine List.map_injective_iff.mpr ?_ hsplit
    intro i j hij
    have hdigits := congrArg (fun chars => Nat.ofDigitChars 10 chars 0) hij
    simpa only [Nat.toList_repr, Nat.ofDigitChars_ten_toDigits] using hdigits

section

variable {py : PyText N} (hint : ∀ n : Nat, py.int n.repr = some n)

include hint

/-- A key is read as the path it was written from. -/
theorem pathOfKey_pathKey (path : Path) :
    pathOfKey py (pathKey path) = some (path.map Int.ofNat) := by
  unfold pathOfKey
  by_cases hpath : path = []
  · subst hpath
    rw [if_pos (pathKey_eq_empty.mpr rfl)]
    rfl
  · rw [if_neg fun h => hpath (pathKey_eq_empty.mp h), splitOn_pathKey hpath]
    clear hpath
    induction path with
    | nil => rfl
    | cons i rest ih =>
      rw [List.map_cons, List.mapM_cons, ih, String.ofList_toList, hint]
      rfl

/-! ## One state -/

omit hint in
theorem atPositions_set (out : Dict (List Int) LeafState) (path : Path) (leafState : LeafState) :
    atPositions (out.set (path.map Int.ofNat) leafState) =
      (atPositions out).set path leafState := by
  ext q st
  have hinj : Function.Injective (List.map Int.ofNat) :=
    List.map_injective_iff.mpr fun _ _ h => Int.ofNat.inj h
  simp only [atPositions, Dict.get_set, hinj.eq_iff]

theorem readLeafStates_written (leaves : List (Path × LeafState)) :
    ∀ out : Dict (List Int) LeafState, ∃ out',
      readLeafStates py (leaves.map fun item => (pathKey item.1, .bool item.2.latchedTrue)) out =
          .ok out' ∧
        atPositions out' = leaves.foldl (fun d item => d.set item.1 item.2) (atPositions out) := by
  induction leaves with
  | nil =>
    intro out
    exact ⟨out, rfl, rfl⟩
  | cons item rest ih =>
    intro out
    obtain ⟨out', hread, hat⟩ := ih (out.set (item.1.map Int.ofNat) item.2)
    refine ⟨out', ?_, ?_⟩
    · rw [List.map_cons, readLeafStates, pathOfKey_pathKey hint]
      exact hread
    · rw [hat, atPositions_set, List.foldl_cons]

omit hint in
/-- The members of a written leaf map: no two paths share a key, so none is lost. -/
theorem leafStatesToDict_eq {leaves : List (Path × LeafState)}
    (h : (leaves.map Prod.fst).Nodup) :
    (leafStatesToDict leaves : Json N) =
      .obj (leaves.map fun item => (pathKey item.1, .bool item.2.latchedTrue)) := by
  rw [leafStatesToDict, Record.items_ofPairs]
  have hkeys := h.map pathKey_injective
  simpa [List.map_map, Function.comp_def] using hkeys

theorem leafStatesFromDict_written {leaves : List (Path × LeafState)} {d : LeafStates}
    (h : Dict.Lists leaves d) :
    leafStatesFromDict py (some (leafStatesToDict leaves)) = .ok d := by
  have hkeys : ((leaves.map fun item =>
      (pathKey item.1, (Json.bool item.2.latchedTrue : Json N))).map Prod.fst).Nodup := by
    simpa [List.map_map, Function.comp_def] using h.nodup.map pathKey_injective
  obtain ⟨out', hread, hat⟩ := readLeafStates_written hint leaves .empty
  rw [leafStatesToDict_eq h.nodup]
  unfold leafStatesFromDict
  dsimp only
  rw [Record.items_ofPairs hkeys, hread]
  show Except.ok (atPositions out') = _
  rw [hat, ← h.ofList_eq]
  rfl

/-- **What was written of a state is read as that state.** -/
theorem ruleStateFromDict_written {isoformat : Datetime → String}
    (hdate : ∀ t, py.fromisoformat (isoformat t) = some t) (item : Itemized) :
    ruleStateFromDict py (ruleStateToDict isoformat item) = .ok item.state := by
  have htimer : ∀ timer : Option Datetime,
      readTimer py (some (timerToJson isoformat timer)) = timer := by
    intro timer
    cases timer with
    | none => rfl
    | some t => exact hdate t
  have hfingerprint : ∀ fingerprint : Option String,
      readFingerprint (some ((fingerprint.map Json.str).getD Json.null : Json N)) =
        fingerprint := by
    intro fingerprint
    cases fingerprint <;> rfl
  unfold ruleStateFromDict ruleStateToDict
  dsimp only
  simp only [Record.get]
  rw [Record.items_ofPairs (by simp)]
  simp only [List.lookup_cons, String.reduceBEq, leafStatesFromDict_written hint item.lists_leafStates,
    leafStatesFromDict_written hint item.lists_resetLeafStates, htimer, hfingerprint]
  rfl

end

/-! ## The text -/

/-- Members written alike, value by value. -/
theorem numerals_members {α : Type} (items : List α) (key : α → String) {v : α → Json PyNumber}
    {w : α → Json (List Char)} (h : ∀ item ∈ items, numerals (v item) = some (w item)) :
    numerals (.obj (items.map fun item => (key item, v item))) =
      some (.obj (items.map fun item => (key item, w item))) := by
  have hall : allOf (items.map fun item => (numerals (v item)).map (Prod.mk (key item))) =
      some (items.map fun item => (key item, w item)) := by
    induction items with
    | nil => rfl
    | cons item rest ih =>
      obtain ⟨hitem, hrest⟩ := List.forall_mem_cons.mp h
      rw [List.map_cons, hitem, Option.map_some, allOf, ih hrest]
      rfl
  rw [numerals, numeralsOfMembers_eq, List.map_map]
  exact congrArg (Option.map Json.obj) hall

theorem numerals_leafStatesToDict {leaves : List (Path × LeafState)}
    (h : (leaves.map Prod.fst).Nodup) :
    numerals (leafStatesToDict leaves) = some (leafStatesToDict leaves) := by
  rw [leafStatesToDict_eq h, leafStatesToDict_eq h]
  exact numerals_members leaves (fun item => pathKey item.1) fun item _ => rfl

theorem numerals_ruleStateToDict (isoformat : Datetime → String) (item : Itemized) :
    numerals (ruleStateToDict isoformat item) = some (ruleStateToDict isoformat item) := by
  have htimer : ∀ timer : Option Datetime,
      numerals (timerToJson isoformat timer) = some (timerToJson isoformat timer) := by
    intro timer
    cases timer <;> rfl
  have hfingerprint : ∀ fingerprint : Option String,
      numerals ((fingerprint.map Json.str).getD Json.null) =
        some ((fingerprint.map Json.str).getD Json.null) := by
    intro fingerprint
    cases fingerprint <;> rfl
  unfold ruleStateToDict
  simp only [numerals, numeralsOfMembers_eq, List.map_cons, List.map_nil, htimer, hfingerprint,
    numerals_leafStatesToDict item.lists_leafStates.nodup,
    numerals_leafStatesToDict item.lists_resetLeafStates.nodup]
  rfl

/-- The items of `_rule_states`, with those of each state. -/
def Entries (entries : List (Uuid × Itemized)) (ruleStates : Dict Uuid RuleState) : Prop :=
  Dict.Lists (entries.map fun entry => (entry.1, entry.2.state)) ruleStates

theorem Entries.nodup {entries : List (Uuid × Itemized)} {ruleStates : Dict Uuid RuleState}
    (h : Entries entries ruleStates) : (entries.map Prod.fst).Nodup := by
  simpa [List.map_map, Function.comp_def] using Dict.Lists.nodup h

theorem checkpoint_eq {isoformat : Datetime → String} {entries : List (Uuid × Itemized)}
    (h : (entries.map Prod.fst).Nodup) :
    (checkpoint isoformat entries : Json N) =
      .obj (entries.map fun entry => (entry.1, ruleStateToDict isoformat entry.2)) := by
  rw [checkpoint, Record.items_ofPairs]
  simpa [List.map_map, Function.comp_def] using h

/-- **The stored text is read as the document it was printed from.** -/
theorem loads_snapshotRuleStates (isoformat : Datetime → String)
    {entries : List (Uuid × Itemized)} (h : (entries.map Prod.fst).Nodup) :
    loads (snapshotRuleStates isoformat entries) = .document (checkpoint isoformat entries) := by
  have hnumerals : numerals (checkpoint isoformat entries) =
      some (checkpoint isoformat entries) := by
    rw [checkpoint_eq h, checkpoint_eq h]
    exact numerals_members entries Prod.fst fun entry _ =>
      numerals_ruleStateToDict isoformat entry.2
  unfold loads snapshotRuleStates
  rw [String.toList_ofList, parse_dumps, hnumerals]

/-! ## All states -/

section

variable {py : PyText N} (known : Uuid → Bool)

/-- Entries that each read as a state are taken over, those of known rules. -/
theorem restoreEntries_written {α : Type} (entries : List α) {id : α → Uuid}
    {blob : α → Json N} {state : α → RuleState}
    (hid : ∀ entry ∈ entries, py.parseUuid (id entry) = some (id entry))
    (hblob : ∀ entry ∈ entries, ruleStateFromDict py (blob entry) = .ok (state entry)) :
    ∀ ruleStates : Dict Uuid RuleState,
      restoreEntries py known (entries.map fun entry => (id entry, blob entry)) ruleStates =
        .ok (((entries.map fun entry => (id entry, state entry)).filter fun item =>
          known item.1).foldl (fun d item => d.set item.1 item.2) ruleStates) := by
  induction entries with
  | nil =>
    intro ruleStates
    rfl
  | cons entry rest ih =>
    intro ruleStates
    obtain ⟨hentry, hrest⟩ := List.forall_mem_cons.mp hid
    obtain ⟨hstate, hstates⟩ := List.forall_mem_cons.mp hblob
    rw [List.map_cons, List.map_cons, restoreEntries, hentry, List.filter_cons]
    dsimp only
    by_cases hknown : known (id entry) = true
    · rw [if_neg (by simp [hknown]), hstate, if_pos hknown, List.foldl_cons]
      exact ih hrest hstates _
    · rw [if_pos (by simpa using hknown), if_neg hknown]
      exact ih hrest hstates _

end

theorem snapshotRuleStates_ne_empty (isoformat : Datetime → String)
    (entries : List (Uuid × Itemized)) : snapshotRuleStates isoformat entries ≠ "" := by
  intro h
  have hchars := congrArg String.toList h
  rw [snapshotRuleStates, String.toList_ofList, checkpoint, dumps] at hchars
  cases hchars

/-- **What comes back is every state of a known rule.** -/
theorem restore_snapshot {py : PyText (List Char)}
    (hdate : ∀ t, py.fromisoformat (py.isoformat t) = some t)
    (hint : ∀ n : Nat, py.int n.repr = some n) {known : Uuid → Bool}
    {ruleStates : Dict Uuid RuleState} {entries : List (Uuid × Itemized)}
    (h : Entries entries ruleStates)
    (hid : ∀ entry ∈ entries, py.parseUuid entry.1 = some entry.1) :
    restoreRuleStates py loads known (some (snapshotRuleStates py.isoformat entries)) .empty =
      .ok (ruleStates.filter known) := by
  have hloaded := loads_snapshotRuleStates py.isoformat h.nodup
  have hrestored := restoreEntries_written known entries hid
    (fun entry _ => ruleStateFromDict_written hint hdate entry.2) Dict.empty
  rw [← (Dict.Lists.filter h known).ofList_eq]
  unfold restoreRuleStates
  dsimp only
  rw [if_neg (snapshotRuleStates_ne_empty _ _), hloaded, checkpoint_eq h.nodup]
  dsimp only
  cases entries with
  | nil => rfl
  | cons entry rest =>
    have hkeys : (((entry :: rest).map fun entry =>
        (entry.1, (ruleStateToDict py.isoformat entry.2 : Json (List Char)))).map
          Prod.fst).Nodup := by
      simpa [List.map_map, Function.comp_def] using h.nodup
    rw [if_neg (by simp [truthy]), Record.items_ofPairs hkeys, hrestored]
    rfl

/-! ## What calls build -/

section

variable {F : Type} [PyFloat F]

mutual

theorem evaluateNode_finite (snapshot : MetricSnapshot F) (now : Datetime) :
    ∀ (node : Node F) (leafStates : LeafStates) (path : Path), leafStates.Finite →
      (evaluateNode snapshot now node leafStates path).2.Finite
  | .leaf leaf, leafStates, path, h => by
      rw [evaluateNode]
      exact h.set _ _
  | .group op predicates, leafStates, path, h => by
      rw [evaluateNode]
      exact evaluateNodes_finite snapshot now predicates leafStates path 0 h

theorem evaluateNodes_finite (snapshot : MetricSnapshot F) (now : Datetime) :
    ∀ (nodes : List (Node F)) (leafStates : LeafStates) (path : Path) (i : Nat),
      leafStates.Finite → (evaluateNodes snapshot now nodes leafStates path i).2.Finite
  | [], leafStates, path, i, h => by
      rw [evaluateNodes]
      exact h
  | child :: rest, leafStates, path, i, h => by
      rw [evaluateNodes]
      exact evaluateNodes_finite snapshot now rest _ path (i + 1)
        (evaluateNode_finite snapshot now child leafStates (path ++ [i]) h)

end

theorem evaluateTree_finite (rule : Rule F) (snapshot : MetricSnapshot F) (now : Datetime)
    {leafStates : LeafStates} (h : leafStates.Finite) :
    (evaluateTree rule snapshot now leafStates).2.Finite := by
  unfold evaluateTree
  cases rule.condition with
  | none => exact h
  | some node => exact evaluateNode_finite snapshot now node leafStates [] h

/-- Both leaf maps have items to write. -/
structure Writable (state : RuleState) : Prop where
  leafStates : state.leafStates.Finite
  resetLeafStates : state.resetLeafStates.Finite

theorem Writable.itemized {state : RuleState} (h : Writable state) :
    ∃ item : Itemized, item.state = state := by
  obtain ⟨leaves, hleaves⟩ := h.leafStates
  obtain ⟨resets, hresets⟩ := h.resetLeafStates
  exact ⟨⟨state, leaves, resets, hleaves, hresets⟩, rfl⟩

theorem writable_start : Writable {} := ⟨Dict.finite_empty, Dict.finite_empty⟩

theorem Writable.evaluate {state : RuleState} (h : Writable state) (rule : Rule F)
    (snapshot : MetricSnapshot F) (now : Datetime) :
    Writable (evaluate rule snapshot now state).2 := by
  obtain ⟨hleaves, hresets, _⟩ := evaluate_frame rule snapshot now state
  constructor
  · rw [hleaves]
    exact evaluateTree_finite rule snapshot now h.leafStates
  · rw [hresets]
    cases hreset : resetResult rule snapshot now state with
    | none =>
      rw [rearmed_resetLeafStates_of_none hreset]
      exact h.resetLeafStates
    | some result =>
      obtain ⟨reset, _, hlatches⟩ := rearmed_resetLeafStates_of_some (by rw [hreset]; rfl)
      rw [hlatches]
      exact evaluateNode_finite snapshot now reset _ [] h.resetLeafStates

theorem Writable.evaluateEvent {state : RuleState} (h : Writable state) (rule : Rule F)
    (snapshot : MetricSnapshot F) (now : Datetime) :
    Writable (evaluateEvent rule snapshot now state).2 := by
  obtain ⟨lastFiredAt, heq, _⟩ := evaluateEvent_frame rule snapshot now state
  rw [heq]
  exact ⟨evaluateTree_finite rule snapshot now h.leafStates, h.resetLeafStates⟩

theorem Writable.align {state : RuleState} (h : Writable state) (fingerprint : String) :
    Writable (alignStateToCondition state fingerprint) := by
  unfold alignStateToCondition
  cases state.conditionFingerprint with
  | none => exact ⟨h.leafStates, h.resetLeafStates⟩
  | some fp =>
    dsimp only
    split
    · exact ⟨h.leafStates, h.resetLeafStates⟩
    · exact ⟨Dict.finite_empty, Dict.finite_empty⟩

theorem Writable.callStep {state : RuleState} (h : Writable state) (call : Call F) :
    Writable (callStep state call).2 := by
  cases call with
  | evaluate rule snapshot now => exact h.evaluate rule snapshot now
  | evaluateEvent rule snapshot now => exact h.evaluateEvent rule snapshot now
  | alignStateToCondition fingerprint => exact h.align fingerprint
  | resetLatch => exact ⟨h.leafStates, h.resetLeafStates⟩

theorem writable_finalState (calls : List (Call F)) :
    Writable (finalState callStep {} calls) :=
  finalState_invariant writable_start fun _ call h => h.callStep call

/-! ## Runs with restarts -/

/-- A call on `_rule_states[ruleId]`. -/
def callRule (ruleStates : Dict Uuid RuleState) (e : Uuid × Call F) :
    Option Firing × Dict Uuid RuleState :=
  let r := callStep (ruleStates.getD e.1 {}) e.2
  (r.1, ruleStates.set e.1 r.2)

/-- The states have been written out, in some order, and read back by the next process. -/
def Restarts (py : PyText (List Char)) (known : Uuid → Bool)
    (ruleStates ruleStates' : Dict Uuid RuleState) : Prop :=
  ∃ entries, Entries entries ruleStates ∧
    restoreRuleStates py loads known (some (snapshotRuleStates py.isoformat entries)) .empty =
      .ok ruleStates'

/-- What happens to the rule states. A restart comes with the rules there are then. -/
inductive RuleEvent (F : Type) where
  | call (ruleId : Uuid) (call : Call F)
  | restart (known : Uuid → Bool)

omit [PyFloat F] in
/-- The calls of a run. -/
def callsOf : List (RuleEvent F) → List (Uuid × Call F)
  | [] => []
  | .call ruleId call :: rest => (ruleId, call) :: callsOf rest
  | .restart _ :: rest => callsOf rest

/-- A run, with what its calls answer. -/
inductive Runs (py : PyText (List Char)) :
    Dict Uuid RuleState → List (RuleEvent F) → List (Option Firing) → Prop where
  | done (ruleStates : Dict Uuid RuleState) : Runs py ruleStates [] []
  | call {ruleStates : Dict Uuid RuleState} {ruleId : Uuid} {call : Call F}
      {rest : List (RuleEvent F)} {out : List (Option Firing)}
      (next : Runs py (callRule ruleStates (ruleId, call)).2 rest out) :
      Runs py ruleStates (.call ruleId call :: rest)
        ((callRule ruleStates (ruleId, call)).1 :: out)
  | restart {ruleStates ruleStates' : Dict Uuid RuleState} {known : Uuid → Bool}
      {rest : List (RuleEvent F)} {out : List (Option Firing)}
      (restored : Restarts py known ruleStates ruleStates') (next : Runs py ruleStates' rest out) :
      Runs py ruleStates (.restart known :: rest) out

/-- Every rule that is called after a restart is a rule there is at the restart. -/
def KnownLater : List (RuleEvent F) → Prop
  | [] => True
  | .call _ _ :: rest => KnownLater rest
  | .restart known :: rest => (∀ e ∈ callsOf rest, known e.1 = true) ∧ KnownLater rest

/-- What a table of states has to be to be written out and found again. -/
structure Restorable (py : PyText (List Char)) (ruleStates : Dict Uuid RuleState) : Prop where
  finite : ruleStates.Finite
  ids : ∀ id state, ruleStates.get id = some state → py.parseUuid id = some id
  writable : ∀ id state, ruleStates.get id = some state → Writable state

variable {py : PyText (List Char)}

omit [PyFloat F] in
theorem restorable_empty : Restorable py .empty :=
  ⟨Dict.finite_empty, by simp, by simp⟩

omit [PyFloat F] in
theorem Restorable.filter {ruleStates : Dict Uuid RuleState} (h : Restorable py ruleStates)
    (known : Uuid → Bool) : Restorable py (ruleStates.filter known) := by
  have hget : ∀ id state, (ruleStates.filter known).get id = some state →
      ruleStates.get id = some state := by
    intro id state hstate
    rw [Dict.get_filter] at hstate
    split at hstate
    · exact hstate
    · cases hstate
  exact ⟨h.finite.filter known, fun id state hs => h.ids id state (hget id state hs),
    fun id state hs => h.writable id state (hget id state hs)⟩

theorem Restorable.callRule {ruleStates : Dict Uuid RuleState} (h : Restorable py ruleStates)
    {e : Uuid × Call F} (hid : py.parseUuid e.1 = some e.1) :
    Restorable py (callRule ruleStates e).2 := by
  have hbefore : Writable (ruleStates.getD e.1 {}) := by
    unfold Dict.getD
    cases hget : ruleStates.get e.1 with
    | none => exact writable_start
    | some state => exact h.writable e.1 state hget
  refine ⟨h.finite.set _ _, ?_, ?_⟩
  · intro id _ hget
    by_cases he : id = e.1
    · rw [he]
      exact hid
    · exact h.ids id _ ((Dict.get_set_ne _ _ he).symm.trans hget)
  · intro id state hget
    by_cases he : id = e.1
    · subst he
      cases (Dict.get_set_self _ _ _).symm.trans hget
      exact hbefore.callStep e.2
    · exact h.writable id state ((Dict.get_set_ne _ _ he).symm.trans hget)

omit [PyFloat F] in
/-- Such a table has entries to write. -/
theorem Restorable.entries {ruleStates : Dict Uuid RuleState} (h : Restorable py ruleStates) :
    ∃ entries, Entries entries ruleStates := by
  obtain ⟨items, hitems⟩ := h.finite
  have hall : ∀ item ∈ items, Writable item.2 := by
    intro item hitem
    exact h.writable item.1 item.2 ((hitems.get_iff _ _).mpr hitem)
  have hentries : ∃ entries : List (Uuid × Itemized),
      entries.map (fun entry => (entry.1, entry.2.state)) = items := by
    clear hitems
    induction items with
    | nil => exact ⟨[], rfl⟩
    | cons item rest ih =>
      obtain ⟨hitem, hrest⟩ := List.forall_mem_cons.mp hall
      obtain ⟨entries, heq⟩ := ih hrest
      obtain ⟨written, hstate⟩ := hitem.itemized
      refine ⟨(item.1, written) :: entries, ?_⟩
      rw [List.map_cons, heq, hstate]
  obtain ⟨entries, rfl⟩ := hentries
  exact ⟨entries, hitems⟩

section

variable (hdate : ∀ t, py.fromisoformat (py.isoformat t) = some t)
  (hint : ∀ n : Nat, py.int n.repr = some n)

include hdate hint

omit [PyFloat F] in
/-- **A restart keeps the states of the rules there are, as they were.** -/
theorem restarts_iff {ruleStates ruleStates' : Dict Uuid RuleState} {known : Uuid → Bool}
    (h : Restorable py ruleStates) :
    Restarts py known ruleStates ruleStates' ↔ ruleStates' = ruleStates.filter known := by
  have hback : ∀ entries, Entries entries ruleStates →
      restoreRuleStates py loads known (some (snapshotRuleStates py.isoformat entries)) .empty =
        .ok (ruleStates.filter known) := by
    intro entries hentries
    refine restore_snapshot hdate hint hentries ?_
    intro entry hentry
    exact h.ids entry.1 entry.2.state ((Dict.Lists.get_iff hentries _ _).mpr
      (List.mem_map_of_mem hentry))
  constructor
  · intro hrestart
    obtain ⟨entries, hentries, heq⟩ := hrestart
    rw [hback entries hentries] at heq
    exact (Except.ok.inj heq).symm
  · intro heq
    obtain ⟨entries, hentries⟩ := h.entries
    exact ⟨entries, hentries, heq ▸ hback entries hentries⟩

/-- **Restarts are not seen**: the calls of a run answer what they answer in a row, on any table
that agrees on the rules called. -/
theorem restarts_unseen : ∀ (events : List (RuleEvent F)) (ruleStates t : Dict Uuid RuleState),
    Restorable py ruleStates → (∀ e ∈ callsOf events, py.parseUuid e.1 = some e.1) →
    KnownLater events → (∀ e ∈ callsOf events, ruleStates.get e.1 = t.get e.1) →
    ∀ out, Runs py ruleStates events out ↔ out = answers callRule t (callsOf events)
  | [], ruleStates, t, _, _, _, _, out => by
      constructor
      · intro h
        cases h
        rfl
      · intro h
        rw [h]
        exact .done ruleStates
  | .call ruleId call :: rest, ruleStates, t, h, hids, hknown, hagree, out => by
      obtain ⟨hid, hids⟩ := List.forall_mem_cons.mp hids
      obtain ⟨hhere, hagree⟩ := List.forall_mem_cons.mp hagree
      have hgetD : ruleStates.getD ruleId {} = t.getD ruleId {} := by
        unfold Dict.getD
        rw [hhere]
      -- The two tables agree on every rule still to be called, this one first.
      have hanswer : (callRule ruleStates (ruleId, call)).1 = (callRule t (ruleId, call)).1 := by
        unfold callRule
        rw [hgetD]
      have hnext := restarts_unseen rest (callRule ruleStates (ruleId, call)).2
        (callRule t (ruleId, call)).2 (h.callRule hid) hids hknown (by
          intro e he
          simp only [callRule, Dict.get_set, hgetD, hagree e he])
      rw [callsOf, answers, ← hanswer]
      constructor
      · intro hruns
        cases hruns with
        | call next => rw [(hnext _).mp next]
      · intro heq
        rw [heq]
        exact .call ((hnext _).mpr rfl)
  | .restart known :: rest, ruleStates, t, h, hids, hknown, hagree, out => by
      have hnext := restarts_unseen rest (ruleStates.filter known) t (h.filter known) hids
        hknown.2 (by
          intro e he
          rw [Dict.get_filter, if_pos (hknown.1 e he), hagree e he]) out
      rw [callsOf, ← hnext]
      constructor
      · intro hruns
        cases hruns with
        | restart restored next =>
          rw [(restarts_iff hdate hint h).mp restored] at next
          exact next
      · intro hruns
        exact .restart ((restarts_iff hdate hint h).mpr rfl) hruns

/-- **The checkpoint is exact.** The state any calls have built can be written, and however its
leaf maps are listed the text reads as that state; and a run restarted anywhere, any number of
times, answers what its calls answer without. -/
theorem checkpoint_exact :
    (∀ calls : List (Call F), Writable (finalState callStep {} calls) ∧
      ∀ item : Itemized, item.state = finalState callStep {} calls →
        ∃ data, loads (String.ofList (dumps (ruleStateToDict py.isoformat item))) =
            .document data ∧
          ruleStateFromDict py data = .ok (finalState callStep {} calls)) ∧
      ∀ events : List (RuleEvent F), (∀ e ∈ callsOf events, py.parseUuid e.1 = some e.1) →
        KnownLater events →
        ∀ out, Runs py .empty events out ↔ out = answers callRule .empty (callsOf events) := by
  constructor
  · intro calls
    refine ⟨writable_finalState calls, ?_⟩
    intro item hitem
    refine ⟨ruleStateToDict py.isoformat item, ?_, ?_⟩
    · unfold loads
      rw [String.toList_ofList, parse_dumps, numerals_ruleStateToDict]
    · rw [← hitem]
      exact ruleStateFromDict_written hint hdate item
  · intro events hids hknown
    exact restarts_unseen hdate hint events .empty .empty restorable_empty hids hknown
      fun _ _ => rfl

end

end

/-! ## A thermostat across a restart -/

/-- Texts of Python's, as far as a run at the epoch has any. -/
def epochText : PyText (List Char) where
  isoformat t :=
    match t with
    | .ofNat 0 => "1970-01-01T00:00:00+00:00"
    | .ofNat n => "+" ++ n.repr
    | .negSucc n => "-" ++ n.repr
  fromisoformat s :=
    match s.toList with
    | '+' :: digits => some (Int.ofNat (Nat.ofDigitChars 10 digits 0))
    | '-' :: digits => some (Int.negSucc (Nat.ofDigitChars 10 digits 0))
    | _ => if s = "1970-01-01T00:00:00+00:00" then some 0 else none
  int s :=
    if s ≠ "" ∧ s.toList.all Char.isDigit = true then
      some (Int.ofNat (Nat.ofDigitChars 10 s.toList 0))
    else none
  parseUuid s := some s
  nonzero numeral := decide (numeral ≠ ['0'])

theorem epochText_date (t : Datetime) :
    epochText.fromisoformat (epochText.isoformat t) = some t := by
  cases t with
  | ofNat n =>
    cases n with
    | zero => rfl
    | succ n =>
      show epochText.fromisoformat ("+" ++ (n + 1).repr) = _
      simp [epochText, Nat.toList_repr]
  | negSucc n =>
    show epochText.fromisoformat ("-" ++ n.repr) = _
    simp [epochText, Nat.toList_repr]

theorem epochText_int (n : Nat) : epochText.int n.repr = some n := by
  have hdigits : n.repr ≠ "" ∧ n.repr.toList.all Char.isDigit = true := by
    refine ⟨Nat.repr_ne_empty, List.all_eq_true.mpr ?_⟩
    intro c hc
    rw [Nat.toList_repr] at hc
    exact Nat.isDigit_of_mem_toDigits (by decide) (by decide) hc
  show ite _ _ _ = _
  rw [if_pos hdigits, Nat.toList_repr, Nat.ofDigitChars_ten_toDigits]
  rfl

/-- Fired, written out, read back: the rule is still disarmed. -/
theorem checkpoint_exact_thermostat :
    Runs epochText .empty
      [.call "7f0c1b1e-5b7a-4c58-9a44-2f6a3c1d9e10" (.evaluate thermostat (reading 31 0) 0),
        .restart fun _ => true,
        .call "7f0c1b1e-5b7a-4c58-9a44-2f6a3c1d9e10" (.evaluate thermostat (reading 31 0) 0)]
      [some ⟨"thermostat", .fire⟩, none] :=
  ((checkpoint_exact epochText_date epochText_int).2
    [.call "7f0c1b1e-5b7a-4c58-9a44-2f6a3c1d9e10" (.evaluate thermostat (reading 31 0) 0),
      .restart fun _ => true,
      .call "7f0c1b1e-5b7a-4c58-9a44-2f6a3c1d9e10" (.evaluate thermostat (reading 31 0) 0)]
    (fun _ _ => rfl) ⟨fun _ _ => rfl, trivial⟩ _).mpr (by decide +kernel)

end IotSaas.Rules
