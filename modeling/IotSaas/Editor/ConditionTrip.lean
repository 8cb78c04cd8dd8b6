import IotSaas.Editor.Accepts
import IotSaas.Rules.TreeValue

/-!
# `Editor/ConditionTrip.lean` — a condition through the editor and back

A stored tree becomes contacts and groups, is normalized, and becomes a tree again. A set goes
through its text on the way, the margin of a leaf that has none to latch on is dropped, and groups
may be merged; the value is the same after every run (`condition_trip`).
-/

set_option autoImplicit false

namespace IotSaas.Editor

open Lib Rules Api

variable {F : Type}

/-! ## What the worker evaluates -/

/-- A stored leaf, as the evaluator reads it. -/
def toLeaf (leaf : Api.ConditionLeaf F) : Rules.ConditionLeaf F :=
  ⟨deviceText leaf.deviceId, leaf.metric, leaf.test⟩

mutual

/-- A stored tree, as the evaluator reads it. -/
def toNode : Api.ConditionNode F → Node F
  | .leaf l => .leaf (toLeaf l)
  | .group op predicates => .group op (toNodes predicates)

def toNodes : List (Api.ConditionNode F) → List (Node F)
  | [] => []
  | node :: rest => toNode node :: toNodes rest

end

section

variable [JsonNumber F] {py : Pydantic F} {js : Js F}

/-! ## Sets -/

/-- Two numbers no reading tells apart: a zero and its negative are printed alike. -/
def SameNumber (x y : F) : Prop := ∀ z : F, PyFloat.eq z x = PyFloat.eq z y

/-- JavaScript reads a number it printed: the text has no comma and no space in it, and is a number
that is the same to a reading. -/
structure NumberReadsBack (js : Js F) (x : F) : Prop where
  parsed : ∃ y, js.parseNumber (js.showNumber x) = .finite y ∧ SameNumber x y
  shown : js.showNumber x ≠ ""
  plain : ∀ c ∈ (js.showNumber x).toList, c ≠ ',' ∧ isJsSpace c = false

/-- The pieces of a joined text. -/
theorem joined_pieces {texts : List String} (hne : texts ≠ [])
    (h : ∀ text ∈ texts, text ≠ "" ∧ ∀ c ∈ text.toList, c ≠ ',' ∧ isJsSpace c = false) :
    ((((", ".intercalate texts).toList.splitOn ',').map fun piece =>
      jsTrim (String.ofList piece)).filter fun piece => piece ≠ "") = texts := by
  have htrim : ∀ piece : List Char, jsTrim (String.ofList piece) =
      String.ofList (trim isJsSpace piece) := by
    intro piece
    rw [jsTrim, String.toList_ofList]
  have hpieces : ((", ".intercalate texts).toList.splitOn ',').map (trim isJsSpace) =
      texts.map String.toList := by
    rw [String.toList_intercalate]
    refine map_trim_splitOn rfl (by decide) (by simpa using hne) ?_
    intro piece hpiece
    obtain ⟨text, htext, rfl⟩ := List.mem_map.mp hpiece
    exact (h text htext).2
  have hmap : ((", ".intercalate texts).toList.splitOn ',').map
      (fun piece => jsTrim (String.ofList piece)) = texts := by
    have hcomp : (fun piece => jsTrim (String.ofList piece)) =
        String.ofList ∘ trim isJsSpace := funext htrim
    rw [hcomp, ← List.map_map, hpieces, List.map_map]
    simp
  rw [hmap, List.filter_eq_self]
  intro text htext
  simpa using (h text htext).1

/-- **A set is read back**, number by number. -/
theorem setNumbers_joined {values : List F} (hne : values ≠ [])
    (h : ∀ x ∈ values, NumberReadsBack js x) :
    ∃ values', setNumbers js (", ".intercalate (values.map js.showNumber)) =
      values'.map .finite ∧ List.Forall₂ SameNumber values values' := by
  have hread : ∀ values : List F, (∀ x ∈ values, NumberReadsBack js x) →
      ∃ values', (values.map js.showNumber).map js.parseNumber = values'.map .finite ∧
        List.Forall₂ SameNumber values values' := by
    intro values h
    induction values with
    | nil => exact ⟨[], rfl, .nil⟩
    | cons x rest ih =>
      obtain ⟨y, hy, hsame⟩ := (h x List.mem_cons_self).parsed
      obtain ⟨rest', hrest, hsames⟩ := ih fun z hz => h z (List.mem_cons_of_mem _ hz)
      refine ⟨y :: rest', ?_, .cons hsame hsames⟩
      rw [List.map_cons, List.map_cons, List.map_cons, hy, hrest]
  unfold setNumbers
  rw [joined_pieces (by simpa using hne)]
  · exact hread values h
  · intro text htext
    obtain ⟨x, hx, rfl⟩ := List.mem_map.mp htext
    exact ⟨(h x hx).shown, (h x hx).plain⟩

theorem compareSet_same {values values' : List F} (h : List.Forall₂ SameNumber values values')
    (operator : SetOperator) (z : F) :
    compareSet operator z values = compareSet operator z values' := by
  have hany : values.any (PyFloat.eq z) = values'.any (PyFloat.eq z) := by
    induction h with
    | nil => rfl
    | cons hsame _ ih => rw [List.any_cons, List.any_cons, hsame z, ih]
  unfold compareSet
  rw [hany]

omit [JsonNumber F] in
theorem filterMap_sent (values : List F) :
    ((values.map JsNumber.finite).filterMap sentNumber) = values.map some := by
  rw [List.filterMap_map]
  show values.filterMap (some ∘ some) = _
  rw [List.filterMap_eq_map]

/-! ## Leaves -/

/-- The sets of a leaf are read back. -/
def SetReadsBack (js : Js F) (leaf : Api.ConditionLeaf F) : Prop :=
  ∀ operator values, leaf.test = .set operator values → ∀ x ∈ values, NumberReadsBack js x

/-- The evaluator has no margin for `==` and `!=`. -/
theorem sameLeaf_of_no_margin {deviceId : Uuid} {metric : String} {operator : Comparator}
    {rhs : ScalarRhs F} (h : operator = .eq ∨ operator = .ne) (hysteresis hysteresis' : F) :
    SameLeaf (⟨deviceId, metric, .compare operator rhs hysteresis⟩ : Rules.ConditionLeaf F)
      ⟨deviceId, metric, .compare operator rhs hysteresis'⟩ := by
  intro snapshot now state
  unfold evaluateLeaf
  rcases h with rfl | rfl
  · simp only [leafSignal, rearmConditionMet]
  · simp only [leafSignal, rearmConditionMet]

theorem sameLeaf_of_set {deviceId : Uuid} {metric : String} {operator : SetOperator}
    {values values' : List F} (h : List.Forall₂ SameNumber values values') :
    SameLeaf (⟨deviceId, metric, .set operator values'⟩ : Rules.ConditionLeaf F)
      ⟨deviceId, metric, .set operator values⟩ := by
  intro snapshot now state
  unfold evaluateLeaf
  simp only [leafSignal, compareSet_same h]

/-- The operators with a margin, and the two without. -/
theorem hasHysteresis_or (operator : Comparator) :
    (Operator.comparison operator).hasHysteresis = true ∨
      (Operator.comparison operator).hasHysteresis = false ∧ (operator = .eq ∨ operator = .ne) := by
  cases operator <;> simp [Operator.hasHysteresis]

/-- A set through its text. -/
theorem set_trip {deviceId : Uuid} {metric : String} {operator : SetOperator} {values : List F}
    (hvalid : (leafToBody ⟨some deviceId, metric, .set operator values⟩).validate py =
      some ⟨some deviceId, metric, .set operator values⟩)
    (hsets : ∀ x ∈ values, NumberReadsBack js x) :
    ∃ values', (leafFromContact js (contactFromLeaf js
        ⟨some deviceId, metric, .set operator values⟩)).validate py =
        some ⟨some deviceId, metric, .set operator values'⟩ ∧
      List.Forall₂ SameNumber values values' := by
  obtain ⟨hchecks, hdevice, -, htest⟩ := LeafBody.validate_eq_some.mp hvalid
  have hne : values ≠ [] := by
    rintro rfl
    simp [leafToBody, testOperator, LeafBody.test] at htest
  obtain ⟨values', hnumbers, hsame⟩ := setNumbers_joined hne hsets
  refine ⟨values', LeafBody.validate_eq_some.mpr ⟨hchecks, hdevice, rfl, ?_⟩, hsame⟩
  have hne' : values' ≠ [] := by
    rintro rfl
    exact hne (List.forall₂_nil_right_iff.mp hsame)
  show LeafBody.test py ⟨some deviceId, metric, .set operator, some (.set ((setNumbers js
    (", ".intercalate (values.map js.showNumber))).filterMap sentNumber)), _⟩ = _
  rw [hnumbers, filterMap_sent]
  simp [LeafBody.test, hne']

/-- A comparison is sent with its margin, or without one where the operator has none. -/
theorem leafFromContact_compare (deviceId : Uuid) (metric : String) (operator : Comparator)
    (rhs : ScalarRhs F) (hysteresis : F) :
    leafFromContact js (contactFromLeaf js
        ⟨some deviceId, metric, .compare operator rhs hysteresis⟩) =
      leafToBody ⟨some deviceId, metric, .compare operator rhs
        (if (Operator.comparison operator).hasHysteresis then hysteresis
          else JsonNumber.ofNat 0)⟩ := by
  cases rhs with
  | static value => rfl
  | metric device name => rfl

/-- Nothing else of a comparison is checked with a look at the margin. -/
theorem validate_without_margin (laws : NumberLaws py) {deviceId : Uuid} {metric : String}
    {operator : Comparator} {rhs : ScalarRhs F} {hysteresis : F}
    (hvalid : (leafToBody ⟨some deviceId, metric, .compare operator rhs hysteresis⟩).validate py =
      some ⟨some deviceId, metric, .compare operator rhs hysteresis⟩) :
    (leafToBody ⟨some deviceId, metric, .compare operator rhs (JsonNumber.ofNat 0)⟩).validate py =
      some ⟨some deviceId, metric, .compare operator rhs (JsonNumber.ofNat 0)⟩ := by
  obtain ⟨⟨hmetric, -, -⟩, hdevice, -, htest⟩ := LeafBody.validate_eq_some.mp hvalid
  refine LeafBody.validate_eq_some.mpr ⟨⟨hmetric, laws.zero_le_zero, ?_⟩, hdevice, rfl, ?_⟩
  · intro hpositive
    have hzero := laws.not_zero_lt_zero
    exact absurd (hpositive.symm.trans hzero) (by simp)
  · cases rhs with
    | static value => rfl
    | metric device name =>
      simp only [leafToBody, testOperator, LeafBody.test] at htest ⊢
      split
      · rename_i hlength
        rw [if_pos hlength] at htest
        obtain ⟨parsed, hparsed, heq⟩ := Option.map_eq_some_iff.mp htest
        cases heq
        rw [hparsed]
        rfl
      · rename_i hlength
        rw [if_neg hlength] at htest
        cases htest

/-- **A leaf through the editor.** -/
theorem leaf_trip (laws : NumberLaws py) {leaf : Api.ConditionLeaf F}
    (hnamed : leaf.deviceId.isSome) (hvalid : (leafToBody leaf).validate py = some leaf)
    (hsets : SetReadsBack js leaf) :
    ∃ leaf', (leafFromContact js (contactFromLeaf js leaf)).validate py = some leaf' ∧
      SameLeaf (toLeaf leaf') (toLeaf leaf) := by
  obtain ⟨deviceId, metric, test⟩ := leaf
  obtain ⟨id, rfl⟩ := Option.isSome_iff_exists.mp hnamed
  cases test with
  | change operator => exact ⟨_, hvalid, SameLeaf.refl _⟩
  | range operator low high => exact ⟨_, hvalid, SameLeaf.refl _⟩
  | set operator values =>
    obtain ⟨values', hread, hsame⟩ := set_trip hvalid (hsets operator values rfl)
    exact ⟨_, hread, sameLeaf_of_set hsame⟩
  | compare operator rhs hysteresis =>
    rw [leafFromContact_compare]
    rcases hasHysteresis_or operator with hmargin | ⟨hnone, hoperator⟩
    · -- nothing changes where the margin is kept
      rw [if_pos hmargin]
      exact ⟨_, hvalid, SameLeaf.refl _⟩
    · rw [if_neg (by simp [hnone])]
      exact ⟨_, validate_without_margin laws hvalid, sameLeaf_of_no_margin hoperator _ _⟩

/-! ## Trees -/

mutual

/-- The contacts of an opened tree are its leaves. -/
theorem nodeContacts_opened : ∀ (tree : Api.ConditionNode F),
    nodeContacts (nodeFromCondition js tree) = (nodeLeaves tree).map (contactFromLeaf js)
  | .leaf l => by rw [nodeFromCondition, nodeContacts, nodeLeaves]; rfl
  | .group op predicates => by
      rw [nodeFromCondition, nodeContacts, nodeLeaves, nodesContacts_opened predicates]

theorem nodesContacts_opened : ∀ (predicates : List (Api.ConditionNode F)),
    nodesContacts (nodesFromConditions js predicates) =
      (nodesLeaves predicates).map (contactFromLeaf js)
  | [] => by rw [nodesFromConditions, nodesContacts, nodesLeaves]; rfl
  | node :: rest => by
      rw [nodesFromConditions, nodesContacts, nodesLeaves, nodeContacts_opened node,
        nodesContacts_opened rest, List.map_append]

end

/-- A tree the schemas read back as it is printed. -/
def ReadBack (py : Pydantic F) (tree : Api.ConditionNode F) : Prop :=
  (nodeToBody tree).validate py = some tree

theorem ReadBack.group {op : GroupOp} {predicates : List (Api.ConditionNode F)}
    (h : ReadBack py (.group op predicates)) :
    predicates ≠ [] ∧ NodeBody.validateAll py (nodesToBodies predicates) = some predicates := by
  unfold ReadBack at h
  rw [nodeToBody, NodeBody.validate] at h
  split at h
  · rename_i htwo
    obtain ⟨nodes, hnodes, heq⟩ := Option.map_eq_some_iff.mp h
    cases heq
    refine ⟨?_, hnodes⟩
    rintro rfl
    simp [nodesToBodies] at htwo
  · cases h

theorem readBack_all : ∀ {predicates : List (Api.ConditionNode F)},
    NodeBody.validateAll py (nodesToBodies predicates) = some predicates →
    ∀ node ∈ predicates, ReadBack py node
  | [], _, node, hnode => by cases hnode
  | first :: rest, h, node, hnode => by
      rw [nodesToBodies, NodeBody.validateAll] at h
      split at h
      · rename_i n ns hn hns
        cases h
        rcases List.mem_cons.mp hnode with rfl | hnode
        · exact hn
        · exact readBack_all hns node hnode
      · cases h

mutual

/-- **An opened tree has no empty group**, and each leaf of it is read back. -/
theorem opened_full : ∀ (tree : Api.ConditionNode F), ReadBack py tree →
    Full (nodeFromCondition js tree) ∧
      ∀ leaf ∈ nodeLeaves tree, (leafToBody leaf).validate py = some leaf
  | .leaf l, h => by
      unfold ReadBack at h
      rw [nodeToBody, NodeBody.validate] at h
      obtain ⟨l', hl, heq⟩ := Option.map_eq_some_iff.mp h
      cases heq
      rw [nodeFromCondition, nodeLeaves]
      refine ⟨.contact _, ?_⟩
      intro leaf hleaf
      cases List.mem_singleton.mp hleaf
      exact hl
  | .group op predicates, h => by
      obtain ⟨hne, hall⟩ := h.group
      obtain ⟨hfull, hleaves⟩ := openedAll_full predicates (readBack_all hall)
      rw [nodeFromCondition, nodeLeaves]
      refine ⟨.group ?_ hfull, hleaves⟩
      cases predicates with
      | nil => exact absurd rfl hne
      | cons node rest => simp [nodesFromConditions]

theorem openedAll_full : ∀ (predicates : List (Api.ConditionNode F)),
    (∀ node ∈ predicates, ReadBack py node) →
    (∀ child ∈ nodesFromConditions js predicates, Full child) ∧
      ∀ leaf ∈ nodesLeaves predicates, (leafToBody leaf).validate py = some leaf
  | [], _ => by simp [nodesFromConditions, nodesLeaves]
  | node :: rest, h => by
      obtain ⟨hfull, hleaves⟩ := opened_full node (h node List.mem_cons_self)
      obtain ⟨hfulls, hothers⟩ :=
        openedAll_full rest fun n hn => h n (List.mem_cons_of_mem _ hn)
      rw [nodesFromConditions, nodesLeaves]
      refine ⟨List.forall_mem_cons.mpr ⟨hfull, hfulls⟩, ?_⟩
      exact List.forall_mem_append.mpr ⟨hleaves, hothers⟩

end

mutual

/-- An opened tree has the value of the tree, where its contacts have those of the leaves. -/
theorem value_opened (v : ContactDraft F → Option Bool) (w : Rules.ConditionLeaf F → Option Bool) :
    ∀ (tree : Api.ConditionNode F),
    (∀ leaf ∈ nodeLeaves tree, v (contactFromLeaf js leaf) = w (toLeaf leaf)) →
    value v (nodeFromCondition js tree) = nodeValue w (toNode tree)
  | .leaf l, h => by
      rw [nodeFromCondition, toNode, value, nodeValue]
      exact h l (by rw [nodeLeaves]; exact List.mem_cons_self)
  | .group op predicates, h => by
      rw [nodeLeaves] at h
      rw [nodeFromCondition, toNode, value, nodeValue, values_opened v w predicates h]

theorem values_opened (v : ContactDraft F → Option Bool)
    (w : Rules.ConditionLeaf F → Option Bool) : ∀ (predicates : List (Api.ConditionNode F)),
    (∀ leaf ∈ nodesLeaves predicates, v (contactFromLeaf js leaf) = w (toLeaf leaf)) →
    values v (nodesFromConditions js predicates) = nodesValues w (toNodes predicates)
  | [], _ => by rw [nodesFromConditions, toNodes, values, nodesValues]
  | node :: rest, h => by
      rw [nodesLeaves, List.forall_mem_append] at h
      rw [nodesFromConditions, toNodes, values, nodesValues, value_opened v w node h.1,
        values_opened v w rest h.2]

end

/-- The value of a contact that is sent, by the leaf it is read as. -/
def sentValue (py : Pydantic F) (js : Js F) (w : Rules.ConditionLeaf F → Option Bool)
    (c : ContactDraft F) : Option Bool :=
  ((leafFromContact js c).validate py).bind fun leaf => w (toLeaf leaf)

theorem sentAll_read {children : List (DraftNode F)}
    (h : ∀ child ∈ children, ∃ tree, (bodyOfNode js child).validate py = some tree ∧
      ∀ w, nodeValue w (toNode tree) = value (sentValue py js w) child) :
    ∃ trees, NodeBody.validateAll py (bodiesOfNodes js children) = some trees ∧
      ∀ w, nodesValues w (toNodes trees) = values (sentValue py js w) children := by
  induction children with
  | nil =>
    refine ⟨[], by rw [bodiesOfNodes, NodeBody.validateAll], ?_⟩
    intro w
    rw [toNodes, nodesValues, values]
  | cons child rest ih =>
    obtain ⟨tree, htree, hvalue⟩ := h child List.mem_cons_self
    obtain ⟨trees, htrees, hvalues⟩ := ih fun c hc => h c (List.mem_cons_of_mem _ hc)
    refine ⟨tree :: trees, by rw [bodiesOfNodes, NodeBody.validateAll, htree, htrees], ?_⟩
    intro w
    rw [toNodes, nodesValues, values, hvalue, hvalues]

/-- **A normalized tree that is sent** is read as one of the same value. -/
theorem sent_read {node : DraftNode F} (hnormal : Normal node)
    (h : ∀ c ∈ nodeContacts node, ((leafFromContact js c).validate py).isSome) :
    ∃ tree, (bodyOfNode js node).validate py = some tree ∧
      ∀ w, nodeValue w (toNode tree) = value (sentValue py js w) node := by
  induction hnormal with
  | contact c =>
    rw [nodeContacts] at h
    obtain ⟨leaf, hleaf⟩ := Option.isSome_iff_exists.mp (h c List.mem_cons_self)
    refine ⟨.leaf leaf, by rw [bodyOfNode, NodeBody.validate, hleaf]; rfl, ?_⟩
    intro w
    rw [toNode, nodeValue, value, sentValue, hleaf]
    rfl
  | @group _ op children two normal alternating ih =>
    rw [nodeContacts, nodesContacts_eq_flatMap] at h
    obtain ⟨trees, htrees, hvalues⟩ := sentAll_read fun child hchild =>
      ih child hchild fun c hc => h c (List.mem_flatMap.mpr ⟨child, hchild, hc⟩)
    refine ⟨.group op trees, ?_, ?_⟩
    · rw [bodyOfNode, NodeBody.validate, if_pos, htrees]
      · rfl
      · rw [bodiesOfNodes_eq_map, List.length_map]
        exact two
    · intro w
      rw [toNode, nodeValue, value, hvalues]

/-! ## The condition -/

/-- **The same condition**: what is sent is read as a tree that has, after every run and on every
snapshot, the value of the one before. -/
def SameCondition (py : Pydantic F) (before : Option (Api.ConditionNode F))
    (sent : Option (NodeBody F)) : Prop :=
  match before, sent with
  | none, none => True
  | some tree, some body => ∃ tree', body.validate py = some tree' ∧
      ∀ (history : List (Observation F)) (snapshot : MetricSnapshot F) (now : Datetime),
        valueAfter history snapshot now (toNode tree') =
          valueAfter history snapshot now (toNode tree)
  | _, _ => False

/-- **A condition through the editor and back.** -/
theorem condition_trip (laws : NumberLaws py) {condition : Option (Api.ConditionNode F)}
    (hread : ∀ tree ∈ condition, ReadBack py tree)
    (hnamed : ∀ leaf ∈ conditionLeaves condition, leaf.deviceId.isSome)
    (hsets : ∀ leaf ∈ conditionLeaves condition, SetReadsBack js leaf) :
    SameCondition py condition
      (conditionFromNode js (condition.map (nodeFromCondition js))) := by
  cases condition with
  | none => trivial
  | some tree =>
    obtain ⟨hfull, hleaves⟩ : Full (nodeFromCondition js tree) ∧ _ :=
      opened_full tree (hread tree rfl)
    have htrip : ∀ leaf ∈ nodeLeaves tree, ∃ leaf',
        (leafFromContact js (contactFromLeaf js leaf)).validate py = some leaf' ∧
          SameLeaf (toLeaf leaf') (toLeaf leaf) := fun leaf hleaf =>
      leaf_trip laws (hnamed leaf hleaf) (hleaves leaf hleaf) (hsets leaf hleaf)
    -- normalizing keeps the contacts, so each of them is read
    obtain ⟨node, hnode, -⟩ := value_normalize (fun _ => none) (nodeFromCondition js tree) hfull
    have hcontacts := contacts_normalize (nodeFromCondition js tree)
    rw [hnode, nodeContacts_opened] at hcontacts
    have hsent : ∀ c ∈ nodeContacts node, ((leafFromContact js c).validate py).isSome := by
      intro c hc
      rw [show nodeContacts node = _ from hcontacts] at hc
      obtain ⟨leaf, hleaf, rfl⟩ := List.mem_map.mp hc
      obtain ⟨leaf', hread, -⟩ := htrip leaf hleaf
      rw [hread]
      rfl
    obtain ⟨tree', htree', hvalue⟩ := sent_read (normalize_normal _ hnode) hsent
    unfold conditionFromNode
    rw [Option.map_some, Option.bind_some, hnode]
    refine ⟨tree', htree', ?_⟩
    intro history snapshot now
    rw [valueAfter_eq, valueAfter_eq, hvalue]
    obtain ⟨node', hnode', hsame⟩ := value_normalize
      (sentValue py js (leafValue snapshot now (latchAfter history)))
      (nodeFromCondition js tree) hfull
    rw [hnode] at hnode'
    cases hnode'
    rw [hsame]
    refine value_opened _ _ tree ?_
    intro leaf hleaf
    obtain ⟨leaf', hread, hsameLeaf⟩ := htrip leaf hleaf
    rw [sentValue, hread]
    exact hsameLeaf.leafValue history snapshot now

end

end IotSaas.Editor
