import IotSaas.Lib.Kleene
import IotSaas.Rules.Evaluators

/-!
# `Editor/Tree.lean` — the ladder's tree, and its normal form

A tree of groups and contacts, over what a group carries besides its operator (`G`) and what a
contact carries (`C`). `lib/rule-draft.ts` has one such type, `DraftNode`, and each part of the
development reads less of it: the structural edits need the ids and nothing else (`TreeNode`), the
drawing only hands them on (`LadderNode`), and a request has none (`DraftNode`). One is another with
something forgotten, which is `Tree.map`, and `normalize` does not look at what is forgotten
(`normalize_map`).

Every edit of the tree ends in `normalize`, and so does every save. It drops the groups without a
contact, replaces a group of one by the one, and merges a group into a parent with the same
operator. It is one pass from the leaves up, and one pass is enough: what it returns is in normal
form, a normal form it leaves alone, and neither a contact nor the Kleene value is touched
(`ladder_normal_form`). The case to look at is a child that collapses: what is left of it may carry
its parent's operator, and is spliced on the spot.
-/

set_option autoImplicit false

namespace IotSaas.Editor

open Lib Rules

inductive Tree (G C : Type) where
  | contact (c : C)
  | group (g : G) (op : GroupOp) (children : List (Tree G C))

variable {G C : Type}

/-! ## Reading a tree -/

mutual

def nodeContacts : Tree G C → List C
  | .contact c => [c]
  | .group _ _ children => nodesContacts children

def nodesContacts : List (Tree G C) → List C
  | [] => []
  | child :: rest => nodeContacts child ++ nodesContacts rest

end

/-- `contacts`. -/
def contacts (root : Option (Tree G C)) : List C :=
  match root with
  | none => []
  | some node => nodeContacts node

mutual

/-- The Kleene value of a tree whose contacts have the values `v`. -/
def value (v : C → Option Bool) : Tree G C → Option Bool
  | .contact c => v c
  | .group _ op children => combine (dominant op) (values v children)

def values (v : C → Option Bool) : List (Tree G C) → List (Option Bool)
  | [] => []
  | child :: rest => value v child :: values v rest

end

/-! ## `normalize` -/

/-- A child as a group of `op` takes it in: its own children where it has the same operator. -/
def spliced (op : GroupOp) (child : Option (Tree G C)) : List (Tree G C) :=
  match child with
  | none => []
  | some (.contact c) => [.contact c]
  | some (.group g op' children) => if op' = op then children else [.group g op' children]

/-- A group of normalized children: gone without any, its child where there is one. -/
def regroup (g : G) (op : GroupOp) (children : List (Tree G C)) : Option (Tree G C) :=
  match children with
  | [] => none
  | [child] => some child
  | _ => some (.group g op children)

mutual

/-- `normalize`, of a tree that is there. -/
def normalize : Tree G C → Option (Tree G C)
  | .contact c => some (.contact c)
  | .group g op children => regroup g op (normalizeAll op children)

def normalizeAll (op : GroupOp) : List (Tree G C) → List (Tree G C)
  | [] => []
  | child :: rest => spliced op (normalize child) ++ normalizeAll op rest

end

/-! ## Normal form -/

/-- The operator a tree is combined by, `none` for a contact. -/
def rootOp (node : Tree G C) : Option GroupOp :=
  match node with
  | .contact _ => none
  | .group _ op _ => some op

/-- **Normal form**: no group is empty or has one child only, and none stands directly in a group
of its operator. -/
inductive Normal : Tree G C → Prop where
  | contact (c : C) : Normal (.contact c)
  | group {g : G} {op : GroupOp} {children : List (Tree G C)} (two : 2 ≤ children.length)
      (normal : ∀ child ∈ children, Normal child)
      (alternating : ∀ child ∈ children, rootOp child ≠ some op) : Normal (.group g op children)

variable {op : GroupOp}

/-- What a group takes in of a normalized child. -/
theorem normal_of_mem_spliced {node child : Tree G C} (h : Normal node)
    (hmem : child ∈ spliced op (some node)) : Normal child ∧ rootOp child ≠ some op := by
  cases h with
  | contact c =>
    cases List.mem_singleton.mp hmem
    exact ⟨.contact c, by simp [rootOp]⟩
  | @group g op' children two normal alternating =>
    unfold spliced at hmem
    dsimp only at hmem
    by_cases hop : op' = op
    · rw [if_pos hop] at hmem
      exact ⟨normal child hmem, hop ▸ alternating child hmem⟩
    · rw [if_neg hop] at hmem
      cases List.mem_singleton.mp hmem
      exact ⟨.group two normal alternating, by simpa [rootOp] using hop⟩

variable {children : List (Tree G C)} {node : Tree G C}

theorem regroup_normal {g : G} (h : ∀ child ∈ children, Normal child ∧ rootOp child ≠ some op)
    (hnode : regroup g op children = some node) : Normal node := by
  match children, hnode with
  | [child], hnode =>
    cases hnode
    exact (h _ List.mem_cons_self).1
  | first :: second :: rest, hnode =>
    cases hnode
    exact .group (by simp) (fun child hchild => (h child hchild).1)
      fun child hchild => (h child hchild).2

mutual

/-- **`normalize` leaves a normal form.** What is left of a child that collapses is spliced like the
child, and the splices of a normalized child are of another operator. So one pass is enough. -/
theorem normalize_normal : ∀ (node : Tree G C) {n : Tree G C}, normalize node = some n → Normal n
  | .contact c, n, h => by
      rw [normalize] at h
      cases h
      exact .contact c
  | .group g op children, n, h => by
      rw [normalize] at h
      exact regroup_normal (normalizeAll_normal op children) h

theorem normalizeAll_normal (op : GroupOp) : ∀ (children : List (Tree G C)),
    ∀ child ∈ normalizeAll op children, Normal child ∧ rootOp child ≠ some op
  | [], child, h => by
      rw [normalizeAll] at h
      cases h
  | first :: rest, child, h => by
      rw [normalizeAll] at h
      rcases List.mem_append.mp h with hfirst | hrest
      · cases hn : normalize first with
        | none =>
          rw [hn] at hfirst
          cases hfirst
        | some n =>
          rw [hn] at hfirst
          exact normal_of_mem_spliced (normalize_normal first hn) hfirst
      · exact normalizeAll_normal op rest child hrest

end

theorem spliced_of_ne {child : Tree G C} (h : rootOp child ≠ some op) :
    spliced op (some child) = [child] := by
  cases child with
  | contact c => rfl
  | group g op' children =>
    have hop : op' ≠ op := by simpa [rootOp] using h
    simp [spliced, hop]

/-- A group of normalized children put into one of its own operator leaves its children there. -/
theorem spliced_regroup {g : G} (h : ∀ child ∈ children, rootOp child ≠ some op) :
    spliced op (regroup g op children) = children := by
  match children, h with
  | [], _ => rfl
  | [child], h => exact spliced_of_ne (h child List.mem_cons_self)
  | first :: second :: rest, _ => simp [regroup, spliced]

theorem regroup_of_two {g : G} (h : 2 ≤ children.length) :
    regroup g op children = some (.group g op children) := by
  match children, h with
  | first :: second :: rest, _ => rfl

mutual

/-- **A normal form stays.** -/
theorem normalize_of_normal : ∀ (node : Tree G C), Normal node → normalize node = some node
  | .contact c, _ => by rw [normalize]
  | .group g op children, .group two normal alternating => by
      rw [normalize, normalizeAll_of_normal op children normal alternating, regroup_of_two two]

theorem normalizeAll_of_normal (op : GroupOp) : ∀ (children : List (Tree G C)),
    (∀ child ∈ children, Normal child) → (∀ child ∈ children, rootOp child ≠ some op) →
    normalizeAll op children = children
  | [], _, _ => by rw [normalizeAll]
  | child :: rest, hnormal, halternating => by
      rw [normalizeAll, normalize_of_normal child (hnormal child List.mem_cons_self),
        spliced_of_ne (halternating child List.mem_cons_self),
        normalizeAll_of_normal op rest (fun c hc => hnormal c (List.mem_cons_of_mem _ hc))
          fun c hc => halternating c (List.mem_cons_of_mem _ hc)]
      rfl

end

/-! ## The contacts -/

theorem nodesContacts_eq_flatMap (children : List (Tree G C)) :
    nodesContacts children = children.flatMap nodeContacts := by
  induction children with
  | nil => rw [nodesContacts, List.flatMap_nil]
  | cons child rest ih => rw [nodesContacts, List.flatMap_cons, ih]

theorem nodesContacts_append (first second : List (Tree G C)) :
    nodesContacts (first ++ second) = nodesContacts first ++ nodesContacts second := by
  simp only [nodesContacts_eq_flatMap, List.flatMap_append]

theorem nodesContacts_spliced (op : GroupOp) (child : Option (Tree G C)) :
    nodesContacts (spliced op child) = contacts child := by
  match child with
  | none => rfl
  | some (.contact c) => simp [spliced, contacts, nodesContacts]
  | some (.group g op' children) =>
    unfold spliced
    by_cases hop : op' = op
    · simp [hop, contacts, nodeContacts]
    · simp [hop, contacts, nodesContacts, nodeContacts]

theorem contacts_regroup (g : G) (op : GroupOp) (children : List (Tree G C)) :
    contacts (regroup g op children) = nodesContacts children := by
  match children with
  | [] => rfl
  | [child] => simp [regroup, contacts, nodesContacts]
  | first :: second :: rest => simp [regroup, contacts, nodeContacts]

mutual

/-- **Every contact stays**, in its place. -/
theorem contacts_normalize : ∀ (node : Tree G C), contacts (normalize node) = nodeContacts node
  | .contact c => by
      rw [normalize]
      rfl
  | .group g op children => by
      rw [normalize, nodeContacts, contacts_regroup, nodesContacts_normalizeAll op children]

theorem nodesContacts_normalizeAll (op : GroupOp) : ∀ (children : List (Tree G C)),
    nodesContacts (normalizeAll op children) = nodesContacts children
  | [] => by rw [normalizeAll]
  | child :: rest => by
      rw [normalizeAll, nodesContacts_append, nodesContacts_spliced, contacts_normalize child,
        nodesContacts_normalizeAll op rest, nodesContacts]

end

/-! ## The Kleene value -/

/-- No group is empty. -/
inductive Full : Tree G C → Prop where
  | contact (c : C) : Full (.contact c)
  | group {g : G} {op : GroupOp} {children : List (Tree G C)} (some : children ≠ [])
      (full : ∀ child ∈ children, Full child) : Full (.group g op children)

theorem Normal.full (h : Normal node) : Full node := by
  induction h with
  | contact c => exact .contact c
  | group two _ _ ih =>
    refine .group (fun hnil => ?_) ih
    rw [hnil] at two
    cases two

theorem Full.contacts_ne_nil (h : Full node) : nodeContacts node ≠ [] := by
  induction h with
  | contact c => simp [nodeContacts]
  | @group g op children hsome _ ih =>
    cases children with
    | nil => exact absurd rfl hsome
    | cons child rest =>
      have hchild := ih child List.mem_cons_self
      simp [nodeContacts, nodesContacts, hchild]

/-- A tree is gone exactly where there is no contact in it. -/
theorem normalize_eq_none : normalize node = none ↔ nodeContacts node = [] := by
  constructor
  · intro h
    rw [← contacts_normalize node, h]
    rfl
  · intro h
    cases hn : normalize node with
    | none => rfl
    | some n =>
      have hcontacts := contacts_normalize node
      rw [hn, h] at hcontacts
      exact absurd hcontacts (normalize_normal node hn).full.contacts_ne_nil

theorem values_append (v : C → Option Bool) : ∀ (first second : List (Tree G C)),
    values v (first ++ second) = values v first ++ values v second
  | [], second => by simp [values]
  | child :: rest, second => by
      rw [List.cons_append, values, values, values_append v rest second, List.cons_append]

theorem combine_spliced (v : C → Option Bool) (op : GroupOp) (child : Tree G C) :
    combine (dominant op) (values v (spliced op (some child))) = value v child := by
  cases child with
  | contact c => simp [spliced, values, combine_singleton]
  | group g op' children =>
    unfold spliced
    by_cases hop : op' = op
    · simp [hop, value]
    · simp [hop, values, combine_singleton]

theorem value_regroup (v : C → Option Bool) {g : G} (h : regroup g op children = some node) :
    value v node = combine (dominant op) (values v children) := by
  match children, h with
  | [child], h =>
    cases h
    simp [values, combine_singleton]
  | first :: second :: rest, h =>
    cases h
    rw [value]

theorem regroup_eq_none {g : G} (h : regroup g op children = none) : children = [] := by
  match children with
  | [] => rfl
  | [child] => cases h
  | first :: second :: rest => cases h

mutual

/-- **The value stays.** -/
theorem value_normalize (v : C → Option Bool) : ∀ (node : Tree G C), Full node →
    ∃ n, normalize node = some n ∧ value v n = value v node
  | .contact c, _ => ⟨.contact c, by rw [normalize], rfl⟩
  | .group g op children, .group hsome full => by
      obtain ⟨hne, hvalues⟩ := values_normalizeAll v op children full
      cases hn : regroup g op (normalizeAll op children) with
      | none => exact absurd (regroup_eq_none hn) (hne hsome)
      | some n =>
        refine ⟨n, by rw [normalize, hn], ?_⟩
        rw [value_regroup v hn, hvalues, value]

theorem values_normalizeAll (v : C → Option Bool) (op : GroupOp) :
    ∀ (children : List (Tree G C)), (∀ child ∈ children, Full child) →
      (children ≠ [] → normalizeAll op children ≠ []) ∧
      combine (dominant op) (values v (normalizeAll op children)) =
        combine (dominant op) (values v children)
  | [], _ => ⟨fun h => absurd rfl h, by rw [normalizeAll]⟩
  | child :: rest, full => by
      obtain ⟨n, hn, hvalue⟩ := value_normalize v child (full child List.mem_cons_self)
      obtain ⟨-, hrest⟩ :=
        values_normalizeAll v op rest fun c hc => full c (List.mem_cons_of_mem _ hc)
      have hsplice := combine_spliced v op n
      constructor
      · intro _ hnil
        rw [normalizeAll, hn] at hnil
        have hcontacts := nodesContacts_spliced op (some n)
        rw [(List.append_eq_nil_iff.mp hnil).1] at hcontacts
        exact (normalize_normal child hn).full.contacts_ne_nil hcontacts.symm
      · have hcons := combine_append (dominant op) [value v child] (values v rest)
        rw [combine_singleton, List.singleton_append] at hcons
        rw [normalizeAll, hn, values_append, combine_append, hsplice, hrest, hvalue, values, hcons]

end

/-! ## Forgetting -/

section

variable {G' C' : Type} (g : G → G') (f : C → C')

mutual

/-- The tree with less on it. -/
protected def Tree.map : Tree G C → Tree G' C'
  | .contact c => .contact (f c)
  | .group id op children => .group (g id) op (Tree.mapAll children)

protected def Tree.mapAll : List (Tree G C) → List (Tree G' C')
  | [] => []
  | child :: rest => Tree.map child :: Tree.mapAll rest

end

theorem mapAll_append : ∀ (first second : List (Tree G C)),
    Tree.mapAll g f (first ++ second) = Tree.mapAll g f first ++ Tree.mapAll g f second
  | [], second => by simp [Tree.mapAll]
  | child :: rest, second => by
      rw [List.cons_append, Tree.mapAll, Tree.mapAll, mapAll_append rest second, List.cons_append]

theorem mapAll_spliced (op : GroupOp) (child : Option (Tree G C)) :
    Tree.mapAll g f (spliced op child) = spliced op (child.map (Tree.map g f)) := by
  match child with
  | none => simp [spliced, Tree.mapAll]
  | some (.contact c) => simp [spliced, Tree.mapAll, Tree.map]
  | some (.group id op' children) =>
    by_cases hop : op' = op
    · simp [spliced, hop, Tree.map]
    · simp [spliced, hop, Tree.mapAll, Tree.map]

theorem map_regroup (id : G) (op : GroupOp) (children : List (Tree G C)) :
    (regroup id op children).map (Tree.map g f) = regroup (g id) op (Tree.mapAll g f children) := by
  match children with
  | [] => simp [regroup, Tree.mapAll]
  | [child] => simp [regroup, Tree.mapAll]
  | first :: second :: rest => simp [regroup, Tree.mapAll, Tree.map]

mutual

/-- **Trees that differ in what is forgotten are normalized alike.** -/
theorem normalize_map : ∀ (node : Tree G C),
    normalize (Tree.map g f node) = (normalize node).map (Tree.map g f)
  | .contact c => by
      rw [Tree.map, normalize, normalize, Option.map_some, Tree.map]
  | .group id op children => by
      rw [Tree.map, normalize, normalize, map_regroup, normalizeAll_map op children]

theorem normalizeAll_map (op : GroupOp) : ∀ (children : List (Tree G C)),
    normalizeAll op (Tree.mapAll g f children) = Tree.mapAll g f (normalizeAll op children)
  | [] => by
      rw [Tree.mapAll, normalizeAll, normalizeAll, Tree.mapAll]
  | child :: rest => by
      rw [Tree.mapAll, normalizeAll, normalizeAll, mapAll_append, mapAll_spliced,
        normalize_map child, normalizeAll_map op rest]

end

end

/-! ## The tree as the editors change it -/

/-- What `newId` gives. -/
abbrev ElementId := String

/-- `DraftNode`: every node with the id it is found by. -/
abbrev TreeNode (C : Type) := Tree ElementId (ElementId × C)

protected def Tree.id : TreeNode C → ElementId
  | .contact c => c.1
  | .group id _ _ => id

namespace TreeNode

mutual

/-- Every id of a tree, a group's before those of its children. -/
def nodeIds : TreeNode C → List ElementId
  | .contact c => [c.1]
  | .group id _ children => id :: nodesIds children

def nodesIds : List (TreeNode C) → List ElementId
  | [] => []
  | child :: rest => nodeIds child ++ nodesIds rest

end

def ids (root : Option (TreeNode C)) : List ElementId :=
  match root with
  | none => []
  | some node => nodeIds node

/-- `normalize`. -/
def normalize (root : Option (TreeNode C)) : Option (TreeNode C) :=
  root.bind Editor.normalize

theorem normalize_normal {root : Option (TreeNode C)} {n : TreeNode C}
    (h : normalize root = some n) : Normal n := by
  obtain ⟨node, -, hnode⟩ := Option.bind_eq_some_iff.mp h
  exact Editor.normalize_normal node hnode

theorem contacts_normalize (root : Option (TreeNode C)) :
    contacts (normalize root) = contacts root := by
  cases root with
  | none => rfl
  | some node => exact Editor.contacts_normalize node

theorem nodesIds_append : ∀ (first second : List (TreeNode C)),
    nodesIds (first ++ second) = nodesIds first ++ nodesIds second
  | [], second => by simp [nodesIds]
  | child :: rest, second => by
      rw [List.cons_append, nodesIds, nodesIds, nodesIds_append rest second, List.append_assoc]

theorem nodesIds_spliced (op : GroupOp) (child : Option (TreeNode C)) :
    (nodesIds (spliced op child)).Sublist (ids child) := by
  match child with
  | none => exact List.Sublist.refl _
  | some (.contact c) => simp [spliced, ids, nodesIds]
  | some (.group id op' children) =>
    unfold spliced
    by_cases hop : op' = op
    · simp [hop, ids, nodeIds]
    · simp [hop, ids, nodesIds, nodeIds]

theorem ids_regroup (id : ElementId) (op : GroupOp) (children : List (TreeNode C)) :
    (ids (regroup id op children)).Sublist (id :: nodesIds children) := by
  match children with
  | [] => exact List.nil_sublist _
  | [child] => simp [regroup, ids, nodesIds]
  | first :: second :: rest => simp [regroup, ids, nodeIds]

mutual

/-- Only ids of groups go. -/
theorem ids_normalizeNode : ∀ (node : TreeNode C),
    (ids (Editor.normalize node)).Sublist (nodeIds node)
  | .contact c => by
      rw [Editor.normalize]
      exact List.Sublist.refl _
  | .group id op children => by
      rw [Editor.normalize, nodeIds]
      exact (ids_regroup id op _).trans ((nodesIds_normalizeAll op children).cons_cons id)

theorem nodesIds_normalizeAll (op : GroupOp) : ∀ (children : List (TreeNode C)),
    (nodesIds (normalizeAll op children)).Sublist (nodesIds children)
  | [] => by rw [normalizeAll]
  | child :: rest => by
      rw [normalizeAll, nodesIds_append, nodesIds]
      exact ((nodesIds_spliced op _).trans (ids_normalizeNode child)).append
        (nodesIds_normalizeAll op rest)

end

theorem ids_normalize (root : Option (TreeNode C)) :
    (ids (normalize root)).Sublist (ids root) := by
  cases root with
  | none => exact List.Sublist.refl _
  | some node => exact ids_normalizeNode node

/-! ## The normal form, as a whole -/

/-- **One pass of `normalize` is a normal form**: for every tree the result has no empty group, none
of a single child and none directly in one of its operator, a second pass changes nothing, and the
contacts are the same in the same order, each once; where no group was empty, so is the value under
every assignment. -/
theorem ladder_normal_form (root : Option (TreeNode C)) :
    normalize (normalize root) = normalize root ∧
      (∀ n, normalize root = some n → Normal n) ∧
      contacts (normalize root) = contacts root ∧
      ((∀ node, root = some node → Full node) →
        ∀ v, (normalize root).map (value v) = root.map (value v)) := by
  refine ⟨?_, fun n => normalize_normal, contacts_normalize root, fun hfull v => ?_⟩
  · cases hn : normalize root with
    | none => rfl
    | some n => exact normalize_of_normal n (normalize_normal hn)
  · cases root with
    | none => rfl
    | some node =>
      obtain ⟨n, hn, hvalue⟩ := value_normalize v node (hfull node rfl)
      rw [normalize, Option.bind_some, hn, Option.map_some, Option.map_some, hvalue]

end TreeNode
end IotSaas.Editor
