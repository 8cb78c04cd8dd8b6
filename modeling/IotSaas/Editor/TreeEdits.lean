import IotSaas.Editor.Tree

/-!
# `Editor/TreeEdits.lean` — structural edits of the ladder

`insertBeside`, `removeNode` and `setGroupOp` of `lib/rule-draft.ts`. Each is shown to be one thing:
the normal form of the tree with the subtree at one id replaced (`replaceAt`) — by the pair of it
and the new contact, by nothing, by the same group under another operator. What happens to the
contacts, the ids and the value is then a fact about `replaceAt` and one about `normalize`.

A function passed to `mapNode` answers `none` where the source's returns the node it was given.
-/

set_option autoImplicit false

namespace IotSaas.Editor.TreeNode

open Lib Rules

variable {C : Type}

/-! ## The edits -/

mutual

/-- `findNode`, in a tree that is there. -/
def findIn (target : ElementId) : TreeNode C → Option (TreeNode C)
  | .contact (id, c) => if id = target then some (.contact (id, c)) else none
  | .group id op children =>
      if id = target then some (.group id op children) else findAmong target children

def findAmong (target : ElementId) : List (TreeNode C) → Option (TreeNode C)
  | [] => none
  | child :: rest => (findIn target child).or (findAmong target rest)

end

/-- `findNode`. -/
def findNode (root : Option (TreeNode C)) (target : ElementId) : Option (TreeNode C) :=
  root.bind (findIn target)

mutual

/-- `mapNode`: what `change` changes, and nothing below it. -/
def mapNode (change : TreeNode C → Option (TreeNode C)) : TreeNode C → TreeNode C
  | .contact (id, c) => (change (.contact (id, c))).getD (.contact (id, c))
  | .group id op children =>
      match change (.group id op children) with
      | some next => next
      | none => .group id op (mapNodes change children)

def mapNodes (change : TreeNode C → Option (TreeNode C)) : List (TreeNode C) → List (TreeNode C)
  | [] => []
  | child :: rest => mapNode change child :: mapNodes change rest

end

mutual

/-- `parentOf`: the id of the first group with the target among its children. -/
def parentOf (target : ElementId) : TreeNode C → Option ElementId
  | .contact _ => none
  | .group id _ children =>
      if children.any (fun c => c.id = target) then some id else parentAmong target children

def parentAmong (target : ElementId) : List (TreeNode C) → Option ElementId
  | [] => none
  | child :: rest => (parentOf target child).or (parentAmong target rest)

end

/-- What `insertBeside` makes of the children of the target's parent. A `splice` where the target is
not found starts at the front. -/
def joined (fresh target : ElementId) (added : TreeNode C) (op parentOp : GroupOp)
    (children : List (TreeNode C)) : List (TreeNode C) :=
  let found := children.findIdx? fun c => c.id = target
  if parentOp = op then
    match found with
    | none => added :: children
    | some i => children.insertIdx (i + 1) added
  else
    match found with
    | none => children
    | some i => children.modify i fun c => .group fresh op [c, added]

/-- The change `insertBeside` maps over the tree. -/
def joinedAt (fresh target parent : ElementId) (added : TreeNode C) (op : GroupOp) :
    TreeNode C → Option (TreeNode C)
  | .contact _ => none
  | .group id parentOp children =>
      if id = parent then
        some (.group id parentOp (joined fresh target added op parentOp children))
      else none

/-- `insertBeside`; `fresh` is what `newId()` gives. -/
def insertBeside (fresh : ElementId) (root : Option (TreeNode C)) (target : ElementId)
    (added : TreeNode C) (op : GroupOp) : Option (TreeNode C) :=
  match root with
  | none => some added
  | some root =>
      if root.id = target then normalize (some (.group fresh op [root, added]))
      else
        match parentOf target root with
        | none => some root
        | some parent => normalize (some (mapNode (joinedAt fresh target parent added op) root))

mutual

def prune (target : ElementId) : TreeNode C → Option (TreeNode C)
  | .contact (id, c) => if id = target then none else some (.contact (id, c))
  | .group id op children =>
      if id = target then none else some (.group id op (pruneAll target children))

def pruneAll (target : ElementId) : List (TreeNode C) → List (TreeNode C)
  | [] => []
  | child :: rest => (prune target child).toList ++ pruneAll target rest

end

/-- `removeNode`. -/
def removeNode (root : Option (TreeNode C)) (target : ElementId) : Option (TreeNode C) :=
  match root with
  | none => none
  | some root =>
      if root.id = target then none
      else
        match root with
        | .contact (id, c) => some (.contact (id, c))
        | .group id op children => normalize (prune target (.group id op children))

/-- The change `setGroupOp` maps over the tree. -/
def reoperated (target : ElementId) (op : GroupOp) : TreeNode C → Option (TreeNode C)
  | .contact _ => none
  | .group id _ children => if id = target then some (.group id op children) else none

/-- `setGroupOp`. -/
def setGroupOp (root : Option (TreeNode C)) (target : ElementId) (op : GroupOp) :
    Option (TreeNode C) :=
  root.bind fun root => normalize (some (mapNode (reoperated target op) root))

/-! ## A subtree replaced -/

mutual

/-- The tree with the subtree at `target` replaced by what `new` makes of it. -/
def replaceIn (target : ElementId) (new : TreeNode C → Option (TreeNode C)) :
    TreeNode C → Option (TreeNode C)
  | .contact (id, c) => if id = target then new (.contact (id, c)) else some (.contact (id, c))
  | .group id op children =>
      if id = target then new (.group id op children)
      else some (.group id op (replaceAmong target new children))

def replaceAmong (target : ElementId) (new : TreeNode C → Option (TreeNode C)) :
    List (TreeNode C) → List (TreeNode C)
  | [] => []
  | child :: rest => (replaceIn target new child).toList ++ replaceAmong target new rest

end

/-- `t op contact`. -/
def paired (fresh : ElementId) (added : TreeNode C) (op : GroupOp) (sub : TreeNode C) :
    Option (TreeNode C) :=
  some (.group fresh op [sub, added])

/-- The same group under another operator. -/
def withOp (op : GroupOp) (sub : TreeNode C) : Option (TreeNode C) :=
  match sub with
  | .contact (id, c) => some (.contact (id, c))
  | .group id _ children => some (.group id op children)

/-- One node of a forest, at whatever depth, has been replaced, and nothing else has changed. -/
inductive Replaced (old : TreeNode C) (new : Option (TreeNode C)) :
    List (TreeNode C) → List (TreeNode C) → Prop where
  | here (rest : List (TreeNode C)) : Replaced old new (old :: rest) (new.toList ++ rest)
  | next (node : TreeNode C) {rest rest' : List (TreeNode C)} (h : Replaced old new rest rest') :
      Replaced old new (node :: rest) (node :: rest')
  | within (id : ElementId) (op : GroupOp) (rest : List (TreeNode C))
      {children children' : List (TreeNode C)} (h : Replaced old new children children') :
      Replaced old new (.group id op children :: rest) (.group id op children' :: rest)

section

variable {old : TreeNode C} {new : Option (TreeNode C)} {nodes nodes' : List (TreeNode C)}

theorem nodesContacts_toList (root : Option (TreeNode C)) :
    nodesContacts root.toList = contacts root := by
  cases root with
  | none => rfl
  | some node => simp [nodesContacts, contacts]

theorem nodesIds_toList (root : Option (TreeNode C)) : nodesIds root.toList = ids root := by
  cases root with
  | none => rfl
  | some node => simp [nodesIds, ids]

/-- The contacts of the one node are replaced, where they stand. -/
theorem Replaced.contacts_eq (h : Replaced old new nodes nodes') :
    ∃ before after, nodesContacts nodes = before ++ nodeContacts old ++ after ∧
      nodesContacts nodes' = before ++ contacts new ++ after := by
  induction h with
  | here rest =>
    refine ⟨[], nodesContacts rest, by simp [nodesContacts], ?_⟩
    rw [nodesContacts_append, nodesContacts_toList, List.nil_append]
  | next node _ ih =>
    obtain ⟨before, after, hold, hnew⟩ := ih
    refine ⟨nodeContacts node ++ before, after, ?_, ?_⟩
    · simp [nodesContacts, hold]
    · simp [nodesContacts, hnew]
  | within id op rest _ ih =>
    obtain ⟨before, after, hold, hnew⟩ := ih
    refine ⟨before, after ++ nodesContacts rest, ?_, ?_⟩
    · simp [nodesContacts, nodeContacts, hold]
    · simp [nodesContacts, nodeContacts, hnew]

theorem Replaced.ids_eq (h : Replaced old new nodes nodes') :
    ∃ before after, nodesIds nodes = before ++ nodeIds old ++ after ∧
      nodesIds nodes' = before ++ ids new ++ after := by
  induction h with
  | here rest =>
    refine ⟨[], nodesIds rest, by simp [nodesIds], ?_⟩
    rw [nodesIds_append, nodesIds_toList, List.nil_append]
  | next node _ ih =>
    obtain ⟨before, after, hold, hnew⟩ := ih
    refine ⟨nodeIds node ++ before, after, ?_, ?_⟩
    · simp [nodesIds, hold]
    · simp [nodesIds, hnew]
  | within id op rest _ ih =>
    obtain ⟨before, after, hold, hnew⟩ := ih
    refine ⟨id :: before, after ++ nodesIds rest, ?_, ?_⟩
    · simp [nodesIds, nodeIds, hold]
    · simp [nodesIds, nodeIds, hnew]

theorem Replaced.append (h : Replaced old new nodes nodes') (more : List (TreeNode C)) :
    Replaced old new (nodes ++ more) (nodes' ++ more) := by
  induction h with
  | here rest =>
    rw [List.append_assoc]
    exact .here (rest ++ more)
  | next node _ ih => exact .next node ih
  | within id op rest hbelow _ => exact .within id op (rest ++ more) hbelow

theorem Replaced.full_old (h : Replaced old new nodes nodes') (hnodes : ∀ n ∈ nodes, Full n) :
    Full old := by
  induction h with
  | here rest => exact hnodes _ List.mem_cons_self
  | next node _ ih => exact ih fun n hn => hnodes n (List.mem_cons_of_mem _ hn)
  | within id op rest _ ih =>
    cases hnodes _ List.mem_cons_self with
    | group _ hfull => exact ih hfull

/-- A full tree stays full where a full one is put in. -/
theorem Replaced.full {node : TreeNode C} (h : Replaced old (some node) nodes nodes')
    (hnode : Full node) (hnodes : ∀ n ∈ nodes, Full n) : ∀ n ∈ nodes', Full n := by
  induction h with
  | here rest =>
    intro n hn
    rcases List.mem_cons.mp hn with rfl | hn
    · exact hnode
    · exact hnodes n (List.mem_cons_of_mem _ hn)
  | next other _ ih =>
    intro n hn
    rcases List.mem_cons.mp hn with rfl | hn
    · exact hnodes _ List.mem_cons_self
    · exact ih (fun m hm => hnodes m (List.mem_cons_of_mem _ hm)) n hn
  | within id op rest hbelow ih =>
    intro n hn
    rcases List.mem_cons.mp hn with rfl | hn
    · cases hnodes _ List.mem_cons_self with
      | group hsome hfull =>
        refine .group (fun hnil => ?_) (ih hfull)
        -- a forest with a node replaced by a node is not empty
        cases hbelow <;> cases hnil
    · exact hnodes n (List.mem_cons_of_mem _ hn)

end

/-! ## Where an id stands -/

theorem replaceIn_root {target : ElementId} {new : TreeNode C → Option (TreeNode C)}
    {node : TreeNode C} (h : node.id = target) : replaceIn target new node = new node := by
  cases node with
  | contact c => exact if_pos h
  | group id op children => exact if_pos h

mutual

theorem findIn_eq_none {target : ElementId} : ∀ (node : TreeNode C),
    findIn target node = none ↔ target ∉ nodeIds node
  | .contact (id, c) => by
      by_cases hid : id = target
      · simp [findIn, nodeIds, hid]
      · simp [findIn, nodeIds, hid, Ne.symm hid]
  | .group id op children => by
      rw [findIn, nodeIds, List.mem_cons, not_or]
      by_cases hid : id = target
      · simp [hid]
      · rw [if_neg hid, findAmong_eq_none children]
        exact ⟨fun h => ⟨Ne.symm hid, h⟩, fun h => h.2⟩

theorem findAmong_eq_none {target : ElementId} : ∀ (nodes : List (TreeNode C)),
    findAmong target nodes = none ↔ target ∉ nodesIds nodes
  | [] => by simp [findAmong, nodesIds]
  | child :: rest => by
      rw [findAmong, nodesIds, Option.or_eq_none_iff, findIn_eq_none child,
        findAmong_eq_none rest, List.mem_append, not_or]

end

theorem id_mem_nodeIds (node : TreeNode C) : node.id ∈ nodeIds node := by
  cases node with
  | contact c => exact List.mem_cons_self
  | group id op children => exact List.mem_cons_self

theorem mem_nodesIds_of_mem {nodes : List (TreeNode C)} {node : TreeNode C} (h : node ∈ nodes) :
    node.id ∈ nodesIds nodes := by
  induction nodes with
  | nil => cases h
  | cons first rest ih =>
    rw [nodesIds]
    rcases List.mem_cons.mp h with rfl | h
    · exact List.mem_append_left _ (id_mem_nodeIds node)
    · exact List.mem_append_right _ (ih h)

mutual

theorem replaceIn_of_not_mem {target : ElementId} {new : TreeNode C → Option (TreeNode C)} :
    ∀ (node : TreeNode C), target ∉ nodeIds node → replaceIn target new node = some node
  | .contact (id, c), h => by
      rw [nodeIds, List.mem_singleton] at h
      rw [replaceIn, if_neg (Ne.symm h)]
  | .group id op children, h => by
      rw [nodeIds, List.mem_cons, not_or] at h
      rw [replaceIn, if_neg (Ne.symm h.1), replaceAmong_of_not_mem children h.2]

theorem replaceAmong_of_not_mem {target : ElementId} {new : TreeNode C → Option (TreeNode C)} :
    ∀ (nodes : List (TreeNode C)), target ∉ nodesIds nodes → replaceAmong target new nodes = nodes
  | [], _ => by rw [replaceAmong]
  | child :: rest, h => by
      rw [nodesIds, List.mem_append, not_or] at h
      rw [replaceAmong, replaceIn_of_not_mem child h.1, replaceAmong_of_not_mem rest h.2]
      rfl

end

mutual

/-- Ids being distinct, replacing at an id replaces the one node that is found there. -/
theorem replaceIn_replaced {target : ElementId} {new : TreeNode C → Option (TreeNode C)}
    {sub : TreeNode C} : ∀ (node : TreeNode C), (nodeIds node).Nodup →
      findIn target node = some sub → Replaced sub (new sub) [node] (replaceIn target new node).toList
  | .contact (id, c), _, h => by
      by_cases hid : id = target
      · rw [findIn, if_pos hid] at h
        cases h
        rw [replaceIn, if_pos hid]
        exact List.append_nil (new (.contact (id, c))).toList ▸ .here []
      · rw [findIn, if_neg hid] at h
        cases h
  | .group id op children, hids, h => by
      by_cases hid : id = target
      · rw [findIn, if_pos hid] at h
        cases h
        rw [replaceIn, if_pos hid]
        exact List.append_nil (new (.group id op children)).toList ▸ .here []
      · rw [findIn, if_neg hid] at h
        rw [replaceIn, if_neg hid]
        exact .within id op [] (replaceAmong_replaced children (List.nodup_cons.mp hids).2 h)

theorem replaceAmong_replaced {target : ElementId} {new : TreeNode C → Option (TreeNode C)}
    {sub : TreeNode C} : ∀ (nodes : List (TreeNode C)), (nodesIds nodes).Nodup →
      findAmong target nodes = some sub →
      Replaced sub (new sub) nodes (replaceAmong target new nodes)
  | [], _, h => by
      rw [findAmong] at h
      cases h
  | child :: rest, hids, h => by
      rw [nodesIds] at hids
      rw [findAmong] at h
      rw [replaceAmong]
      cases hfirst : findIn target child with
      | some found =>
        rw [hfirst] at h
        cases h
        have hmem : target ∈ nodeIds child := by
          by_contra hnot
          rw [(findIn_eq_none child).mpr hnot] at hfirst
          cases hfirst
        rw [replaceAmong_of_not_mem rest fun hrest =>
          (List.nodup_append.mp hids).2.2 _ hmem _ hrest rfl]
        exact (replaceIn_replaced child (List.nodup_append.mp hids).1 hfirst).append rest
      | none =>
        rw [hfirst, Option.none_or] at h
        rw [replaceIn_of_not_mem child ((findIn_eq_none child).mp hfirst)]
        exact .next child (replaceAmong_replaced rest (List.nodup_append.mp hids).2.1 h)

end

/-! ## The edits are replacements -/

theorem normalizeAll_congr {op : GroupOp} : ∀ {first second : List (TreeNode C)},
    first.map Editor.normalize = second.map Editor.normalize →
    normalizeAll op first = normalizeAll op second
  | [], [], _ => rfl
  | a :: first, b :: second, h => by
      rw [List.map_cons, List.map_cons, List.cons.injEq] at h
      rw [normalizeAll, normalizeAll, h.1, normalizeAll_congr h.2]

/-- A contact spliced in beside a child reads as the two of them in a group of the operator. -/
theorem normalizeAll_paired (fresh : ElementId) (op : GroupOp) (sub added : TreeNode C)
    (rest : List (TreeNode C)) :
    normalizeAll op (sub :: added :: rest) =
      normalizeAll op (.group fresh op [sub, added] :: rest) := by
  have hpair : spliced op (Editor.normalize (.group fresh op [sub, added])) =
      normalizeAll op [sub, added] := by
    rw [Editor.normalize]
    exact spliced_regroup fun child hchild => (normalizeAll_normal op _ child hchild).2
  rw [normalizeAll, normalizeAll, normalizeAll, hpair, normalizeAll, normalizeAll, normalizeAll]
  simp

theorem joined_cons_ne {fresh target : ElementId} {added : TreeNode C} {op parentOp : GroupOp}
    {child : TreeNode C} {rest : List (TreeNode C)} (hchild : child.id ≠ target)
    (hrest : rest.any (fun c => c.id = target) = true) :
    joined fresh target added op parentOp (child :: rest) =
      child :: joined fresh target added op parentOp rest := by
  have hfound : ∃ i, rest.findIdx? (fun c => c.id = target) = some i := by
    rw [← Option.isSome_iff_exists, List.findIdx?_isSome]
    exact hrest
  obtain ⟨i, hi⟩ := hfound
  unfold joined
  simp only [List.findIdx?_cons, hchild, decide_false, Bool.false_eq_true, if_false, hi,
    Option.map_some, List.insertIdx_succ_cons, List.modify_succ_cons]
  split <;> rfl

/-- At the parent: the target's new neighbour, or the group around the two. -/
theorem normalizeAll_joined {fresh target : ElementId} {added : TreeNode C} {op : GroupOp}
    (parentOp : GroupOp) : ∀ (children : List (TreeNode C)), (nodesIds children).Nodup →
      children.any (fun c => c.id = target) = true →
      normalizeAll parentOp (joined fresh target added op parentOp children) =
        normalizeAll parentOp (replaceAmong target (paired fresh added op) children)
  | [], _, h => by cases h
  | child :: rest, hids, h => by
      rw [nodesIds] at hids
      obtain ⟨-, hrestids, hapart⟩ := List.nodup_append.mp hids
      by_cases hchild : child.id = target
      · have hin : target ∈ nodeIds child := hchild ▸ id_mem_nodeIds child
        rw [replaceAmong, replaceIn_root hchild, replaceAmong_of_not_mem rest fun hrest =>
          hapart _ hin _ hrest rfl, paired]
        unfold joined
        by_cases hop : parentOp = op
        · subst hop
          simpa [List.findIdx?_cons, hchild] using normalizeAll_paired fresh parentOp child added rest
        · simp [List.findIdx?_cons, hchild, hop]
      · have hrest : rest.any (fun c => c.id = target) = true := by
          simpa [hchild] using h
        have hnot : target ∉ nodeIds child := by
          intro hin
          obtain ⟨c, hc, hid⟩ := List.any_eq_true.mp hrest
          rw [← of_decide_eq_true hid] at hin
          exact hapart _ hin _ (mem_nodesIds_of_mem hc) rfl
        rw [joined_cons_ne hchild hrest, replaceAmong, replaceIn_of_not_mem child hnot,
          Option.toList_some, List.singleton_append, normalizeAll, normalizeAll,
          normalizeAll_joined parentOp rest hrestids hrest]

mutual

theorem mapNode_joinedAt_of_not_mem {fresh target parent : ElementId} {added : TreeNode C}
    {op : GroupOp} : ∀ (node : TreeNode C), parent ∉ nodeIds node →
      mapNode (joinedAt fresh target parent added op) node = node
  | .contact (id, c), _ => by
      rw [mapNode]
      rfl
  | .group id op' children, h => by
      rw [nodeIds, List.mem_cons, not_or] at h
      rw [mapNode, joinedAt, if_neg (Ne.symm h.1), mapNodes_joinedAt_of_not_mem children h.2]

theorem mapNodes_joinedAt_of_not_mem {fresh target parent : ElementId} {added : TreeNode C}
    {op : GroupOp} : ∀ (nodes : List (TreeNode C)), parent ∉ nodesIds nodes →
      mapNodes (joinedAt fresh target parent added op) nodes = nodes
  | [], _ => by rw [mapNodes]
  | child :: rest, h => by
      rw [nodesIds, List.mem_append, not_or] at h
      rw [mapNodes, mapNode_joinedAt_of_not_mem child h.1, mapNodes_joinedAt_of_not_mem rest h.2]

end

mutual

theorem parentOf_of_not_mem {target : ElementId} : ∀ (node : TreeNode C), target ∉ nodeIds node →
    parentOf target node = none
  | .contact (id, c), _ => by rw [parentOf]
  | .group id op children, h => by
      rw [nodeIds, List.mem_cons, not_or] at h
      have hany : children.any (fun c => c.id = target) = false := by
        rw [List.any_eq_false]
        intro c hc hid
        exact h.2 (of_decide_eq_true hid ▸ mem_nodesIds_of_mem hc)
      rw [parentOf, hany, if_neg Bool.false_ne_true, parentAmong_of_not_mem children h.2]

theorem parentAmong_of_not_mem {target : ElementId} : ∀ (nodes : List (TreeNode C)),
    target ∉ nodesIds nodes → parentAmong target nodes = none
  | [], _ => by rw [parentAmong]
  | child :: rest, h => by
      rw [nodesIds, List.mem_append, not_or] at h
      rw [parentAmong, parentOf_of_not_mem child h.1, parentAmong_of_not_mem rest h.2]
      rfl

end

mutual

/-- **Inserting beside a node is pairing it up**, as far as `normalize` can tell: below the root. -/
theorem Editor.normalize_inserted (fresh : ElementId) {target : ElementId} (added : TreeNode C)
    (op : GroupOp) :
    ∀ (node : TreeNode C), (nodeIds node).Nodup → target ∈ nodeIds node → node.id ≠ target →
      ∃ parent ∈ nodeIds node, ∃ next, parentOf target node = some parent ∧
        replaceIn target (paired fresh added op) node = some next ∧
        Editor.normalize (mapNode (joinedAt fresh target parent added op) node) = Editor.normalize next
  | .contact (id, c), _, hmem, hne => by
      rw [nodeIds, List.mem_singleton] at hmem
      exact absurd hmem.symm hne
  | .group id op' children, hids, hmem, hne => by
      obtain ⟨hid, hids⟩ := List.nodup_cons.mp hids
      have hmem : target ∈ nodesIds children := (List.mem_cons.mp hmem).resolve_left (Ne.symm hne)
      by_cases hany : children.any (fun c => c.id = target) = true
      · -- this group is the parent
        refine ⟨id, List.mem_cons_self, _, ?_, if_neg hne, ?_⟩
        · rw [parentOf, if_pos hany]
        · have hhere : mapNode (joinedAt fresh target id added op) (.group id op' children) =
              .group id op' (joined fresh target added op op' children) := by
            rw [mapNode, joinedAt, if_pos rfl]
          rw [hhere, Editor.normalize, Editor.normalize, normalizeAll_joined op' children hids hany]
      · have hnone : ∀ c ∈ children, c.id ≠ target := by
          intro c hc heq
          exact hany (List.any_eq_true.mpr ⟨c, hc, decide_eq_true heq⟩)
        obtain ⟨parent, hparent, hfound, hmaps⟩ := normalizeAll_inserted fresh added op children hids
          hmem hnone
        have hpassed : mapNode (joinedAt fresh target parent added op) (.group id op' children) =
            .group id op' (mapNodes (joinedAt fresh target parent added op) children) := by
          have hidne : id ≠ parent := fun h => hid (h ▸ hparent)
          rw [mapNode, joinedAt, if_neg hidne]
        refine ⟨parent, List.mem_cons_of_mem _ hparent, _, ?_, if_neg hne, ?_⟩
        · rw [parentOf, if_neg hany, hfound]
        · rw [hpassed, Editor.normalize, Editor.normalize, normalizeAll_congr hmaps]

theorem normalizeAll_inserted (fresh : ElementId) {target : ElementId} (added : TreeNode C)
    (op : GroupOp) :
    ∀ (nodes : List (TreeNode C)), (nodesIds nodes).Nodup → target ∈ nodesIds nodes →
      (∀ node ∈ nodes, node.id ≠ target) →
      ∃ parent ∈ nodesIds nodes, parentAmong target nodes = some parent ∧
        (mapNodes (joinedAt fresh target parent added op) nodes).map Editor.normalize =
          (replaceAmong target (paired fresh added op) nodes).map Editor.normalize
  | [], _, hmem, _ => by cases hmem
  | child :: rest, hids, hmem, hne => by
      rw [nodesIds] at hids hmem
      obtain ⟨hchildids, hrestids, hapart⟩ := List.nodup_append.mp hids
      by_cases hchild : target ∈ nodeIds child
      · obtain ⟨parent, hparent, next, hfound, hnext, hnormal⟩ :=
          Editor.normalize_inserted fresh added op child hchildids hchild
            (hne child List.mem_cons_self)
        refine ⟨parent, List.mem_append_left _ hparent, by rw [parentAmong, hfound]; rfl, ?_⟩
        rw [mapNodes, replaceAmong, hnext,
          mapNodes_joinedAt_of_not_mem rest fun h => hapart _ hparent _ h rfl,
          replaceAmong_of_not_mem rest fun h => hapart _ hchild _ h rfl]
        simp [hnormal]
      · have hrest : target ∈ nodesIds rest := (List.mem_append.mp hmem).resolve_left hchild
        obtain ⟨parent, hparent, hfound, hmaps⟩ :=
          normalizeAll_inserted fresh added op rest hrestids hrest
            fun node hnode => hne node (List.mem_cons_of_mem _ hnode)
        refine ⟨parent, List.mem_append_right _ hparent, ?_, ?_⟩
        · rw [parentAmong, parentOf_of_not_mem child hchild, hfound]
          rfl
        · rw [mapNodes, replaceAmong, replaceIn_of_not_mem child hchild,
            mapNode_joinedAt_of_not_mem child fun h => hapart _ h _ hparent rfl]
          simp [hmaps]

end

theorem insertBeside_eq {fresh target : ElementId} {added root : TreeNode C} {op : GroupOp}
    (hids : (nodeIds root).Nodup) (hmem : target ∈ nodeIds root) :
    insertBeside fresh (some root) target added op =
      normalize (replaceIn target (paired fresh added op) root) := by
  by_cases hroot : root.id = target
  · rw [replaceIn_root hroot]
    exact if_pos hroot
  · obtain ⟨parent, -, next, hfound, hnext, hnormal⟩ :=
      Editor.normalize_inserted fresh added op root hids hmem hroot
    rw [hnext]
    unfold insertBeside
    dsimp only
    rw [if_neg hroot, hfound]
    exact hnormal

mutual

theorem prune_eq (target : ElementId) : ∀ (node : TreeNode C),
    prune target node = replaceIn target (fun _ => none) node
  | .contact (id, c) => by rw [prune, replaceIn]
  | .group id op children => by rw [prune, replaceIn, pruneAll_eq target children]

theorem pruneAll_eq (target : ElementId) : ∀ (nodes : List (TreeNode C)),
    pruneAll target nodes = replaceAmong target (fun _ => none) nodes
  | [] => by rw [pruneAll, replaceAmong]
  | child :: rest => by
      rw [pruneAll, replaceAmong, prune_eq target child, pruneAll_eq target rest]

end

theorem removeNode_eq (target : ElementId) (root : TreeNode C) :
    removeNode (some root) target = normalize (replaceIn target (fun _ => none) root) := by
  unfold removeNode
  dsimp only
  by_cases hroot : root.id = target
  · rw [if_pos hroot, replaceIn_root hroot]
    rfl
  · rw [if_neg hroot]
    cases root with
    | contact c =>
      have hid : c.1 ≠ target := hroot
      rw [replaceIn, if_neg hid, normalize, Option.bind_some, Editor.normalize]
    | group id op children =>
      dsimp only
      rw [prune_eq]

mutual

/-- Below the group there is no node with its id, so `mapNode` not going there is no difference. -/
theorem mapNode_reoperated (target : ElementId) (op : GroupOp) : ∀ (node : TreeNode C),
    replaceIn target (withOp op) node = some (mapNode (reoperated target op) node)
  | .contact (id, c) => by
      rw [replaceIn, mapNode]
      by_cases hid : id = target
      · rw [if_pos hid]
        rfl
      · rw [if_neg hid]
        rfl
  | .group id op' children => by
      rw [replaceIn, mapNode, reoperated]
      by_cases hid : id = target
      · rw [if_pos hid, if_pos hid]
        rfl
      · rw [if_neg hid, if_neg hid, mapNodes_reoperated target op children]

theorem mapNodes_reoperated (target : ElementId) (op : GroupOp) : ∀ (nodes : List (TreeNode C)),
    replaceAmong target (withOp op) nodes = mapNodes (reoperated target op) nodes
  | [] => by rw [replaceAmong, mapNodes]
  | child :: rest => by
      rw [replaceAmong, mapNodes, mapNode_reoperated target op child,
        mapNodes_reoperated target op rest]
      rfl

end

theorem setGroupOp_eq (target : ElementId) (op : GroupOp) (root : TreeNode C) :
    setGroupOp (some root) target op = normalize (replaceIn target (withOp op) root) := by
  rw [mapNode_reoperated]
  rfl

/-! ## What an edit leaves -/

/-- What holds of a tree between the edits. -/
structure Sound (root : Option (TreeNode C)) : Prop where
  normal : ∀ node, root = some node → Normal node
  distinct : (ids root).Nodup

theorem Sound.normalized {root : Option (TreeNode C)} (h : (ids root).Nodup) :
    Sound (normalize root) :=
  ⟨fun _ => normalize_normal, h.sublist (ids_normalize root)⟩

variable {root : TreeNode C}

theorem exists_replaced {target : ElementId} (hids : (nodeIds root).Nodup)
    (hmem : target ∈ nodeIds root) : ∃ sub, findNode (some root) target = some sub ∧
      ∀ new, Replaced sub (new sub) [root] (replaceIn target new root).toList := by
  cases hsub : findIn target root with
  | none => exact absurd hmem ((findIn_eq_none root).mp hsub)
  | some sub => exact ⟨sub, hsub, fun new => replaceIn_replaced root hids hsub⟩

theorem Replaced.root_contacts {old root : TreeNode C} {new tree : Option (TreeNode C)}
    (h : Replaced old new [root] tree.toList) : ∃ before after,
      nodeContacts root = before ++ nodeContacts old ++ after ∧
      contacts tree = before ++ contacts new ++ after := by
  obtain ⟨before, after, hold, hnew⟩ := h.contacts_eq
  refine ⟨before, after, ?_, ?_⟩
  · rw [← hold, nodesContacts, nodesContacts, List.append_nil]
  · rw [← hnew, nodesContacts_toList]

theorem Replaced.root_ids {old root : TreeNode C} {new tree : Option (TreeNode C)}
    (h : Replaced old new [root] tree.toList) : ∃ before after,
      nodeIds root = before ++ nodeIds old ++ after ∧ ids tree = before ++ ids new ++ after := by
  obtain ⟨before, after, hold, hnew⟩ := h.ids_eq
  refine ⟨before, after, ?_, ?_⟩
  · rw [← hold, nodesIds, nodesIds, List.append_nil]
  · rw [← hnew, nodesIds_toList]

theorem exists_replaceIn (target : ElementId) {new : TreeNode C → Option (TreeNode C)}
    (hnew : ∀ node, (new node).isSome) (root : TreeNode C) :
    ∃ tree, replaceIn target new root = some tree := by
  by_cases hroot : root.id = target
  · rw [replaceIn_root hroot]
    exact Option.isSome_iff_exists.mp (hnew root)
  · cases root with
    | contact c => exact ⟨_, if_neg hroot⟩
    | group id op children => exact ⟨_, if_neg hroot⟩

/-- **A contact put beside a node** stands after the last contact of it, and the tree reads as with
`node op contact` in the node's place. -/
theorem insertBeside_spec (hroot : Sound (some root)) {target : ElementId}
    (hmem : target ∈ nodeIds root) {fresh id : ElementId} (c : C) (op : GroupOp)
    (hfresh : fresh ∉ nodeIds root) (hid : id ∉ nodeIds root) (hne : fresh ≠ id) :
    ∃ sub tree next, findNode (some root) target = some sub ∧
      Replaced sub (some (.group fresh op [sub, .contact (id, c)])) [root] [tree] ∧
      insertBeside fresh (some root) target (.contact (id, c)) op = some next ∧ Sound (some next) ∧
      (∃ before after, nodeContacts root = before ++ nodeContacts sub ++ after ∧
        nodeContacts next = before ++ nodeContacts sub ++ (id, c) :: after) ∧
      ∀ v, value v next = value v tree := by
  obtain ⟨sub, hsub, hreplaced⟩ := exists_replaced hroot.distinct hmem
  have hpaired : ∀ node, (paired fresh (.contact (id, c)) op node).isSome := fun _ => rfl
  obtain ⟨tree, htree⟩ := exists_replaceIn target hpaired root
  have hrep : Replaced sub (some (.group fresh op [sub, .contact (id, c)])) [root]
      (some tree).toList := htree ▸ hreplaced (paired fresh (.contact (id, c)) op)
  have hedit : insertBeside fresh (some root) target (.contact (id, c)) op =
      normalize (some tree) := htree ▸ insertBeside_eq hroot.distinct hmem
  -- the value: the pair is full, and so is the tree with it
  have hfull : Full tree := by
    have hold : ∀ n ∈ [root], Full n := by
      intro n hn
      cases List.mem_singleton.mp hn
      exact (hroot.normal root rfl).full
    have hpair : Full (.group fresh op [sub, .contact (id, c)]) := by
      refine .group (by simp) fun child hchild => ?_
      rcases List.mem_cons.mp hchild with rfl | hchild
      · exact hrep.full_old hold
      · cases List.mem_singleton.mp hchild
        exact .contact (id, c)
    exact hrep.full hpair hold tree List.mem_cons_self
  obtain ⟨next, hnext, -⟩ := value_normalize (fun _ => none) tree hfull
  have hvalue : ∀ v, value v next = value v tree := by
    intro v
    obtain ⟨n, hn, hv⟩ := value_normalize v tree hfull
    cases hnext.symm.trans hn
    exact hv
  have hsome : insertBeside fresh (some root) target (.contact (id, c)) op = some next :=
    hedit.trans hnext
  refine ⟨sub, tree, next, hsub, hrep, hsome, ?_, ?_, hvalue⟩
  · -- the ids: those of the old tree, and the two new ones
    obtain ⟨before, after, hold, hnew⟩ := hrep.root_ids
    rw [← hsome, hedit]
    refine Sound.normalized ?_
    have hdistinct : (nodeIds root).Nodup := hroot.distinct
    have hperm : (ids (some tree)).Perm (fresh :: id :: nodeIds root) := by
      rw [hnew, hold]
      simp only [ids, nodeIds, nodesIds, List.append_nil]
      have hfront : (before ++ fresh :: (nodeIds sub ++ id :: after)).Perm
          (fresh :: (before ++ (nodeIds sub ++ id :: after))) := List.perm_middle
      have hnext : (before ++ nodeIds sub ++ id :: after).Perm
          (id :: (before ++ nodeIds sub ++ after)) := List.perm_middle
      rw [List.append_assoc, List.append_assoc] at hnext
      simpa using hfront.trans (hnext.cons fresh)
    refine hperm.nodup_iff.mpr (List.nodup_cons.mpr ⟨?_, List.nodup_cons.mpr ⟨hid, hdistinct⟩⟩)
    rw [List.mem_cons, not_or]
    exact ⟨hne, hfresh⟩
  · obtain ⟨before, after, hold, hnew⟩ := hrep.root_contacts
    refine ⟨before, after, hold, ?_⟩
    have hkept := contacts_normalize (some tree)
    rw [← hedit, hsome, hnew] at hkept
    simpa [contacts, nodeContacts, nodesContacts] using hkept

/-- **A node removed** takes its contacts with it and no others. -/
theorem removeNode_spec (hroot : Sound (some root)) {target : ElementId}
    (hmem : target ∈ nodeIds root) :
    ∃ sub rest, findNode (some root) target = some sub ∧
      Replaced sub none [root] rest.toList ∧ removeNode (some root) target = normalize rest ∧
      Sound (removeNode (some root) target) ∧
      ∃ before after, nodeContacts root = before ++ nodeContacts sub ++ after ∧
        contacts (removeNode (some root) target) = before ++ after := by
  obtain ⟨sub, hsub, hreplaced⟩ := exists_replaced hroot.distinct hmem
  have hrep := hreplaced fun _ => none
  have hedit := removeNode_eq target root
  refine ⟨sub, _, hsub, hrep, hedit, ?_, ?_⟩
  · obtain ⟨before, after, hold, hnew⟩ := hrep.root_ids
    rw [hedit]
    refine Sound.normalized ?_
    have hdistinct : (nodeIds root).Nodup := hroot.distinct
    rw [hold] at hdistinct
    rw [hnew]
    exact hdistinct.sublist ((List.Sublist.refl before).append (List.nil_sublist _) |>.append
      (List.Sublist.refl after))
  · obtain ⟨before, after, hold, hnew⟩ := hrep.root_contacts
    refine ⟨before, after, hold, ?_⟩
    rw [hedit, contacts_normalize, hnew]
    simp [contacts]

theorem withOp_contacts (op : GroupOp) (sub : TreeNode C) :
    contacts (withOp op sub) = nodeContacts sub := by
  cases sub with
  | contact c => rfl
  | group id op' children => simp [withOp, contacts, nodeContacts]

theorem withOp_ids (op : GroupOp) (sub : TreeNode C) : ids (withOp op sub) = nodeIds sub := by
  cases sub with
  | contact c => rfl
  | group id op' children => simp [withOp, ids, nodeIds]

/-- **A group's operator set** leaves every contact where it is. -/
theorem setGroupOp_spec (hroot : Sound (some root)) {target : ElementId}
    (hmem : target ∈ nodeIds root) (op : GroupOp) :
    ∃ sub tree, findNode (some root) target = some sub ∧
      Replaced sub (withOp op sub) [root] [tree] ∧
      setGroupOp (some root) target op = normalize (some tree) ∧
      Sound (setGroupOp (some root) target op) ∧
      contacts (setGroupOp (some root) target op) = nodeContacts root := by
  obtain ⟨sub, hsub, hreplaced⟩ := exists_replaced hroot.distinct hmem
  have hrep := hreplaced (withOp op)
  rw [mapNode_reoperated] at hrep
  have hedit : setGroupOp (some root) target op =
      normalize (some (mapNode (reoperated target op) root)) := rfl
  refine ⟨sub, _, hsub, hrep, hedit, ?_, ?_⟩
  · obtain ⟨before, after, hold, hnew⟩ := hrep.root_ids
    rw [hedit]
    refine Sound.normalized ?_
    rw [hnew, withOp_ids, ← hold]
    exact hroot.distinct
  · obtain ⟨before, after, hold, hnew⟩ := hrep.root_contacts
    rw [hedit, contacts_normalize, hnew, withOp_contacts, hold]

/-! ## Runs of edits -/

inductive Edit (C : Type) where
  | insert (fresh target id : ElementId) (contact : C) (op : GroupOp)
  | remove (target : ElementId)
  | setOp (target : ElementId) (op : GroupOp)

namespace Edit

def apply (root : Option (TreeNode C)) : Edit C → Option (TreeNode C)
  | .insert fresh target id c op => insertBeside fresh root target (.contact (id, c)) op
  | .remove target => removeNode root target
  | .setOp target op => setGroupOp root target op

def target : Edit C → ElementId
  | .insert _ target _ _ _ => target
  | .remove target => target
  | .setOp target _ => target

/-- The ids an edit brings are new to the tree. -/
def Fresh (root : Option (TreeNode C)) : Edit C → Prop
  | .insert fresh _ id _ _ => fresh ∉ ids root ∧ id ∉ ids root ∧ fresh ≠ id
  | _ => True

instance (root : Option (TreeNode C)) (edit : Edit C) : Decidable (edit.Fresh root) :=
  match edit with
  | .insert fresh _ id _ _ =>
      inferInstanceAs (Decidable (fresh ∉ ids root ∧ id ∉ ids root ∧ fresh ≠ id))
  | .remove _ => inferInstanceAs (Decidable True)
  | .setOp _ _ => inferInstanceAs (Decidable True)

/-- The contacts an edit is about: the one it puts in, or those of the subtree it takes out. -/
def touched (root : Option (TreeNode C)) : Edit C → List ElementId
  | .insert _ _ id _ _ => [id]
  | .remove target => (contacts (findNode root target)).map Prod.fst
  | .setOp _ _ => []

end Edit

def run (root : Option (TreeNode C)) : List (Edit C) → Option (TreeNode C)
  | [] => root
  | edit :: rest => run (edit.apply root) rest

/-- Each edit's ids are new when it is made. -/
def FreshRun (root : Option (TreeNode C)) : List (Edit C) → Prop
  | [] => True
  | edit :: rest => edit.Fresh root ∧ FreshRun (edit.apply root) rest

def decideFreshRun : (root : Option (TreeNode C)) → (edits : List (Edit C)) →
    Decidable (FreshRun root edits)
  | _, [] => inferInstanceAs (Decidable True)
  | root, edit :: rest =>
      have := decideFreshRun (edit.apply root) rest
      inferInstanceAs (Decidable (edit.Fresh root ∧ FreshRun (edit.apply root) rest))

instance (root : Option (TreeNode C)) (edits : List (Edit C)) : Decidable (FreshRun root edits) :=
  decideFreshRun root edits

def touchedBy (root : Option (TreeNode C)) : List (Edit C) → List ElementId
  | [] => []
  | edit :: rest => edit.touched root ++ touchedBy (edit.apply root) rest

/-- The contacts of a tree other than those named. -/
def otherContacts (named : List ElementId) (root : Option (TreeNode C)) : List (ElementId × C) :=
  (contacts root).filter fun c => c.1 ∉ named

theorem normalize_of_sound (h : Sound (some root)) :
    normalize (some root) = some root :=
  normalize_of_normal root (h.normal root rfl)

/-- An edit at an id the tree does not have changes nothing. -/
theorem Edit.apply_of_not_mem (hroot : Sound (some root)) {edit : Edit C}
    (h : edit.target ∉ nodeIds root) : edit.apply (some root) = some root := by
  cases edit with
  | insert fresh target id c op =>
    have hne : root.id ≠ target := fun heq => h (heq ▸ id_mem_nodeIds root)
    show insertBeside fresh (some root) target (.contact (id, c)) op = some root
    unfold insertBeside
    dsimp only
    have habsent : target ∉ nodeIds root := h
    rw [if_neg hne, parentOf_of_not_mem root habsent]
  | remove target =>
    have h : target ∉ nodeIds root := h
    show removeNode (some root) target = some root
    rw [removeNode_eq, replaceIn_of_not_mem root h, normalize_of_sound hroot]
  | setOp target op =>
    have h : target ∉ nodeIds root := h
    show setGroupOp (some root) target op = some root
    rw [setGroupOp_eq, replaceIn_of_not_mem root h, normalize_of_sound hroot]

theorem sound_contact (id : ElementId) (c : C) : Sound (some (.contact (id, c))) := by
  refine ⟨fun node hnode => ?_, by simp [ids, nodeIds]⟩
  cases hnode
  exact .contact (id, c)

theorem filter_of_all {named : List ElementId} {found : List (ElementId × C)}
    (h : ∀ c ∈ found, c.1 ∈ named) : found.filter (fun c => c.1 ∉ named) = [] := by
  rw [List.filter_eq_nil_iff]
  intro c hc
  simpa using h c hc

/-- **One edit** keeps the tree sound and the other contacts as they were. -/
theorem Edit.apply_spec {root : Option (TreeNode C)} (hroot : Sound root) {edit : Edit C}
    (hfresh : edit.Fresh root) :
    Sound (edit.apply root) ∧ ∀ named, (∀ id ∈ edit.touched root, id ∈ named) →
      otherContacts named (edit.apply root) = otherContacts named root := by
  cases root with
  | none =>
    cases edit with
    | insert fresh target id c op =>
      refine ⟨sound_contact id c, fun named hnamed => filter_of_all ?_⟩
      intro contact hcontact
      cases List.mem_singleton.mp hcontact
      exact hnamed id List.mem_cons_self
    | remove target => exact ⟨hroot, fun _ _ => rfl⟩
    | setOp target op => exact ⟨hroot, fun _ _ => rfl⟩
  | some root =>
    by_cases hmem : edit.target ∈ nodeIds root
    · cases edit with
      | insert fresh target id c op =>
        obtain ⟨hfresh, hid, hne⟩ := hfresh
        obtain ⟨sub, _, next, -, -, hnext, hsound, ⟨before, after, hold, hnew⟩, -⟩ :=
          insertBeside_spec hroot hmem c op hfresh hid hne
        have happly : Edit.apply (some root) (.insert fresh target id c op) = some next := hnext
        rw [happly]
        refine ⟨hsound, fun named hnamed => ?_⟩
        have hid : id ∈ named := hnamed id List.mem_cons_self
        simp [otherContacts, contacts, hold, hnew, hid]
      | remove target =>
        have hmem : target ∈ nodeIds root := hmem
        obtain ⟨sub, _, hsub, -, -, hsound, before, after, hold, hnew⟩ :=
          removeNode_spec hroot hmem
        refine ⟨hsound, fun named hnamed => ?_⟩
        have hgone : (nodeContacts sub).filter (fun c => c.1 ∉ named) = [] := by
          refine filter_of_all fun c hc => hnamed c.1 ?_
          show c.1 ∈ (contacts (findNode (some root) target)).map Prod.fst
          rw [hsub]
          exact List.mem_map_of_mem hc
        show (contacts (removeNode (some root) target)).filter _ = (nodeContacts root).filter _
        rw [hold, hnew, List.filter_append, List.filter_append, List.filter_append, hgone,
          List.append_nil]
      | setOp target op =>
        have hmem : target ∈ nodeIds root := hmem
        obtain ⟨_, _, -, -, -, hsound, hsame⟩ := setGroupOp_spec hroot hmem op
        refine ⟨hsound, fun named _ => ?_⟩
        show (contacts (setGroupOp (some root) target op)).filter _ = (nodeContacts root).filter _
        rw [hsame]
    · rw [Edit.apply_of_not_mem hroot hmem]
      exact ⟨hroot, fun _ _ => rfl⟩

/-- **And so does a run of them.** -/
theorem run_spec (edits : List (Edit C)) : ∀ {root : Option (TreeNode C)}, Sound root →
    FreshRun root edits → Sound (run root edits) ∧
      ∀ named, (∀ id ∈ touchedBy root edits, id ∈ named) →
        otherContacts named (run root edits) = otherContacts named root := by
  induction edits with
  | nil =>
    intro root hroot _
    exact ⟨hroot, fun _ _ => rfl⟩
  | cons edit rest ih =>
    intro root hroot hfresh
    obtain ⟨hsound, hsame⟩ := Edit.apply_spec hroot hfresh.1
    obtain ⟨hrun, hrest⟩ := ih hsound hfresh.2
    refine ⟨hrun, fun named hnamed => ?_⟩
    rw [run, hrest named fun id hid => hnamed id (List.mem_append_right _ hid),
      hsame named fun id hid => hnamed id (List.mem_append_left _ hid)]

/-- **The structural edits are what they say.** In a normalized tree with distinct ids, at every id:
a contact inserted, the subtree removed, the operator set — each gives the normal form of the tree
with that one subtree replaced, with distinct ids again. The new contact comes directly after the
last of the subtree and the tree reads as with `subtree op contact` there; a removal drops the
contacts of the subtree; an operator drops none. Over any run of edits, the contacts that no edit
put in or took out stay as they were, each once and in their order. -/
theorem structural_edits {root : Option (TreeNode C)} (hroot : Sound root) :
    (∀ node, root = some node → ∀ target ∈ nodeIds node, ∃ sub,
      findNode root target = some sub ∧
      (∀ (fresh id : ElementId) (c : C) (op : GroupOp),
        fresh ∉ nodeIds node → id ∉ nodeIds node → fresh ≠ id → ∃ tree next,
          Replaced sub (some (.group fresh op [sub, .contact (id, c)])) [node] [tree] ∧
          insertBeside fresh root target (.contact (id, c)) op = some next ∧ Sound (some next) ∧
          (∃ before after, nodeContacts node = before ++ nodeContacts sub ++ after ∧
            nodeContacts next = before ++ nodeContacts sub ++ (id, c) :: after) ∧
          ∀ v, value v next = value v tree) ∧
      (∃ rest, Replaced sub none [node] rest.toList ∧
        removeNode root target = normalize rest ∧ Sound (removeNode root target) ∧
        ∃ before after, nodeContacts node = before ++ nodeContacts sub ++ after ∧
          contacts (removeNode root target) = before ++ after) ∧
      ∀ op, ∃ tree, Replaced sub (withOp op sub) [node] [tree] ∧
        setGroupOp root target op = normalize (some tree) ∧ Sound (setGroupOp root target op) ∧
        contacts (setGroupOp root target op) = nodeContacts node) ∧
    ∀ edits, FreshRun root edits → Sound (run root edits) ∧
      otherContacts (touchedBy root edits) (run root edits) =
        otherContacts (touchedBy root edits) root := by
  refine ⟨?_, fun edits hfresh => ?_⟩
  · rintro node rfl target hmem
    obtain ⟨sub, rest, hsub, hrest⟩ := removeNode_spec hroot hmem
    refine ⟨sub, hsub, fun fresh id c op hfresh hid hne => ?_, ⟨rest, hrest⟩, fun op => ?_⟩
    · obtain ⟨sub', tree, next, hsub', hinsert⟩ :=
        insertBeside_spec hroot hmem c op hfresh hid hne
      cases hsub.symm.trans hsub'
      exact ⟨tree, next, hinsert⟩
    · obtain ⟨sub', tree, hsub', hset⟩ := setGroupOp_spec hroot hmem op
      cases hsub.symm.trans hsub'
      exact ⟨tree, hset⟩
  · obtain ⟨hsound, hsame⟩ := run_spec edits hroot hfresh
    exact ⟨hsound, hsame _ fun _ hid => hid⟩

/-- `A AND (B OR C) AND D`, built from `A` by three edits; `A` is an other contact to each. -/
theorem structural_edits_segment :
    Sound (run (some (.contact ("a", ())))
        [.insert "g1" "a" "b" () .and, .insert "g2" "b" "c" () .or,
          .insert "g3" "g2" "d" () .and]) ∧
      (contacts (run (some (.contact ("a", ())))
        [.insert "g1" "a" "b" () .and, .insert "g2" "b" "c" () .or,
          .insert "g3" "g2" "d" () .and])).map Prod.fst = ["a", "b", "c", "d"] :=
  ⟨((structural_edits (sound_contact "a" ())).2 _ (by decide)).1, by decide⟩

end IotSaas.Editor.TreeNode
