import IotSaas.Rules.TreeValue

/-!
# `Rules/TwoValued.lean` — a tree that must be true

A one-shot check asks only whether a tree is known to be true, on latches nothing has set yet. For
that question unknown may count as false at every leaf already: AND and OR are monotone, so a tree
is true in Kleene's sense exactly if it is true with `all` and `any` over the leaves that are
(`nodeHolds_iff`). It is the negative answer that needs the third value.
-/

set_option autoImplicit false

namespace IotSaas.Rules

open Lib

variable {F : Type} [PyFloat F]

/-- A leaf on a latch nothing has set, unknown counted as false. -/
def leafHolds (snapshot : MetricSnapshot F) (now : Datetime) (leaf : ConditionLeaf F) : Bool :=
  decide ((evaluateLeaf leaf snapshot now {}).1 = some true)

mutual

/-- A tree with `all` and `any`. -/
def nodeHolds (snapshot : MetricSnapshot F) (now : Datetime) : Node F → Bool
  | .leaf leaf => leafHolds snapshot now leaf
  | .group .and predicates => (nodesHold snapshot now predicates).all id
  | .group .or predicates => (nodesHold snapshot now predicates).any id

def nodesHold (snapshot : MetricSnapshot F) (now : Datetime) : List (Node F) → List Bool
  | [] => []
  | child :: rest => nodeHolds snapshot now child :: nodesHold snapshot now rest

end

mutual

theorem nodeValue_eq_some_true (snapshot : MetricSnapshot F) (now : Datetime) :
    ∀ (node : Node F), nodeValue (leafValue snapshot now fun _ => {}) node = some true ↔
      nodeHolds snapshot now node = true
  | .leaf leaf => by
      rw [nodeValue, nodeHolds, leafHolds, decide_eq_true_iff]
      rfl
  | .group .and predicates => by
      rw [nodeValue, nodeHolds, dominant, combine_false_eq_some_true, List.all_eq_true]
      exact (nodesValues_true snapshot now predicates).1
  | .group .or predicates => by
      rw [nodeValue, nodeHolds, dominant, combine_true_eq_some_true, List.any_eq_true]
      exact (nodesValues_true snapshot now predicates).2

theorem nodesValues_true (snapshot : MetricSnapshot F) (now : Datetime) :
    ∀ (nodes : List (Node F)),
      ((∀ r ∈ nodesValues (leafValue snapshot now fun _ => {}) nodes, r = some true) ↔
        ∀ b ∈ nodesHold snapshot now nodes, id b = true) ∧
      (some true ∈ nodesValues (leafValue snapshot now fun _ => {}) nodes ↔
        ∃ b ∈ nodesHold snapshot now nodes, id b = true)
  | [] => by simp [nodesValues, nodesHold]
  | child :: rest => by
      have hchild := nodeValue_eq_some_true snapshot now child
      obtain ⟨hall, hany⟩ := nodesValues_true snapshot now rest
      rw [nodesValues, nodesHold]
      constructor
      · rw [List.forall_mem_cons, List.forall_mem_cons, hchild, hall]
        rfl
      · rw [List.mem_cons, List.exists_mem_cons_iff, hany, eq_comm, hchild]
        rfl

end

/-- **Unknown may count as false**, where the question is whether the tree is true. -/
theorem nodeHolds_iff (snapshot : MetricSnapshot F) (now : Datetime) (node : Node F) :
    (evaluateNode snapshot now node .empty []).1 = some true ↔
      nodeHolds snapshot now node = true := by
  have hstart : LatchedBy (fun _ => {}) node .empty [] := by
    intro path leaf _
    rfl
  rw [evaluateNode_value snapshot now _ node _ [] hstart]
  exact nodeValue_eq_some_true snapshot now node

end IotSaas.Rules
