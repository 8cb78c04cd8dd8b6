import IotSaas.Rules.Signals

/-!
# `Rules/TreeValue.lean` — the value of a tree after any run

A tree's evaluation threads its latches by path, and two trees that mean the same may keep them at
different paths. What decides is the leaves: after a run from no latches at all, the latch of a leaf
is what its own readings made of it, wherever it stands (`latchAfter`), and the tree's value is the
Kleene combination of its leaves' values (`valueAfter_eq`).
-/

set_option autoImplicit false

namespace IotSaas.Rules

open Lib

variable {F : Type}

mutual

/-- The Kleene value of a tree whose leaves have the values `v`. -/
def nodeValue (v : ConditionLeaf F → Option Bool) : Node F → Option Bool
  | .leaf leaf => v leaf
  | .group op predicates => combine (dominant op) (nodesValues v predicates)

def nodesValues (v : ConditionLeaf F → Option Bool) : List (Node F) → List (Option Bool)
  | [] => []
  | child :: rest => nodeValue v child :: nodesValues v rest

end

/-- The latches of a tree at `base` are those `latch` gives its leaves. -/
def LatchedBy (latch : ConditionLeaf F → LeafState) (node : Node F) (leafStates : LeafStates)
    (base : Path) : Prop :=
  ∀ path leaf, LeafAt node path leaf → leafStates.getD (base ++ path) {} = latch leaf

variable [PyFloat F]

/-- The value of one leaf, its latch given. -/
def leafValue (snapshot : MetricSnapshot F) (now : Datetime)
    (latch : ConditionLeaf F → LeafState) (leaf : ConditionLeaf F) : Option Bool :=
  (evaluateLeaf leaf snapshot now (latch leaf)).1

mutual

/-- **A tree's value is the combination of its leaves'.** The children before a child leave its
latches alone, so each leaf finds the latch it had at the start. -/
theorem evaluateNode_value (snapshot : MetricSnapshot F) (now : Datetime)
    (latch : ConditionLeaf F → LeafState) : ∀ (node : Node F) (leafStates : LeafStates)
    (base : Path), LatchedBy latch node leafStates base →
    (evaluateNode snapshot now node leafStates base).1 =
      nodeValue (leafValue snapshot now latch) node
  | .leaf leaf, leafStates, base, h => by
      have hlatch := h [] leaf (.here leaf)
      rw [List.append_nil] at hlatch
      rw [evaluateNode, nodeValue, leafValue, hlatch]
  | .group op predicates, leafStates, base, h => by
      rw [evaluateNode, nodeValue,
        evaluateNodes_value snapshot now latch predicates leafStates base 0]
      intro n child hn path leaf hleaf
      rw [Nat.zero_add, List.append_assoc]
      exact h (n :: path) leaf (.child hn hleaf)

theorem evaluateNodes_value (snapshot : MetricSnapshot F) (now : Datetime)
    (latch : ConditionLeaf F → LeafState) : ∀ (nodes : List (Node F)) (leafStates : LeafStates)
    (base : Path) (i : Nat),
    (∀ n child, nodes[n]? = some child → LatchedBy latch child leafStates (base ++ [i + n])) →
    (evaluateNodes snapshot now nodes leafStates base i).1 =
      nodesValues (leafValue snapshot now latch) nodes
  | [], leafStates, base, i, _ => by rw [evaluateNodes, nodesValues]
  | child :: rest, leafStates, base, i, h => by
      rw [evaluateNodes, nodesValues]
      dsimp only
      rw [evaluateNode_value snapshot now latch child leafStates (base ++ [i]) (h 0 child rfl),
        evaluateNodes_value snapshot now latch rest _ base (i + 1)]
      intro n sibling hn path leaf hleaf
      have hlatch := h (n + 1) sibling (by simpa using hn) path leaf hleaf
      have hindex : i + 1 + n = i + (n + 1) := by omega
      rw [hindex, ← hlatch]
      simp only [Dict.getD]
      -- the first child's latches are below another index
      rw [evaluateNode_frame child leafStates]
      rw [List.append_assoc, List.prefix_append_right_inj]
      intro hprefix
      have := (List.cons_prefix_cons.mp hprefix).1
      omega

end

/-! ## Runs -/

/-- One evaluation of a run. -/
abbrev Observation (F : Type) := MetricSnapshot F × Datetime

/-- The latch a run leaves a leaf that began with `start`. -/
def latchFrom (start : LeafState) (history : List (Observation F)) (leaf : ConditionLeaf F) :
    LeafState :=
  history.foldl (fun state seen => (evaluateLeaf leaf seen.1 seen.2 state).2) start

/-- The latch a run from the beginning leaves a leaf. -/
def latchAfter (history : List (Observation F)) (leaf : ConditionLeaf F) : LeafState :=
  latchFrom {} history leaf

/-- The latches a run leaves a tree. -/
def latchesFrom (start : LeafStates) (history : List (Observation F)) (node : Node F) :
    LeafStates :=
  history.foldl (fun leafStates seen => (evaluateNode seen.1 seen.2 node leafStates []).2) start

/-- What `evaluateNode` answers after a run from the beginning. -/
def valueAfter (history : List (Observation F)) (snapshot : MetricSnapshot F) (now : Datetime)
    (node : Node F) : Option Bool :=
  (evaluateNode snapshot now node (latchesFrom .empty history node) []).1

theorem latchedBy_latchesFrom {node : Node F} (history : List (Observation F))
    {start : LeafStates} {latch : ConditionLeaf F → LeafState}
    (h : LatchedBy latch node start []) :
    LatchedBy (fun leaf => latchFrom (latch leaf) history leaf) node
      (latchesFrom start history node) [] := by
  induction history generalizing start latch with
  | nil => exact h
  | cons seen rest ih =>
    have hstep : LatchedBy (fun leaf => (evaluateLeaf leaf seen.1 seen.2 (latch leaf)).2) node
        (evaluateNode seen.1 seen.2 node start []).2 [] := by
      intro path leaf hleaf
      show _ = (evaluateLeaf leaf seen.1 seen.2 (latch leaf)).2
      rw [← h path leaf hleaf]
      exact Dict.getD_of_get (evaluateNode_latch seen.1 seen.2 hleaf start [])
    exact ih hstep

/-- **The value after a run.** -/
theorem valueAfter_eq (history : List (Observation F)) (snapshot : MetricSnapshot F)
    (now : Datetime) (node : Node F) : valueAfter history snapshot now node =
      nodeValue (leafValue snapshot now (latchAfter history)) node := by
  have hstart : LatchedBy (fun _ => {}) node .empty [] := by
    intro path leaf _
    rfl
  exact evaluateNode_value snapshot now (latchAfter history) node _ []
    (latchedBy_latchesFrom history hstart)

/-- Two leaves no reading tells apart. -/
def SameLeaf (a b : ConditionLeaf F) : Prop :=
  ∀ (snapshot : MetricSnapshot F) (now : Datetime) (state : LeafState),
    evaluateLeaf a snapshot now state = evaluateLeaf b snapshot now state

theorem SameLeaf.refl (leaf : ConditionLeaf F) : SameLeaf leaf leaf := by
  intro snapshot now state
  rfl

theorem SameLeaf.latchAfter {a b : ConditionLeaf F} (h : SameLeaf a b)
    (history : List (Observation F)) : latchAfter history a = latchAfter history b := by
  unfold Rules.latchAfter latchFrom
  congr 1
  funext state seen
  rw [h seen.1 seen.2 state]

theorem SameLeaf.leafValue {a b : ConditionLeaf F} (h : SameLeaf a b)
    (history : List (Observation F)) (snapshot : MetricSnapshot F) (now : Datetime) :
    leafValue snapshot now (Rules.latchAfter history) a =
      leafValue snapshot now (Rules.latchAfter history) b := by
  unfold Rules.leafValue
  rw [h.latchAfter history, h snapshot now]

end IotSaas.Rules
