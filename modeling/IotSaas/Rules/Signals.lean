import Mathlib.Data.List.Nodup
import IotSaas.Rules.EvaluatorSpec

/-!
# `Rules/Signals.lean` — what an evaluation reads and what it writes

`referenced_signals` promises that a tree's value depends on the listed signals and on nothing
else. Read as a theorem that is `evaluateNode_congr`: snapshots that agree on `nodeSignals` give
the same value and the same latches. The promise is tight in both directions — every listed
signal is a leaf's (`mem_nodeSignals`), and every leaf writes its own latch
(`evaluateNode_latch`) while a tree writes no other (`evaluateNode_untouched`).
-/

set_option autoImplicit false

namespace IotSaas.Rules

open Lib

variable {F : Type}

/-- Two snapshots answer alike on `signals`. -/
def AgreeOn (signals : List SignalKey) (a b : MetricSnapshot F) : Prop :=
  ∀ signal ∈ signals, a.get signal = b.get signal

theorem AgreeOn.mono {signals signals' : List SignalKey} {a b : MetricSnapshot F}
    (h : AgreeOn signals a b) (hsub : signals' ⊆ signals) : AgreeOn signals' a b :=
  fun signal hs => h signal (hsub hs)

/-! ## Where the leaves are -/

/-- The leaf at a path below a node. -/
inductive LeafAt : Node F → Path → ConditionLeaf F → Prop
  | here (leaf : ConditionLeaf F) : LeafAt (.leaf leaf) [] leaf
  | child {op : GroupOp} {predicates : List (Node F)} {i : Nat} {child : Node F} {path : Path}
      {leaf : ConditionLeaf F} (hi : predicates[i]? = some child) (h : LeafAt child path leaf) :
      LeafAt (.group op predicates) (i :: path) leaf

theorem leafSignal_mem (leaf : ConditionLeaf F) : leafSignal leaf ∈ leafSignals leaf := by
  unfold leafSignals
  split
  · exact List.mem_singleton.mpr rfl
  · split
    · rename_i h
      exact List.mem_singleton.mpr h.symm
    · exact List.mem_cons_self

variable {leaf : ConditionLeaf F}

theorem rhsSignal_mem {signal : SignalKey} (h : rhsSignal? leaf = some signal) :
    signal ∈ leafSignals leaf := by
  unfold leafSignals
  rw [h]
  dsimp only
  split
  · exact List.mem_singleton.mpr rfl
  · exact List.mem_cons_of_mem _ (List.mem_singleton.mpr rfl)

/-- A leaf reads its signal and, metric against metric, one more. -/
theorem mem_leafSignals {signal : SignalKey} (h : signal ∈ leafSignals leaf) :
    signal = leafSignal leaf ∨ rhsSignal? leaf = some signal := by
  unfold leafSignals at h
  cases hr : rhsSignal? leaf with
  | none =>
    rw [hr] at h
    exact .inl (List.mem_singleton.mp h)
  | some rhs =>
    rw [hr] at h
    dsimp only at h
    split at h
    · rw [List.mem_singleton.mp h]
      exact .inr rfl
    · rcases List.mem_cons.mp h with h | h
      · exact .inl h
      · rw [List.mem_singleton.mp h]
        exact .inr rfl

mutual

theorem mem_nodeSignals {signal : SignalKey} : ∀ {node : Node F}, signal ∈ nodeSignals node →
    ∃ path leaf, LeafAt node path leaf ∧ signal ∈ leafSignals leaf
  | .leaf leaf, h => ⟨[], leaf, .here leaf, by rwa [nodeSignals] at h⟩
  | .group op predicates, h => by
      rw [nodeSignals] at h
      obtain ⟨i, child, path, leaf, hi, hl, hs⟩ := mem_nodesSignals h
      exact ⟨i :: path, leaf, .child hi hl, hs⟩

theorem mem_nodesSignals {signal : SignalKey} : ∀ {nodes : List (Node F)},
    signal ∈ nodesSignals nodes →
    ∃ (i : Nat) (child : Node F) (path : Path) (leaf : ConditionLeaf F),
      nodes[i]? = some child ∧ LeafAt child path leaf ∧ signal ∈ leafSignals leaf
  | [], h => by simp [nodesSignals] at h
  | child :: rest, h => by
      rw [nodesSignals, List.mem_union_iff] at h
      rcases h with h | h
      · obtain ⟨path, leaf, hl, hs⟩ := mem_nodeSignals h
        exact ⟨0, child, path, leaf, rfl, hl, hs⟩
      · obtain ⟨i, child', path, leaf, hi, hl, hs⟩ := mem_nodesSignals h
        exact ⟨i + 1, child', path, leaf, hi, hl, hs⟩

end

theorem leafSignals_nodup (leaf : ConditionLeaf F) : (leafSignals leaf).Nodup := by
  unfold leafSignals
  split
  · simp
  · split
    · simp
    · rename_i h
      simpa using Ne.symm h

mutual

/-- Each signal is listed once. -/
theorem nodeSignals_nodup : ∀ node : Node F, (nodeSignals node).Nodup
  | .leaf leaf => by
      rw [nodeSignals]
      exact leafSignals_nodup leaf
  | .group op predicates => by
      rw [nodeSignals]
      exact nodesSignals_nodup predicates

theorem nodesSignals_nodup : ∀ nodes : List (Node F), (nodesSignals nodes).Nodup
  | [] => by
      rw [nodesSignals]
      exact List.nodup_nil
  | child :: rest => by
      rw [nodesSignals]
      exact List.Nodup.union _ (nodesSignals_nodup rest)

end

theorem referencedSignals_nodup (condition : Option (Node F)) :
    (referencedSignals condition).Nodup := by
  cases condition with
  | none => exact List.nodup_nil
  | some node => exact nodeSignals_nodup node

mutual

/-- The paths of a tree's leaves, the tree being at `base`. -/
def leafPaths : Node F → Path → List Path
  | .leaf _, base => [base]
  | .group _ predicates, base => childPaths predicates base 0

def childPaths : List (Node F) → Path → Nat → List Path
  | [], _, _ => []
  | child :: rest, base, i => leafPaths child (base ++ [i]) ++ childPaths rest base (i + 1)

end

mutual

/-- All of a tree's leaves are below it. -/
theorem prefix_of_mem_leafPaths : ∀ (node : Node F) (base q : Path), q ∈ leafPaths node base →
    base <+: q
  | .leaf leaf, base, q, h => by
      rw [leafPaths, List.mem_singleton] at h
      exact h ▸ List.prefix_rfl
  | .group op predicates, base, q, h => by
      rw [leafPaths] at h
      obtain ⟨k, -, hk⟩ := prefix_of_mem_childPaths predicates base 0 q h
      exact (List.prefix_append base [k]).trans hk

theorem prefix_of_mem_childPaths : ∀ (nodes : List (Node F)) (base : Path) (i : Nat) (q : Path),
    q ∈ childPaths nodes base i → ∃ k, i ≤ k ∧ base ++ [k] <+: q
  | [], base, i, q, h => by cases h
  | child :: rest, base, i, q, h => by
      rw [childPaths, List.mem_append] at h
      rcases h with h | h
      · exact ⟨i, Nat.le_refl i, prefix_of_mem_leafPaths child (base ++ [i]) q h⟩
      · obtain ⟨k, hk, hq⟩ := prefix_of_mem_childPaths rest base (i + 1) q h
        exact ⟨k, by omega, hq⟩

end

/-! ## What is read -/

variable [PyFloat F] {a b : MetricSnapshot F} {now : Datetime}

theorem evaluateLeaf_congr (h : AgreeOn (leafSignals leaf) a b) (leafState : LeafState) :
    evaluateLeaf leaf a now leafState = evaluateLeaf leaf b now leafState := by
  have hleft : a.get (leafSignal leaf) = b.get (leafSignal leaf) := h _ (leafSignal_mem leaf)
  have hright : ∀ signal, rhsSignal? leaf = some signal → a.get signal = b.get signal :=
    fun signal hs => h _ (rhsSignal_mem hs)
  unfold evaluateLeaf
  rw [hleft]
  cases leaf with
  | mk deviceId metric test =>
    cases test with
    | compare operator rhs hysteresis =>
      cases rhs with
      | static value => rfl
      | metric rhsDevice rhsMetric =>
        have hr := hright ⟨rhsDevice, rhsMetric⟩ rfl
        simp only [resolveRhsScalar, hr]
    | range operator low high => rfl
    | set operator values => rfl
    | change operator => rfl

mutual

/-- **A tree reads its signals and nothing else.** -/
theorem evaluateNode_congr : ∀ (node : Node F), AgreeOn (nodeSignals node) a b →
    ∀ (leafStates : LeafStates) (path : Path),
      evaluateNode a now node leafStates path = evaluateNode b now node leafStates path
  | .leaf leaf, h, leafStates, path => by
      rw [nodeSignals] at h
      simp only [evaluateNode, evaluateLeaf_congr h]
  | .group op predicates, h, leafStates, path => by
      rw [nodeSignals] at h
      simp only [evaluateNode, evaluateNodes_congr predicates h]

theorem evaluateNodes_congr : ∀ (nodes : List (Node F)), AgreeOn (nodesSignals nodes) a b →
    ∀ (leafStates : LeafStates) (path : Path) (i : Nat),
      evaluateNodes a now nodes leafStates path i = evaluateNodes b now nodes leafStates path i
  | [], _, leafStates, path, i => by simp only [evaluateNodes]
  | child :: rest, h, leafStates, path, i => by
      rw [nodesSignals] at h
      have hchild : AgreeOn (nodeSignals child) a b := h.mono fun s hs =>
        List.mem_union_iff.mpr (.inl hs)
      have hrest : AgreeOn (nodesSignals rest) a b := h.mono fun s hs =>
        List.mem_union_iff.mpr (.inr hs)
      simp only [evaluateNodes, evaluateNode_congr child hchild, evaluateNodes_congr rest hrest]

end

theorem evaluateTree_congr {rule : Rule F} (h : AgreeOn (referencedSignals rule.condition) a b)
    (leafStates : LeafStates) :
    evaluateTree rule a now leafStates = evaluateTree rule b now leafStates := by
  unfold evaluateTree
  cases hc : rule.condition with
  | none => rfl
  | some node =>
    rw [hc, referencedSignals] at h
    exact evaluateNode_congr node h leafStates []

theorem evaluateReset_congr {rule : Rule F}
    (h : AgreeOn (referencedSignals rule.executionPolicy.resetCondition) a b)
    (resetLeafStates : LeafStates) :
    evaluateReset rule a now resetLeafStates = evaluateReset rule b now resetLeafStates := by
  unfold evaluateReset
  cases hr : rule.executionPolicy.resetCondition with
  | none => rfl
  | some node =>
    rw [hr, referencedSignals] at h
    rw [Option.map_some, Option.map_some, evaluateNode_congr node h]

/-- The strategies under which a disarmed rule evaluates its reset tree. -/
def RuleStrategy.ReadsReset (strategy : RuleStrategy) : Prop :=
  strategy = .resetCondition ∨ strategy = .latch

theorem rearm_congr {rule : Rule F}
    (h : rule.executionPolicy.strategy.ReadsReset →
      AgreeOn (referencedSignals rule.executionPolicy.resetCondition) a b)
    (tree : Option Bool) (state : RuleState) :
    rearm rule tree a now state = rearm rule tree b now state := by
  unfold rearm
  cases hs : rule.executionPolicy.strategy with
  | edge => rfl
  | continuous => rfl
  | resetCondition => simp only [evaluateReset_congr (h (.inl hs))]
  | latch => simp only [evaluateReset_congr (h (.inr hs))]

/-- **A rule reads its condition's signals, and those of a reset tree its strategy looks at.** -/
theorem evaluate_congr {rule : Rule F} (h : AgreeOn (referencedSignals rule.condition) a b)
    (hreset : rule.executionPolicy.strategy.ReadsReset →
      AgreeOn (referencedSignals rule.executionPolicy.resetCondition) a b) (state : RuleState) :
    evaluate rule a now state = evaluate rule b now state := by
  unfold evaluate
  simp only [evaluateTree_congr h, rearm_congr hreset]

/-! ## What is written -/

mutual

/-- **A tree writes the latches of its leaves and no others.** -/
theorem evaluateNode_untouched : ∀ (node : Node F) (leafStates : LeafStates) (base q : Path),
    q ∉ leafPaths node base → (evaluateNode a now node leafStates base).2.get q = leafStates.get q
  | .leaf leaf, leafStates, base, q, h => by
      rw [leafPaths, List.mem_singleton] at h
      rw [evaluateNode]
      exact Dict.get_set_ne _ _ h
  | .group op predicates, leafStates, base, q, h => by
      rw [leafPaths] at h
      rw [evaluateNode]
      exact evaluateNodes_untouched predicates leafStates base 0 q h

theorem evaluateNodes_untouched : ∀ (nodes : List (Node F)) (leafStates : LeafStates) (base : Path)
    (i : Nat) (q : Path), q ∉ childPaths nodes base i →
    (evaluateNodes a now nodes leafStates base i).2.get q = leafStates.get q
  | [], leafStates, base, i, q, h => by rw [evaluateNodes]
  | child :: rest, leafStates, base, i, q, h => by
      rw [childPaths, List.mem_append, not_or] at h
      rw [evaluateNodes]
      dsimp only
      rw [evaluateNodes_untouched rest _ base (i + 1) q h.2,
        evaluateNode_untouched child leafStates (base ++ [i]) q h.1]

end

/-- A tree at `base` leaves every latch outside `base` alone. -/
theorem evaluateNode_frame (node : Node F) (leafStates : LeafStates) {base q : Path}
    (h : ¬ base <+: q) : (evaluateNode a now node leafStates base).2.get q = leafStates.get q :=
  evaluateNode_untouched node leafStates base q fun hq => h (prefix_of_mem_leafPaths node base q hq)

/-- Children from index `i` on leave the latches below smaller indices alone. -/
theorem evaluateNodes_frame (nodes : List (Node F)) (leafStates : LeafStates) {base : Path}
    {i : Nat}
    {q : Path} (h : ∀ k, i ≤ k → ¬ base ++ [k] <+: q) :
    (evaluateNodes a now nodes leafStates base i).2.get q = leafStates.get q :=
  evaluateNodes_untouched nodes leafStates base i q fun hq =>
    let ⟨k, hk, hp⟩ := prefix_of_mem_childPaths nodes base i q hq
    h k hk hp

/-- Paths below different children are different. -/
private theorem not_prefix_of_lt {base q : Path} {i k : Nat} (hik : i < k) :
    ¬ base ++ [k] <+: base ++ i :: q := by
  rw [List.prefix_append_right_inj]
  intro h
  have := (List.cons_prefix_cons.mp h).1
  omega

/-- Among siblings, each child's latches are what the child made of the latches found. -/
theorem evaluateNodes_child (a : MetricSnapshot F) (now : Datetime) {nodes : List (Node F)}
    {n : Nat} {child : Node F} (hn : nodes[n]? = some child) (leafStates : LeafStates)
    (base : Path) (i : Nat) (q : Path) : ∃ found : LeafStates,
      found.get (base ++ (i + n) :: q) = leafStates.get (base ++ (i + n) :: q) ∧
      (evaluateNodes a now nodes leafStates base i).2.get (base ++ (i + n) :: q) =
        (evaluateNode a now child found (base ++ [i + n])).2.get (base ++ (i + n) :: q) := by
  induction nodes generalizing leafStates i n with
  | nil => simp at hn
  | cons head rest ih =>
    cases n with
    | zero =>
      obtain rfl : head = child := by simpa using hn
      refine ⟨leafStates, rfl, ?_⟩
      rw [evaluateNodes, Nat.add_zero]
      exact evaluateNodes_frame rest _ fun k hk => not_prefix_of_lt (by omega)
    | succ n =>
      obtain ⟨found, hfound, hget⟩ := ih (by simpa using hn)
        (evaluateNode a now head leafStates (base ++ [i])).2 (i + 1)
      have hidx : i + 1 + n = i + (n + 1) := by omega
      rw [hidx] at hfound hget
      refine ⟨found, hfound.trans (evaluateNode_frame head _ ?_), ?_⟩
      · rw [List.prefix_append_right_inj]
        intro h
        have := (List.cons_prefix_cons.mp h).1
        omega
      · rw [evaluateNodes]
        exact hget

/-- **Each leaf writes its own latch.** -/
theorem evaluateNode_latch (a : MetricSnapshot F) (now : Datetime) {node : Node F} {path : Path}
    (h : LeafAt node path leaf) (leafStates : LeafStates) (base : Path) :
    (evaluateNode a now node leafStates base).2.get (base ++ path) =
      some (evaluateLeaf leaf a now (leafStates.getD (base ++ path) {})).2 := by
  induction h generalizing leafStates base with
  | here leaf =>
    rw [evaluateNode, List.append_nil]
    exact Dict.get_set_self _ _ _
  | @child op predicates i child path leaf hi hleaf ih =>
    obtain ⟨found, hfound, hget⟩ := evaluateNodes_child a now hi leafStates base 0 path
    rw [Nat.zero_add] at hfound hget
    have hpath : base ++ i :: path = (base ++ [i]) ++ path := by simp
    rw [evaluateNode]
    refine hget.trans ?_
    rw [hpath, ih found (base ++ [i]), ← hpath]
    simp only [Dict.getD, hfound]

end IotSaas.Rules
