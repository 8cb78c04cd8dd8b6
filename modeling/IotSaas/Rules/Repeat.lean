import IotSaas.Rules.EvaluatorSpec
import IotSaas.Rules.Schmitt
import IotSaas.Rules.Signals

/-!
# `Rules/Repeat.lean` — the same entries, later

An evaluation made again on the entries of the last one, as fresh as they were, computes what the
last one did: the condition tree (`treeResult_again`) and the reset tree, if the last one ran it
(`resetResult_again`). Latches move in between, but a latch has answered its own reading already. It
is the margin that decides (`SoundMargin`): a value that crossed and re-armed at once would swing the
latch back and forth.
-/

set_option autoImplicit false

namespace IotSaas.Rules

open Lib

variable {F : Type}

/-- The same entries at `t₁` and at `t₂`: what was fresh is fresh and reads the same, what was stale
or missing is. The entries of `b` are those of `a` with other time stamps: that they are still fresh
at `t₂` is posited, not derived, as under its own stamp an entry would go stale once `t₂` is late
enough. -/
def SameEntries (a : MetricSnapshot F) (t₁ : Datetime) (b : MetricSnapshot F) (t₂ : Datetime) :
    Prop :=
  ∀ key, signalState (b.get key) t₂ = signalState (a.get key) t₁ ∧
    (signalState (a.get key) t₁ = .fresh →
      ∀ mv mv', a.get key = some mv → b.get key = some mv' →
        mv'.value = mv.value ∧ mv'.previousValue = mv.previousValue)

/-- The entries as they would be if each had come in later by as much. -/
def later (a : MetricSnapshot F) (span : Int) : MetricSnapshot F :=
  ⟨fun key => (a.get key).map fun mv => { mv with timestamp := mv.timestamp + span }⟩

theorem get_later (a : MetricSnapshot F) (span : Int) (key : SignalKey) :
    (later a span).get key =
      (a.get key).map fun mv => { mv with timestamp := mv.timestamp + span } := rfl

theorem elapsed_later (t₁ t₂ readAt : Int) :
    elapsed t₂ (readAt + (t₂ - t₁)) = elapsed t₁ readAt := by
  unfold elapsed
  omega

theorem sameEntries_later (a : MetricSnapshot F) (t₁ t₂ : Datetime) :
    SameEntries a t₁ (later a (t₂ - t₁)) t₂ := by
  intro key
  rw [get_later]
  cases a.get key with
  | none => simp [signalState]
  | some mv =>
    refine ⟨?_, ?_⟩
    · have hage : elapsed t₂ (mv.timestamp + (t₂ - t₁)) = elapsed t₁ mv.timestamp :=
        elapsed_later t₁ t₂ mv.timestamp
      simp [signalState, hage]
    · intro _ mv₀ mv' h₀ h'
      cases h₀
      cases h'
      exact ⟨rfl, rfl⟩

theorem SameEntries.resolveRhsScalar {a b : MetricSnapshot F} {t₁ t₂ : Datetime}
    (h : SameEntries a t₁ b t₂) (rhs : ScalarRhs F) :
    (Rules.resolveRhsScalar rhs b t₂).1 = (Rules.resolveRhsScalar rhs a t₁).1 := by
  cases rhs with
  | static value => rfl
  | metric deviceId metric =>
    obtain ⟨hstate, hvalues⟩ := h ⟨deviceId, metric⟩
    cases ha : a.get ⟨deviceId, metric⟩ with
    | none =>
      rw [ha] at hstate
      cases hb : b.get ⟨deviceId, metric⟩ with
      | none => simp [Rules.resolveRhsScalar, ha, hb]
      | some mv' =>
        have hne : signalState (some mv') t₂ ≠ .fresh := by
          rw [← hb, hstate]
          simp [signalState]
        simp [Rules.resolveRhsScalar, ha, hb, hne]
    | some mv =>
      by_cases hfresh : signalState (some mv) t₁ = .fresh
      · cases hb : b.get ⟨deviceId, metric⟩ with
        | none =>
          rw [ha, hb, hfresh] at hstate
          simp [signalState] at hstate
        | some mv' =>
          rw [ha, hb] at hstate
          obtain ⟨hvalue, -⟩ := hvalues (by rw [ha]; exact hfresh) mv mv' ha hb
          simp [Rules.resolveRhsScalar, ha, hb, hstate, hfresh, hvalue]
      · cases hb : b.get ⟨deviceId, metric⟩ with
        | none => simp [Rules.resolveRhsScalar, ha, hb, hfresh]
        | some mv' =>
          have hne : signalState (some mv') t₂ ≠ .fresh := by
            rw [← hb, hstate, ha]
            exact hfresh
          simp [Rules.resolveRhsScalar, ha, hb, hfresh, hne]

variable [PyFloat F]

/-! ## Leaves -/

/-- No value crosses the leaf's threshold and re-arms at once. -/
def SoundMargin (leaf : ConditionLeaf F) : Prop :=
  ∀ operator rhs hysteresis, leaf.test = .compare operator rhs hysteresis →
    ∀ value threshold, compare value operator threshold = true →
      rearmConditionMet operator value threshold hysteresis (compare value operator threshold) =
        false

/-- **A leaf again.** It answers as before, and its latch stays where the first answer put it. -/
theorem evaluateLeaf_again {leaf : ConditionLeaf F} (hsound : SoundMargin leaf)
    {a b : MetricSnapshot F} {t₁ t₂ : Datetime} (h : SameEntries a t₁ b t₂) (state : LeafState) :
    (evaluateLeaf leaf b t₂ (evaluateLeaf leaf a t₁ state).2).1 =
      (evaluateLeaf leaf a t₁ state).1 := by
  obtain ⟨hstate, hvalues⟩ := h (leafSignal leaf)
  cases ha : a.get (leafSignal leaf) with
  | none =>
    rw [ha] at hstate
    cases hb : b.get (leafSignal leaf) with
    | none => simp [evaluateLeaf, ha, hb]
    | some mv' =>
      have hne : signalState (some mv') t₂ ≠ .fresh := by
        rw [← hb, hstate]
        simp [signalState]
      simp [evaluateLeaf, ha, hb, hne]
  | some mv =>
    by_cases hfresh : signalState (some mv) t₁ = .fresh
    · cases hb : b.get (leafSignal leaf) with
      | none =>
        rw [ha, hb, hfresh] at hstate
        simp [signalState] at hstate
      | some mv' =>
        rw [ha, hb, hfresh] at hstate
        obtain ⟨hvalue, hprevious⟩ := hvalues (by rw [ha]; exact hfresh) mv mv' ha hb
        cases htest : leaf.test with
        | change operator =>
          simp [evaluateLeaf, ha, hb, hfresh, hstate, htest, compareChange, hvalue, hprevious]
        | range operator low high =>
          simp [evaluateLeaf, ha, hb, hfresh, hstate, htest, hvalue]
        | set operator values =>
          simp [evaluateLeaf, ha, hb, hfresh, hstate, htest, hvalue]
        | compare operator rhs hysteresis =>
          have hrhs := h.resolveRhsScalar rhs
          cases hside : (resolveRhsScalar rhs a t₁).1 with
          | none =>
            rw [hside] at hrhs
            simp [evaluateLeaf, ha, hb, hfresh, hstate, htest, hside, hrhs]
          | some rhsValue =>
            rw [hside] at hrhs
            have hexclusive := hsound operator rhs hysteresis htest mv.value rhsValue
            -- the first answer is the second latch
            cases hlatched : state.latchedTrue <;>
              cases hraw : compare mv.value operator rhsValue <;>
              cases hmet : rearmConditionMet operator mv.value rhsValue hysteresis
                (compare mv.value operator rhsValue) <;>
              simp_all [evaluateLeaf]
    · cases hb : b.get (leafSignal leaf) with
      | none => simp [evaluateLeaf, ha, hb, hfresh]
      | some mv' =>
        have hne : signalState (some mv') t₂ ≠ .fresh := by
          rw [← hb, hstate, ha]
          exact hfresh
        simp [evaluateLeaf, ha, hb, hfresh, hne]

/-! ## Trees -/

/-- Every leaf of the tree has a margin that keeps crossing and re-arming apart. -/
def SoundTree (node : Node F) : Prop := ∀ path leaf, LeafAt node path leaf → SoundMargin leaf

section

variable {a b : MetricSnapshot F} {t₁ t₂ : Datetime}

mutual

/-- Two evaluations that agree at every leaf agree at the root. -/
theorem evaluateNode_leafwise : ∀ (node : Node F) (leafStates leafStates' : LeafStates)
    (base : Path),
    (∀ path leaf, LeafAt node path leaf →
      (evaluateLeaf leaf b t₂ (leafStates'.getD (base ++ path) {})).1 =
        (evaluateLeaf leaf a t₁ (leafStates.getD (base ++ path) {})).1) →
    (evaluateNode b t₂ node leafStates' base).1 = (evaluateNode a t₁ node leafStates base).1
  | .leaf leaf, leafStates, leafStates', base, h => by
      have hleaf := h [] leaf (.here leaf)
      rw [List.append_nil] at hleaf
      rw [evaluateNode, evaluateNode]
      exact hleaf
  | .group op predicates, leafStates, leafStates', base, h => by
      rw [evaluateNode, evaluateNode]
      refine congrArg (combine (dominant op)) ?_
      apply evaluateNodes_leafwise predicates leafStates leafStates' base 0
      intro n child hn path leaf hleaf
      rw [Nat.zero_add, List.append_assoc]
      exact h (n :: path) leaf (.child hn hleaf)

theorem evaluateNodes_leafwise : ∀ (nodes : List (Node F)) (leafStates leafStates' : LeafStates)
    (base : Path) (i : Nat),
    (∀ n child, nodes[n]? = some child → ∀ path leaf, LeafAt child path leaf →
      (evaluateLeaf leaf b t₂ (leafStates'.getD (base ++ [i + n] ++ path) {})).1 =
        (evaluateLeaf leaf a t₁ (leafStates.getD (base ++ [i + n] ++ path) {})).1) →
    (evaluateNodes b t₂ nodes leafStates' base i).1 = (evaluateNodes a t₁ nodes leafStates base i).1
  | [], leafStates, leafStates', base, i, _ => by rw [evaluateNodes, evaluateNodes]
  | child :: rest, leafStates, leafStates', base, i, h => by
      rw [evaluateNodes, evaluateNodes]
      dsimp only
      rw [evaluateNode_leafwise child leafStates leafStates' (base ++ [i]) (h 0 child rfl)]
      refine congrArg _ ?_
      apply evaluateNodes_leafwise rest _ _ base (i + 1)
      intro n sibling hn path leaf hleaf
      have hindex : i + 1 + n = i + (n + 1) := by omega
      -- the first child's latches are below another index
      have hapart : ¬ base ++ [i] <+: base ++ [i + (n + 1)] ++ path := by
        rw [List.append_assoc, List.prefix_append_right_inj]
        intro hprefix
        have := (List.cons_prefix_cons.mp hprefix).1
        omega
      simp only [Dict.getD, hindex, evaluateNode_frame child _ hapart]
      exact h (n + 1) sibling (by simpa using hn) path leaf hleaf

end

/-- **A tree again.** -/
theorem evaluateNode_again {node : Node F} (hsound : SoundTree node)
    (h : SameEntries a t₁ b t₂) (leafStates : LeafStates) :
    (evaluateNode b t₂ node (evaluateNode a t₁ node leafStates []).2 []).1 =
      (evaluateNode a t₁ node leafStates []).1 := by
  apply evaluateNode_leafwise
  intro path leaf hleaf
  rw [Dict.getD_of_get (evaluateNode_latch a t₁ hleaf leafStates [])]
  exact evaluateLeaf_again (hsound path leaf hleaf) h _

/-! ## Rules -/

/-- The margins of a rule, in both of its trees. -/
structure SoundRule (rule : Rule F) : Prop where
  condition : ∀ node, rule.condition = some node → SoundTree node
  reset : ∀ node, rule.executionPolicy.resetCondition = some node → SoundTree node

variable {rule : Rule F} {state : RuleState}

/-- **The condition again.** -/
theorem treeResult_again (hsound : SoundRule rule) (h : SameEntries a t₁ b t₂) :
    treeResult rule b t₂ (evaluate rule a t₁ state).2 = treeResult rule a t₁ state := by
  unfold treeResult
  rw [(evaluate_frame rule a t₁ state).1]
  unfold evaluateTree
  cases hc : rule.condition with
  | none => rfl
  | some node => exact evaluateNode_again (hsound.condition node hc) h state.leafStates

/-- **The reset tree again**, if the rule is still disarmed. -/
theorem resetResult_again (hsound : SoundRule rule) (h : SameEntries a t₁ b t₂)
    {reset : Option Bool} (hreset : resetResult rule a t₁ state = some reset)
    (hdisarmed : (evaluate rule a t₁ state).2.armed = false) :
    resetResult rule b t₂ (evaluate rule a t₁ state).2 = some reset := by
  obtain ⟨node, hnode, hlatches⟩ := rearmed_resetLeafStates_of_some (by rw [hreset]; rfl)
  have hframe := (evaluate_frame rule a t₁ state).2.1.trans hlatches
  unfold resetResult at hreset ⊢
  by_cases harmed : state.armed = true
  · rw [if_pos harmed] at hreset
    cases hreset
  · rw [if_neg harmed] at hreset
    rw [if_neg (by simp [hdisarmed]), hframe]
    have hagain := evaluateNode_again (hsound.reset node hnode) h state.resetLeafStates
    cases hs : rule.executionPolicy.strategy with
    | edge | continuous =>
      rw [hs] at hreset
      cases hreset
    | resetCondition | latch =>
      rw [hs] at hreset
      simp only [evaluateReset, hnode, Option.map_some] at hreset ⊢
      rw [hagain]
      exact hreset

end

/-! ## The numbers that are compared -/

/-- The condition's margins as the schema has them: none is negative. -/
def MarginsOk {fmt : Ieee.Format} (node : Node (Ieee.Number fmt)) : Prop :=
  ∀ path leaf, LeafAt node path leaf → ∀ operator rhs hysteresis,
    leaf.test = .compare operator rhs hysteresis →
      PyFloat.le (Ieee.Number.rounded fmt 0) hysteresis = true

theorem MarginsOk.sound {fmt : Ieee.Format} {node : Node (Ieee.Number fmt)}
    (h : MarginsOk node) : SoundTree node := by
  intro path leaf hleaf operator rhs hysteresis htest value threshold hcompare
  exact not_rearmConditionMet_of_compare (h path leaf hleaf operator rhs hysteresis htest) hcompare

end IotSaas.Rules
