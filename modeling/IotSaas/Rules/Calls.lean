import IotSaas.Lib.Trace
import IotSaas.Rules.EvaluatorSpec

/-!
# `Rules/Calls.lean` — the life of one `RuleState`

A rule's state is only ever touched by four operations: `evaluate`, `evaluate_event`,
`align_state_to_condition` and `reset_latch`. A `Call` is one of them with its arguments — the
rule object is an argument, because an edit hands the same state a different one — and a
`history` is the trace of a list of calls from `RuleState()`.

What a theorem observes of a call is read off the moment: whether it fired or cleared, what its
condition tree came to, what its reset tree came to if it looked.
-/

set_option autoImplicit false

namespace IotSaas.Rules

open Lib

/-- One operation on a rule's state. -/
inductive Call (F : Type) where
  | evaluate (rule : Rule F) (snapshot : MetricSnapshot F) (now : Datetime)
  | evaluateEvent (rule : Rule F) (snapshot : MetricSnapshot F) (now : Datetime)
  | alignStateToCondition (fingerprint : String)
  | resetLatch

variable {F : Type} [PyFloat F]

def callStep (state : RuleState) (call : Call F) : Option Firing × RuleState :=
  match call with
  | .evaluate rule snapshot now => evaluate rule snapshot now state
  | .evaluateEvent rule snapshot now => evaluateEvent rule snapshot now state
  | .alignStateToCondition fingerprint => (none, alignStateToCondition state fingerprint)
  | .resetLatch => (none, (resetLatch state).2)

@[simp] theorem callStep_evaluate (state : RuleState) (rule : Rule F)
    (snapshot : MetricSnapshot F) (now : Datetime) :
    callStep state (.evaluate rule snapshot now) = evaluate rule snapshot now state := rfl

@[simp] theorem callStep_evaluateEvent (state : RuleState) (rule : Rule F)
    (snapshot : MetricSnapshot F) (now : Datetime) :
    callStep state (.evaluateEvent rule snapshot now) = evaluateEvent rule snapshot now state :=
  rfl

@[simp] theorem callStep_align (state : RuleState) (fingerprint : String) :
    callStep state (.alignStateToCondition fingerprint : Call F) =
      (none, alignStateToCondition state fingerprint) := rfl

@[simp] theorem callStep_resetLatch (state : RuleState) :
    callStep state (.resetLatch : Call F) = (none, (resetLatch state).2) := rfl

/-- A call as it happened. -/
abbrev RuleCall (F : Type) := Moment RuleState (Call F) (Option Firing)

/-- The calls of a run from `RuleState()`, as they happened. -/
def history (calls : List (Call F)) : List (RuleCall F) := trace callStep {} calls

/-! ## Observations -/

omit [PyFloat F] in
/-- The call returned a fire. -/
def Fires {ε : Type} (m : Moment RuleState ε (Option Firing)) : Prop :=
  ∃ firing, m.out = some firing ∧ firing.edge = .fire

/-- The call returned a clear. -/
def Clears {ε : Type} (m : Moment RuleState ε (Option Firing)) : Prop :=
  ∃ firing, m.out = some firing ∧ firing.edge = .clear

/-- What an `evaluate` call computed its condition tree to; `none` for the other calls. -/
def treeOf (m : RuleCall F) : Option (Option Bool) :=
  match m.event with
  | .evaluate rule snapshot now => some (treeResult rule snapshot now m.before)
  | _ => none

/-- What an `evaluate` call computed its reset tree to, if it evaluated one. -/
def resetOf (m : RuleCall F) : Option (Option Bool) :=
  match m.event with
  | .evaluate rule snapshot now => resetResult rule snapshot now m.before
  | _ => none

omit [PyFloat F] in
/-- The rule and the clock of a call that can fire. -/
def Call.ruleNow? (call : Call F) : Option (Rule F × Datetime) :=
  match call with
  | .evaluate rule _ now | .evaluateEvent rule _ now => some (rule, now)
  | _ => none

omit [PyFloat F] in
/-- An alignment that found another fingerprint on the state. -/
def Realigns (m : RuleCall F) : Prop :=
  ∃ fingerprint fp, m.event = .alignStateToCondition fingerprint ∧
    m.before.conditionFingerprint = some fp ∧ fp ≠ fingerprint

/-! ## Reading a call -/

theorem callAt_out {calls : List (Call F)} {n : Nat} {m : RuleCall F}
    (h : CallAt (history calls) n m) : m.out = (callStep m.before m.event).1 := by
  rw [trace_moment h]
  rfl

theorem callAt_after {calls : List (Call F)} {n : Nat} {m : RuleCall F}
    (h : CallAt (history calls) n m) : m.after = (callStep m.before m.event).2 := by
  rw [trace_moment h]
  rfl

/-- **What a fire from `evaluate` says about the call.** -/
theorem evaluate_fires {rule : Rule F} {snapshot : MetricSnapshot F} {now : Datetime}
    {state : RuleState} {firing : Firing}
    (hf : (evaluate rule snapshot now state).1 = some firing) (he : firing.edge = .fire) :
    treeResult rule snapshot now state = some true ∧ HoldComplete rule now state ∧
      (rearmed rule snapshot now state).armed = true ∧ coolingDown rule now state = false ∧
      (evaluate rule snapshot now state).2 =
        { running rule snapshot now state with
          armed := false, lastFiredAt := some now, active := !rule.clearActions.isEmpty } := by
  cases evaluate_exit rule snapshot now state with
  | fired tree held armed cool eq => exact ⟨tree, held, armed, cool, by rw [eq]⟩
  | cleared tree isOpen has done eq =>
    rw [eq, Option.some.injEq] at hf
    subst hf
    cases he
  | gated tree gate eq => rw [eq] at hf; cases hf
  | idle tree shut eq => rw [eq] at hf; cases hf
  | dropped tree isOpen gone eq => rw [eq] at hf; cases hf
  | holding tree isOpen has short eq => rw [eq] at hf; cases hf

/-- **What a fire from `evaluate_event` says about the call.** -/
theorem evaluateEvent_fires {rule : Rule F} {snapshot : MetricSnapshot F} {now : Datetime}
    {state : RuleState} {firing : Firing}
    (hf : (evaluateEvent rule snapshot now state).1 = some firing) :
    coolingDown rule now state = false ∧
      (evaluateEvent rule snapshot now state).2 =
        { state with
          leafStates := (evaluateTree rule snapshot now state.leafStates).2
          lastFiredAt := some now } := by
  unfold evaluateEvent at hf ⊢
  dsimp only at hf ⊢
  by_cases ht : (evaluateTree rule snapshot now state.leafStates).1 ≠ some true
  · rw [if_pos ht] at hf
    cases hf
  · rw [if_neg ht] at hf ⊢
    by_cases hc : coolingDown rule now
        { state with leafStates := (evaluateTree rule snapshot now state.leafStates).2 } = true
    · rw [if_pos hc] at hf
      cases hf
    · rw [if_neg hc]
      exact ⟨by simpa [coolingDown] using hc, rfl⟩

/-! ## A rule to run things on

`temperature > 30` on one device, over the integers. -/

def thermostat : Rule Int :=
  { id := "thermostat"
    tenantId := "tenant"
    condition := some (.leaf ⟨"device", "temperature", .compare .gt (.static 30) 0⟩) }

/-- A snapshot holding one temperature, read at `readAt`. -/
def reading (value : Int) (readAt : Datetime) : MetricSnapshot Int :=
  Dict.empty.set ⟨"device", "temperature"⟩ { value := value, timestamp := readAt }

end IotSaas.Rules
