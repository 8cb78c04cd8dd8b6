import IotSaas.Rules.Calls

/-!
# `Rules/Rearm.lean` — a rule fires once per episode

Between two fires of one rule something must have ended the first one's episode. What counts is
the strategy's business: the condition seen *false*, the reset tree seen *true*, a manual reset.
Seen means known — an unknown tree has no vote.

The proof is `Lib.exists_opening` at the gate `armed = false`: a fire shuts it, and
`rearmed_reason` lists everything that opens it.
-/

set_option autoImplicit false

namespace IotSaas.Rules

open Lib

variable {F : Type} [PyFloat F]

/-- The call gave a disarmed rule its strategy's reason to re-arm. -/
def Rearms (m : RuleCall F) : Prop :=
  match m.event with
  | .evaluate rule snapshot now => RearmReason rule snapshot now m.before
  | .resetLatch => True
  | _ => False

omit [PyFloat F] in
/-- The operations a rule's state sees while the rule is not edited: evaluations of it and, for a
latched one, manual resets. -/
def Call.IsOf (rule : Rule F) (call : Call F) : Prop :=
  (∃ snapshot now, call = .evaluate rule snapshot now) ∨
    rule.executionPolicy.strategy = .latch ∧ call = .resetLatch

variable {rule : Rule F} {calls : List (Call F)}

/-- A fire leaves the rule disarmed. -/
theorem disarmed_of_fires (hcalls : ∀ c ∈ calls, c.IsOf rule) {n : Nat} {m : RuleCall F}
    (hm : CallAt (history calls) n m) (hf : Fires m) : m.after.armed = false := by
  obtain ⟨firing, ho, he⟩ := hf
  rw [callAt_out hm] at ho
  rw [callAt_after hm]
  rcases hcalls _ (List.mem_of_getElem? (trace_event hm)) with ⟨snapshot, now, hc⟩ | ⟨_, hc⟩
  · rw [hc, callStep_evaluate] at ho ⊢
    obtain ⟨_, _, _, _, h⟩ := evaluate_fires ho he
    rw [h]
  · rw [hc, callStep_resetLatch] at ho
    cases ho

/-- A disarmed rule given no reason stays disarmed and does not fire. -/
theorem disarmed_of_not_rearms (hcalls : ∀ c ∈ calls, c.IsOf rule) {n : Nat} {m : RuleCall F}
    (hm : CallAt (history calls) n m) (hd : m.before.armed = false) (hr : ¬ Rearms m) :
    m.after.armed = false ∧ ¬ Fires m := by
  rw [callAt_after hm]
  unfold Fires
  rw [callAt_out hm]
  rcases hcalls _ (List.mem_of_getElem? (trace_event hm)) with ⟨snapshot, now, hc⟩ | ⟨_, hc⟩
  · rw [Rearms, hc] at hr
    rw [hc, callStep_evaluate]
    have ha : (rearmed rule snapshot now m.before).armed = false := by
      by_contra h
      exact hr (rearmed_reason hd (by simpa using h))
    refine ⟨evaluate_disarmed ha, ?_⟩
    rintro ⟨firing, ho, he⟩
    obtain ⟨_, _, h, _⟩ := evaluate_fires ho he
    rw [ha] at h
    cases h
  · -- a manual reset is a reason
    exact absurd (by rw [Rearms, hc]; trivial) hr

/-- **Between two fires the rule was given a reason.** -/
theorem exists_rearms (hcalls : ∀ c ∈ calls, c.IsOf rule) {i j : Nat} {mi mj : RuleCall F}
    (hij : i < j) (hi : CallAt (history calls) i mi) (hfi : Fires mi)
    (hj : CallAt (history calls) j mj) (hfj : Fires mj) :
    ∃ k mk, i < k ∧ k ≤ j ∧ CallAt (history calls) k mk ∧ Rearms mk :=
  exists_opening (fun state => state.armed = false) Rearms Fires
    (fun _ _ hm hf => disarmed_of_fires hcalls hm hf)
    (fun _ _ hm hd hr => disarmed_of_not_rearms hcalls hm hd hr) hij hi hfi hj hfj

/-! ## What the reason was -/

/-- A fire's own tree is true, so the call is no witness of a false one. -/
theorem treeOf_of_fires (hcalls : ∀ c ∈ calls, c.IsOf rule) {n : Nat} {m : RuleCall F}
    (hm : CallAt (history calls) n m) (hf : Fires m) : treeOf m = some (some true) := by
  obtain ⟨firing, ho, he⟩ := hf
  rw [callAt_out hm] at ho
  rcases hcalls _ (List.mem_of_getElem? (trace_event hm)) with ⟨snapshot, now, hc⟩ | ⟨_, hc⟩
  · rw [hc, callStep_evaluate] at ho
    simp only [treeOf, hc, (evaluate_fires ho he).1]
  · rw [hc, callStep_resetLatch] at ho
    cases ho

/-- The reason, when the condition tree is what re-arms. -/
theorem treeOf_of_rearms {call : RuleCall F} (hc : call.event.IsOf rule)
    (hs : rule.executionPolicy.strategy = .edge ∨
      rule.executionPolicy.strategy = .resetCondition ∧
        rule.executionPolicy.resetCondition = none)
    (hr : Rearms call) : treeOf call = some (some false) := by
  rcases hc with ⟨snapshot, now, hc⟩ | ⟨hl, _⟩
  · rw [Rearms, hc] at hr
    rw [treeOf, hc]
    rcases hs with hs | ⟨hs, hn⟩
    · simpa [RearmReason, hs] using hr
    · simpa [RearmReason, hs, hn] using hr
  · rcases hs with hs | ⟨hs, _⟩ <;> rw [hl] at hs <;> cases hs

/-- The reason, when a reset tree is what re-arms. -/
theorem resetOf_of_rearms {call : RuleCall F} (hc : call.event.IsOf rule)
    (hs : rule.executionPolicy.strategy = .resetCondition ∨
      rule.executionPolicy.strategy = .latch)
    {reset : Node F} (hn : rule.executionPolicy.resetCondition = some reset)
    (hr : Rearms call) :
    resetOf call = some (some true) ∨
      rule.executionPolicy.strategy = .latch ∧ call.event = .resetLatch := by
  rcases hc with ⟨snapshot, now, hc⟩ | hl
  · left
    rw [Rearms, hc] at hr
    rw [resetOf, hc]
    rcases hs with hs | hs
    · simpa [RearmReason, hs, hn] using hr
    · simpa [RearmReason, hs, hn] using hr
  · exact Or.inr hl

/-- The reason, when only a person re-arms. -/
theorem resetLatch_of_rearms {call : RuleCall F} (hc : call.event.IsOf rule)
    (hs : rule.executionPolicy.strategy = .latch) (hn : rule.executionPolicy.resetCondition = none)
    (hr : Rearms call) :
    call.event = .resetLatch := by
  rcases hc with ⟨snapshot, now, hc⟩ | ⟨_, hl⟩
  · rw [Rearms, hc] at hr
    simp [RearmReason, hs, hn] at hr
  · exact hl

/-- **Re-arm discipline.** Between any two fires of one rule, whatever the data did:

1. under `edge`, or `reset_condition` without a reset tree, a call strictly between them computed
   the condition tree to a known false;
2. with a reset tree, a call after the first fire and no later than the second computed the reset
   tree to a known true — or, for a latch, a person reset it;
3. under `latch` without a reset tree a person reset it;
4. so, except under `continuous`, something known or someone always came in between: unknown
   trees alone never make room for a second fire. -/
theorem rearm_discipline (rule : Rule F) (calls : List (Call F))
    (hcalls : ∀ c ∈ calls, c.IsOf rule) {i j : Nat} {mi mj : RuleCall F} (hij : i < j)
    (hi : CallAt (history calls) i mi) (hfi : Fires mi)
    (hj : CallAt (history calls) j mj) (hfj : Fires mj) :
    (rule.executionPolicy.strategy = .edge ∨
        rule.executionPolicy.strategy = .resetCondition ∧
          rule.executionPolicy.resetCondition = none →
      ∃ k mk, i < k ∧ k < j ∧ CallAt (history calls) k mk ∧ treeOf mk = some (some false)) ∧
    (∀ reset, rule.executionPolicy.resetCondition = some reset →
      rule.executionPolicy.strategy = .resetCondition ∨
        rule.executionPolicy.strategy = .latch →
      ∃ k mk, i < k ∧ k ≤ j ∧ CallAt (history calls) k mk ∧
        (resetOf mk = some (some true) ∨
          rule.executionPolicy.strategy = .latch ∧ mk.event = .resetLatch)) ∧
    (rule.executionPolicy.strategy = .latch → rule.executionPolicy.resetCondition = none →
      ∃ k mk, i < k ∧ k < j ∧ CallAt (history calls) k mk ∧ mk.event = .resetLatch) ∧
    (rule.executionPolicy.strategy ≠ .continuous →
      ∃ k mk, i < k ∧ k ≤ j ∧ CallAt (history calls) k mk ∧
        (treeOf mk = some (some false) ∨ resetOf mk = some (some true) ∨
          mk.event = .resetLatch)) := by
  obtain ⟨k, mk, hik, hkj, hk, hr⟩ := exists_rearms hcalls hij hi hfi hj hfj
  have hof : mk.event.IsOf rule := hcalls _ (List.mem_of_getElem? (trace_event hk))
  have htree := treeOf_of_fires hcalls hj hfj
  refine ⟨fun hs => ?_, fun reset hn hs => ?_, fun hs hn => ?_, fun hs => ?_⟩
  · have hfalse := treeOf_of_rearms hof hs hr
    -- the second fire's own tree is true, so the false one was before it
    refine ⟨k, mk, hik, Nat.lt_of_le_of_ne hkj ?_, hk, hfalse⟩
    rintro rfl
    obtain rfl := CallAt.unique hj hk
    rw [htree] at hfalse
    cases hfalse
  · exact ⟨k, mk, hik, hkj, hk, resetOf_of_rearms hof hs hn hr⟩
  · have hreset := resetLatch_of_rearms hof hs hn hr
    refine ⟨k, mk, hik, Nat.lt_of_le_of_ne hkj ?_, hk, hreset⟩
    rintro rfl
    obtain rfl := CallAt.unique hj hk
    rw [treeOf, hreset] at htree
    cases htree
  · refine ⟨k, mk, hik, hkj, hk, ?_⟩
    cases hst : rule.executionPolicy.strategy with
    | continuous => exact absurd hst hs
    | edge => exact Or.inl (treeOf_of_rearms hof (Or.inl hst) hr)
    | resetCondition =>
      cases hn : rule.executionPolicy.resetCondition with
      | none => exact Or.inl (treeOf_of_rearms hof (Or.inr ⟨hst, hn⟩) hr)
      | some reset =>
        exact Or.inr ((resetOf_of_rearms hof (Or.inl hst) hn hr).imp id And.right)
    | latch =>
      cases hn : rule.executionPolicy.resetCondition with
      | none => exact Or.inr (Or.inr (resetLatch_of_rearms hof hst hn hr))
      | some reset =>
        exact Or.inr ((resetOf_of_rearms hof (Or.inr hst) hn hr).imp id And.right)

/-- The rule fires at 35, is released at 25 and fires at 35 again: the release is the reason. -/
theorem rearm_discipline_thermostat :
    ∃ k mk, 0 < k ∧ k < 2 ∧
      CallAt (history [.evaluate thermostat (reading 35 0) 0,
        .evaluate thermostat (reading 25 1) 1, .evaluate thermostat (reading 35 2) 2]) k mk ∧
      treeOf mk = some (some false) :=
  (rearm_discipline thermostat _ (fun c hc => by
    simp only [List.mem_cons, List.not_mem_nil, or_false] at hc
    rcases hc with rfl | rfl | rfl <;> exact Or.inl ⟨_, _, rfl⟩)
    (i := 0) (j := 2) (by decide) rfl ⟨_, rfl, rfl⟩ rfl ⟨_, rfl, rfl⟩).1 (Or.inl rfl)

end IotSaas.Rules
