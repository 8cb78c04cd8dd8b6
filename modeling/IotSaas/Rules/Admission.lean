import IotSaas.Rules.Calls

/-!
# `Rules/Admission.lean` — what a fire has behind it

Two gates stand before every fire, and both are stated here over the whole life of the state:
four kinds of call in any order, with whatever rule object each call brings.

* **The hold.** `condition_since` is a hold timer (`Lib.timer_held`): a true tree starts it or
  leaves it, everything else that could end the hold — an evaluation not true, a manual reset, an
  alignment to a changed fingerprint — removes it. So a fire has an unbroken stretch of
  true evaluations behind it, `for_duration` long.
* **The cooldown.** `last_fired_at` is stamped by fires and by nothing else, and no operation
  removes it.
-/

set_option autoImplicit false

namespace IotSaas.Rules

open Lib

variable {F : Type} [PyFloat F]

/-- The call does not interrupt a hold: if it evaluated the tree, the tree was true; it is no
manual reset; it found no other fingerprint. -/
def KeepsHold (m : RuleCall F) : Prop :=
  (∀ tree, treeOf m = some tree → tree = some true) ∧ m.event ≠ .resetLatch ∧ ¬ Realigns m

omit [PyFloat F] in
theorem align_conditionSince {state : RuleState} {fingerprint : String} {t : Datetime}
    (h : (alignStateToCondition state fingerprint).conditionSince = some t) :
    state.conditionSince = some t ∧
      ∀ fp, state.conditionFingerprint = some fp → fp = fingerprint := by
  unfold alignStateToCondition at h
  cases hfp : state.conditionFingerprint with
  | none =>
    rw [hfp] at h
    exact ⟨h, fun fp hq => by cases hq⟩
  | some fp =>
    rw [hfp] at h
    dsimp only at h
    by_cases hq : fp = fingerprint
    · rw [if_pos hq] at h
      exact ⟨h, fun fp' hq' => (Option.some.inj hq') ▸ hq⟩
    · rw [if_neg hq] at h
      cases h

@[simp] theorem align_lastFiredAt (state : RuleState) (fingerprint : String) :
    (alignStateToCondition state fingerprint).lastFiredAt = state.lastFiredAt := by
  unfold alignStateToCondition
  repeat' split
  all_goals rfl

variable {calls : List (Call F)}

/-- A hold timer found after a call was kept by it: found before, or started. -/
theorem conditionSince_step {n : Nat} {m : RuleCall F} (hm : CallAt (history calls) n m)
    {t : Datetime} (ht : m.after.conditionSince = some t) :
    KeepsHold m ∧ (m.before.conditionSince = some t ∨
      ∃ rule snapshot, m.event = .evaluate rule snapshot t) := by
  rw [callAt_after hm] at ht
  unfold KeepsHold treeOf Realigns
  cases he : m.event with
  | evaluate rule snapshot now =>
    rw [he, callStep_evaluate, evaluate_conditionSince] at ht
    -- a tree that is not true stops the timer, so there is none to find
    by_cases htree : treeResult rule snapshot now m.before = some true
    · rw [if_pos htree, Option.some.injEq] at ht
      refine ⟨⟨fun tree h => ?_, by simp, by simp⟩, ?_⟩
      · exact (Option.some.inj h) ▸ htree
      · cases hs : m.before.conditionSince with
        | none =>
          rw [hs, Option.getD_none] at ht
          subst ht
          exact Or.inr ⟨rule, snapshot, rfl⟩
        | some since =>
          rw [hs, Option.getD_some] at ht
          exact Or.inl (by rw [ht])
    · rw [if_neg htree] at ht
      cases ht
  | evaluateEvent rule snapshot now =>
    rw [he, callStep_evaluateEvent] at ht
    obtain ⟨fired, hframe, _⟩ := evaluateEvent_frame rule snapshot now m.before
    rw [hframe] at ht
    exact ⟨⟨by simp, by simp, by simp⟩, Or.inl ht⟩
  | alignStateToCondition fingerprint =>
    rw [he, callStep_align] at ht
    obtain ⟨hold, hfp⟩ := align_conditionSince ht
    refine ⟨⟨by simp, by simp, ?_⟩, Or.inl hold⟩
    rintro ⟨fingerprint', fp, hq, hb, hne⟩
    cases hq
    exact hne (hfp fp hb)
  | resetLatch =>
    rw [he, callStep_resetLatch] at ht
    cases ht

/-- **Hold admission.** Behind a fire of `evaluate` lies an evaluation at least `for_duration`
earlier from which on nothing interrupted the hold. -/
theorem fire_held {j : Nat} {mj : RuleCall F} (hj : CallAt (history calls) j mj) {rule : Rule F}
    {snapshot : MetricSnapshot F} {now : Datetime} (he : mj.event = .evaluate rule snapshot now)
    (hf : Fires mj) :
    ∃ i mi rule' snapshot' now', i ≤ j ∧ CallAt (history calls) i mi ∧
      mi.event = .evaluate rule' snapshot' now' ∧
      seconds rule.executionPolicy.forDuration ≤ elapsed now now' ∧
      HeldOver (history calls) KeepsHold i (j + 1) := by
  obtain ⟨firing, ho, hedge⟩ := hf
  rw [callAt_out hj, he, callStep_evaluate] at ho
  obtain ⟨htree, hhold, _⟩ := evaluate_fires ho hedge
  have hkeeps : KeepsHold mj := by
    refine ⟨fun tree h => ?_, by simp [he], fun ⟨_, _, h, _⟩ => by rw [he] at h; cases h⟩
    rw [treeOf, he] at h
    exact (Option.some.inj h) ▸ htree
  unfold HoldComplete at hhold
  cases hs : mj.before.conditionSince with
  | none =>
    -- the call starts the timer itself
    rw [hs, Option.getD_none] at hhold
    exact ⟨j, mj, rule, snapshot, now, Nat.le_refl j, hj, he, hhold, HeldOver.single hj hkeeps⟩
  | some since =>
    rw [hs, Option.getD_some] at hhold
    obtain ⟨i, mi, hij, hi, ⟨rule', snapshot', hstart⟩, hheld⟩ :=
      timer_held (fun state => state.conditionSince) KeepsHold
        (fun m t => ∃ rule snapshot, m.event = .evaluate rule snapshot t) rfl
        (fun _ _ hm _ ht => conditionSince_step hm ht) hj hs
    exact ⟨i, mi, rule', snapshot', since, by omega, hi, hstart, hhold, hheld.succ hj hkeeps⟩

/-- A fire stamps its own clock. -/
theorem lastFiredAt_of_fires {n : Nat} {m : RuleCall F} (hm : CallAt (history calls) n m)
    (hf : Fires m) {rule : Rule F} {now : Datetime} (hr : m.event.ruleNow? = some (rule, now)) :
    m.after.lastFiredAt = some now ∧ coolingDown rule now m.before = false := by
  obtain ⟨firing, ho, hedge⟩ := hf
  rw [callAt_out hm] at ho
  rw [callAt_after hm]
  cases he : m.event with
  | evaluate rule' snapshot now' =>
    rw [he] at hr ho
    cases hr
    rw [callStep_evaluate] at ho ⊢
    obtain ⟨_, _, _, hcool, h⟩ := evaluate_fires ho hedge
    exact ⟨by rw [h], hcool⟩
  | evaluateEvent rule' snapshot now' =>
    rw [he] at hr ho
    cases hr
    rw [callStep_evaluateEvent] at ho ⊢
    obtain ⟨hcool, h⟩ := evaluateEvent_fires ho
    exact ⟨by rw [h], hcool⟩
  | alignStateToCondition fingerprint => rw [he] at hr; cases hr
  | resetLatch => rw [he] at hr; cases hr

/-- Nothing but a fire moves the stamp. -/
theorem lastFiredAt_of_not_fires {n : Nat} {m : RuleCall F} (hm : CallAt (history calls) n m)
    (hf : ¬ Fires m) :
    m.after.lastFiredAt = m.before.lastFiredAt := by
  unfold Fires at hf
  rw [callAt_out hm] at hf
  rw [callAt_after hm]
  cases he : m.event with
  | evaluate rule snapshot now =>
    rw [he, callStep_evaluate] at hf
    exact evaluate_lastFiredAt fun firing ho hedge => hf ⟨firing, ho, hedge⟩
  | evaluateEvent rule snapshot now =>
    rw [he, callStep_evaluateEvent] at hf
    obtain ⟨fired, hframe, hnone⟩ := evaluateEvent_frame rule snapshot now m.before
    rw [callStep_evaluateEvent, hframe]
    exact hnone fun firing ho hedge => hf ⟨firing, ho, hedge⟩
  | alignStateToCondition fingerprint => simp
  | resetLatch => rfl

/-- **Cooldown admission.** A fire comes at least its rule's cooldown after the fire before it. -/
theorem fire_cooled {i j : Nat} {mi mj : RuleCall F} (hij : i < j)
    (hi : CallAt (history calls) i mi) (hj : CallAt (history calls) j mj) (hfi : Fires mi)
    (hfj : Fires mj) (hnone : ∀ k mk, i < k → k < j → CallAt (history calls) k mk → ¬ Fires mk)
    {rulei rulej : Rule F} {nowi nowj : Datetime} (hri : mi.event.ruleNow? = some (rulei, nowi))
    (hrj : mj.event.ruleNow? = some (rulej, nowj)) :
    seconds rulej.executionPolicy.cooldown ≤ elapsed nowj nowi := by
  -- no fire in between, so the stamp call `j` finds is the one of call `i`
  have hstamp : mj.before.lastFiredAt = some nowi :=
    timer_stays (fun state => state.lastFiredAt) (fun m => ¬ Fires m)
      (fun n m hm hk t ht => by rw [lastFiredAt_of_not_fires hm hk]; exact ht) hi
      (lastFiredAt_of_fires hi hfi hri).1 hij
      (fun k mk h1 h2 hk => hnone k mk (by omega) h2 hk) hj
  have hcool := (lastFiredAt_of_fires hj hfj hrj).2
  simp only [coolingDown, hstamp, decide_eq_false_iff_not] at hcool
  omega

/-- **Fire admission.** Over any run of the four operations, with any rule object at each call:

1. a fire of `evaluate` under a hold of `d` has an evaluation at least `d` before it, since which
   every evaluation found its tree true and neither a manual reset nor a change of fingerprint
   came in between;
2. of two successive fires, through either entry point, the second comes no sooner than its own
   rule's cooldown. -/
theorem fire_admission (calls : List (Call F)) :
    (∀ j mj rule snapshot now, CallAt (history calls) j mj →
      mj.event = .evaluate rule snapshot now → Fires mj →
      ∃ i mi rule' snapshot' now', i ≤ j ∧ CallAt (history calls) i mi ∧
        mi.event = .evaluate rule' snapshot' now' ∧
        seconds rule.executionPolicy.forDuration ≤ elapsed now now' ∧
        HeldOver (history calls) KeepsHold i (j + 1)) ∧
    (∀ i j mi mj rulei rulej nowi nowj, i < j → CallAt (history calls) i mi →
      CallAt (history calls) j mj → Fires mi → Fires mj →
      (∀ k mk, i < k → k < j → CallAt (history calls) k mk → ¬ Fires mk) →
      mi.event.ruleNow? = some (rulei, nowi) → mj.event.ruleNow? = some (rulej, nowj) →
      seconds rulej.executionPolicy.cooldown ≤ elapsed nowj nowi) :=
  ⟨fun _ _ _ _ _ hj he hf => fire_held hj he hf,
   fun _ _ _ _ _ _ _ _ hij hi hj hfi hfj hnone hri hrj =>
    fire_cooled hij hi hj hfi hfj hnone hri hrj⟩

/-- The thermostat under a five-second hold. -/
def heldThermostat : Rule Int := { thermostat with executionPolicy := { forDuration := 5 } }

/-- Two readings above the threshold, five seconds apart. -/
def heldCalls : List (Call Int) :=
  [.evaluate heldThermostat (reading 35 0) 0,
    .evaluate heldThermostat (reading 35 5000000) 5000000]

/-- The second reading completes the hold, and the first one is behind the fire. -/
theorem fire_admission_held :
    ∃ i mi rule' snapshot' now', i ≤ 1 ∧ CallAt (history heldCalls) i mi ∧
      mi.event = .evaluate rule' snapshot' now' ∧
      seconds heldThermostat.executionPolicy.forDuration ≤ elapsed 5000000 now' ∧
      HeldOver (history heldCalls) KeepsHold i 2 :=
  (fire_admission heldCalls).1 1 _ _ _ _ rfl rfl ⟨⟨"thermostat", .fire⟩, by decide +kernel, rfl⟩

end IotSaas.Rules
