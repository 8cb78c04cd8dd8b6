import IotSaas.Rules.Admission
import IotSaas.Rules.Repeat

/-!
# `Rules/PendingTimer.lean` — which timers no reading will complete

`has_pending_timer` looks at a rule's state only; what it promises is about the evaluator: on the
entries of the last evaluation, as fresh as they were, some later evaluation gives a clear, or the
first fire since the condition became true. One evaluation decides it. It leaves the rule waiting
for time alone in two of its exits: armed behind a hold or a cooldown, and inside a clear delay. In
every other one the same entries find it as it is, however late.
-/

set_option autoImplicit false

namespace IotSaas.Rules

open Lib

section

variable {F : Type} [PyFloat F]

/-- `pending_timer_rules`, over `_rules_by_id.values()` and `_rule_states`. -/
def pendingTimerRules (rules : List (Rule F)) (states : Dict Uuid RuleState) : List (Rule F) :=
  rules.filter fun rule =>
    match rule.trigger with
    | .metric =>
        match states.get rule.id with
        | none => false
        | some state => hasPendingTimer rule state
    | _ => false

/-- `evaluate` gives a clear, or a fire where the last one, if any, came before the condition
became true. -/
def Finishes (rule : Rule F) (snapshot : MetricSnapshot F) (now : Datetime) (state : RuleState) :
    Prop :=
  ∃ firing, (evaluate rule snapshot now state).1 = some firing ∧
    (firing.edge = .clear ∨ firing.edge = .fire ∧ ∃ since, state.conditionSince = some since ∧
      ∀ fired, state.lastFiredAt = some fired → fired < since)

/-! ## The second evaluation -/

variable {rule : Rule F} {snapshot : MetricSnapshot F} {state : RuleState}

/-- A true tree with every gate open fires. -/
theorem evaluate_of_open {now : Datetime} (tree : treeResult rule snapshot now state = some true)
    (held : HoldComplete rule now state) (armed : state.armed = true)
    (cool : coolingDown rule now state = false) :
    (evaluate rule snapshot now state).1 = some { ruleId := rule.id } := by
  have harmed : (rearmed rule snapshot now state).armed = true := rearmed_armed armed
  cases evaluate_exit rule snapshot now state with
  | fired tree held armed cool eq => rw [eq]
  | gated tree gate eq =>
    rcases gate with hshort | hshut | hcool
    · exact absurd held hshort
    · rw [harmed] at hshut
      cases hshut
    · rw [cool] at hcool
      cases hcool
  | idle tree' shut eq => exact absurd tree tree'
  | dropped tree' isOpen gone eq | holding tree' isOpen has short eq
  | cleared tree' isOpen has done eq =>
    rw [tree] at tree'
    cases tree'

/-- A false tree with the clear delay over clears. -/
theorem evaluate_of_delay_over {now : Datetime}
    (tree : treeResult rule snapshot now state = some false) (isOpen : state.active = true)
    (has : rule.clearActions ≠ []) (done : ClearComplete rule now state) :
    (evaluate rule snapshot now state).1 = some { ruleId := rule.id, edge := .clear } := by
  cases evaluate_exit rule snapshot now state with
  | cleared tree isOpen has done eq => rw [eq]
  | holding tree' isOpen' has' short eq => exact absurd done short
  | dropped tree' isOpen' gone eq => exact absurd gone has
  | idle tree' shut eq =>
    rcases shut with hnone | hshut
    · rw [tree] at hnone
      cases hnone
    · rw [isOpen] at hshut
      cases hshut
  | gated tree' gate eq | fired tree' held armed cool eq =>
    rw [tree] at tree'
    cases tree'

/-- A tree that is not true gives a clear or nothing, and that only in an open episode. -/
theorem evaluate_of_not_true {now : Datetime}
    (tree : treeResult rule snapshot now state ≠ some true) {firing : Firing}
    (h : (evaluate rule snapshot now state).1 = some firing) :
    treeResult rule snapshot now state = some false ∧ state.active = true := by
  cases evaluate_exit rule snapshot now state with
  | cleared tree' isOpen has done eq => exact ⟨tree', isOpen⟩
  | gated tree' gate eq | fired tree' held armed cool eq => exact absurd tree' tree
  | idle tree' shut eq | dropped tree' isOpen gone eq | holding tree' isOpen has short eq =>
    rw [eq] at h
    cases h

/-- A true tree gives a fire or nothing, and that only to a rule the re-arm block leaves armed. -/
theorem evaluate_of_true {now : Datetime} (tree : treeResult rule snapshot now state = some true)
    {firing : Firing} (h : (evaluate rule snapshot now state).1 = some firing) :
    firing.edge = .fire ∧ (rearmed rule snapshot now state).armed = true := by
  cases evaluate_exit rule snapshot now state with
  | fired tree' held armed cool eq =>
    rw [eq] at h
    cases h
    exact ⟨rfl, armed⟩
  | gated tree' gate eq =>
    rw [eq] at h
    cases h
  | idle tree' shut eq => exact absurd tree tree'
  | dropped tree' isOpen gone eq | holding tree' isOpen has short eq
  | cleared tree' isOpen has done eq =>
    rw [tree] at tree'
    cases tree'

/-! ## Two evaluations of one snapshot -/

section

variable {rule : Rule F} {a b : MetricSnapshot F} {t₁ t₂ : Datetime} {state : RuleState}

omit [PyFloat F] in
/-- A moment by which the hold, the cooldown and the clear delay are all over. -/
theorem exists_later (rule : Rule F) (state : RuleState) (t₁ : Int) : ∃ t₂ : Int, t₁ < t₂ ∧
    (∀ since, state.conditionSince = some since → HoldComplete rule t₂ state) ∧
    coolingDown rule t₂ state = false ∧
    (∀ since, state.clearSince = some since → ClearComplete rule t₂ state) := by
  have hbound : ∀ (stamp : Option Datetime) (span : Nat), ∃ t : Int,
      ∀ (since : Int), stamp = some since → ∀ t₂ : Int, t ≤ t₂ →
        seconds span ≤ elapsed t₂ since := by
    intro stamp span
    cases stamp with
    | none => exact ⟨0, fun since h => by cases h⟩
    | some since =>
      refine ⟨(since : Int) + seconds span, fun since' h t₂ ht => ?_⟩
      cases h
      unfold elapsed
      show seconds span ≤ t₂ - (since : Int)
      omega
  obtain ⟨held, hheld⟩ := hbound state.conditionSince rule.executionPolicy.forDuration
  obtain ⟨cool, hcool⟩ := hbound state.lastFiredAt rule.executionPolicy.cooldown
  obtain ⟨done, hdone⟩ := hbound state.clearSince rule.executionPolicy.clearForDuration
  have h₁ : t₁ + 1 ≤ max (max (t₁ + 1) held) (max cool done) := by omega
  have h₂ : held ≤ max (max (t₁ + 1) held) (max cool done) := by omega
  have h₃ : cool ≤ max (max (t₁ + 1) held) (max cool done) := by omega
  have h₄ : done ≤ max (max (t₁ + 1) held) (max cool done) := by omega
  refine ⟨max (max (t₁ + 1) held) (max cool done), by omega, ?_, ?_, ?_⟩
  · intro since hs
    unfold HoldComplete
    rw [hs]
    exact hheld since hs _ h₂
  · unfold coolingDown
    cases hs : state.lastFiredAt with
    | none => rfl
    | some fired =>
      have hover := hcool fired hs _ h₃
      simp only [decide_eq_false_iff_not, Int.not_lt]
      exact hover
  · intro since hs
    unfold ClearComplete
    rw [hs]
    exact hdone since hs _ h₄

/-- **What stays disarmed.** An evaluation whose re-arm block left the rule disarmed on a true tree
has no reason to arm it on the same entries. -/
theorem disarmed_again (hsound : SoundRule rule) (h : SameEntries a t₁ b t₂)
    (tree : treeResult rule a t₁ state = some true)
    (shut : (rearmed rule a t₁ state).armed = false) :
    (rearmed rule b t₂ (evaluate rule a t₁ state).2).armed = false := by
  have hdisarmed : (evaluate rule a t₁ state).2.armed = false := evaluate_disarmed shut
  have hstate : state.armed = false := by
    by_contra harmed
    rw [rearmed_armed (by simpa using harmed)] at shut
    cases shut
  by_contra harmed
  have hreason := rearmed_reason hdisarmed (by simpa using harmed)
  unfold RearmReason at hreason
  cases hs : rule.executionPolicy.strategy with
  | continuous =>
    unfold rearmed rearm at shut
    simp [hstate, hs] at shut
  | edge =>
    simp only [hs] at hreason
    rw [treeResult_again hsound h, tree] at hreason
    cases hreason
  | resetCondition =>
    cases hr : rule.executionPolicy.resetCondition with
    | none =>
      simp only [hs, hr] at hreason
      rw [treeResult_again hsound h, tree] at hreason
      cases hreason
    | some node =>
      simp only [hs, hr] at hreason
      have hfirst : resetResult rule a t₁ state =
          some (evaluateNode a t₁ node state.resetLeafStates []).1 := by
        simp [resetResult, hstate, hs, evaluateReset, hr]
      rw [resetResult_again hsound h hfirst hdisarmed, Option.some.injEq] at hreason
      unfold rearmed rearm at shut
      simp [hstate, hs, evaluateReset, hr, hreason] at shut
  | latch =>
    cases hr : rule.executionPolicy.resetCondition with
    | none => simp only [hs, hr] at hreason
    | some node =>
      simp only [hs, hr] at hreason
      have hfirst : resetResult rule a t₁ state =
          some (evaluateNode a t₁ node state.resetLeafStates []).1 := by
        simp [resetResult, hstate, hs, evaluateReset, hr]
      rw [resetResult_again hsound h hfirst hdisarmed, Option.some.injEq] at hreason
      unfold rearmed rearm at shut
      simp [hstate, hs, evaluateReset, hr, hreason] at shut

omit [PyFloat F] in
theorem hasPendingTimer_iff {rule : Rule F} {state : RuleState} :
    hasPendingTimer rule state = true ↔
      (∃ t, state.clearSince = some t) ∧ 0 < rule.executionPolicy.clearForDuration ∨
      state.armed = true ∧ 0 < rule.executionPolicy.forDuration ∧
        ∃ since, state.conditionSince = some since ∧
          ∀ fired, state.lastFiredAt = some fired → fired < since := by
  unfold hasPendingTimer
  dsimp only
  cases hclear : state.clearSince <;> cases hsince : state.conditionSince <;>
    cases hlast : state.lastFiredAt <;>
    by_cases hdelay : 0 < rule.executionPolicy.clearForDuration <;> simp [hdelay, and_assoc]

omit [PyFloat F] in
theorem not_lt_of_elapsed {a b : Int} (h : 0 ≤ elapsed a b) : ¬ a < b := by
  unfold elapsed at h
  omega

/-- Without an open episode, a tree that is not true brings nothing. -/
theorem not_finishes_of_shut {now : Datetime} {snapshot : MetricSnapshot F}
    (tree : treeResult rule snapshot now state ≠ some true) (shut : state.active = false) :
    ¬ Finishes rule snapshot now state := by
  rintro ⟨firing, hout, -⟩
  have hopen := (evaluate_of_not_true tree hout).2
  rw [shut] at hopen
  cases hopen

/-- **One evaluation decides what time alone will bring.** -/
theorem pending_iff_finishes (hsound : SoundRule rule)
    (hfor : 0 < rule.executionPolicy.forDuration)
    (hsince : ∀ t, state.conditionSince = some t → 0 ≤ elapsed t₁ t)
    (hclear : ∀ t, state.clearSince = some t → 0 ≤ elapsed t₁ t) :
    hasPendingTimer rule (evaluate rule a t₁ state).2 = true ↔
      ∃ t₂, t₁ < t₂ ∧ ∃ b, SameEntries a t₁ b t₂ ∧
        Finishes rule b t₂ (evaluate rule a t₁ state).2 := by
  have hagain : ∀ {b t₂}, SameEntries a t₁ b t₂ →
      treeResult rule b t₂ (evaluate rule a t₁ state).2 = treeResult rule a t₁ state :=
    fun h => treeResult_again hsound h
  obtain ⟨later₂, hlater, hheld, hcool, hdone⟩ :=
    exists_later rule (evaluate rule a t₁ state).2 t₁
  have hsame := sameEntries_later a t₁ later₂
  rw [hasPendingTimer_iff]
  cases evaluate_exit rule a t₁ state with
  | fired tree held armed cool eq =>
    -- the next fire would be the second one of this hold
    refine iff_of_false (by rw [eq]; simp [running]) ?_
    rintro ⟨t₂, -, b, hsame, firing, hout, hedge⟩
    have hfire := (evaluate_of_true ((hagain hsame).trans tree) hout).1
    rcases hedge with hclears | ⟨-, since, hs, hlast⟩
    · rw [hfire] at hclears
      cases hclears
    · rw [eq] at hs hlast
      have hlt : t₁ < since := hlast t₁ rfl
      have hstart : some (state.conditionSince.getD t₁) = some since := by
        simpa [running] using hs
      cases hstate : state.conditionSince with
      | none =>
        rw [hstate] at hstart
        cases hstart
        exact absurd hlt (lt_irrefl _)
      | some c =>
        rw [hstate] at hstart
        cases hstart
        exact not_lt_of_elapsed (hsince _ hstate) hlt
  | gated tree gate eq =>
    have hstart : (evaluate rule a t₁ state).2.conditionSince =
        some (state.conditionSince.getD t₁) := by
      rw [eq]
      simp [running]
    have harmed : (evaluate rule a t₁ state).2.armed = (rearmed rule a t₁ state).armed := by
      rw [eq]
      rfl
    have hstopped : (evaluate rule a t₁ state).2.clearSince = none := by
      rw [eq]
      rfl
    cases hshut : (rearmed rule a t₁ state).armed with
    | false =>
      refine iff_of_false (by simp [hstopped, harmed, hshut]) ?_
      rintro ⟨t₂, -, b, hsame, firing, hout, -⟩
      have hopen := (evaluate_of_true ((hagain hsame).trans tree) hout).2
      rw [disarmed_again hsound hsame tree hshut] at hopen
      cases hopen
    | true =>
      -- the hold and the cooldown are all that is between the rule and its fire
      constructor
      · rintro (⟨⟨t, ht⟩, -⟩ | ⟨-, -, since, hs, hlast⟩)
        · rw [hstopped] at ht
          cases ht
        · refine ⟨later₂, hlater, _, hsame, { ruleId := rule.id }, ?_,
            .inr ⟨rfl, since, hs, hlast⟩⟩
          exact evaluate_of_open ((hagain hsame).trans tree) (hheld since hs)
            (harmed.trans hshut) hcool
      · rintro ⟨t₂, -, b, hsame, firing, hout, hedge⟩
        have hfire := (evaluate_of_true ((hagain hsame).trans tree) hout).1
        rcases hedge with hclears | ⟨-, since, hs, hlast⟩
        · rw [hfire] at hclears
          cases hclears
        · exact .inr ⟨harmed.trans hshut, hfor, since, hs, hlast⟩
  | idle tree shut eq =>
    refine iff_of_false (by rw [eq]; simp [halted]) ?_
    rintro ⟨t₂, -, b, hsame, hfinishes⟩
    have htree := hagain hsame
    have hactive : (evaluate rule a t₁ state).2.active = state.active := by
      rw [eq]
      simp [halted]
    rcases shut with hnone | hshut
    · obtain ⟨firing, hout, -⟩ := hfinishes
      have hfalse := (evaluate_of_not_true (by rw [htree]; exact tree) hout).1
      rw [htree, hnone] at hfalse
      cases hfalse
    · exact not_finishes_of_shut (by rw [htree]; exact tree) (hactive.trans hshut) hfinishes
  | dropped tree isOpen gone eq =>
    refine iff_of_false (by rw [eq]; simp [halted]) ?_
    rintro ⟨t₂, -, b, hsame, hfinishes⟩
    exact not_finishes_of_shut (by rw [hagain hsame, tree]; simp) (by rw [eq]) hfinishes
  | cleared tree isOpen has done eq =>
    refine iff_of_false (by rw [eq]; simp [halted]) ?_
    rintro ⟨t₂, -, b, hsame, hfinishes⟩
    exact not_finishes_of_shut (by rw [hagain hsame, tree]; simp) (by rw [eq]) hfinishes
  | holding tree isOpen has short eq =>
    have hrunning : (evaluate rule a t₁ state).2.clearSince =
        some (state.clearSince.getD t₁) := by
      rw [eq]
    have hactive : (evaluate rule a t₁ state).2.active = true := by
      rw [eq]
      simpa [halted] using isOpen
    refine iff_of_true (.inl ⟨⟨_, hrunning⟩, ?_⟩) ?_
    · -- a delay of nothing would be over
      by_contra hzero
      apply short
      unfold ClearComplete
      have hspan : rule.executionPolicy.clearForDuration = 0 := by omega
      rw [hspan]
      cases hstate : state.clearSince with
      | none => simp [seconds, elapsed]
      | some t =>
        have := hclear t hstate
        simpa [seconds] using this
    · refine ⟨later₂, hlater, _, hsame, { ruleId := rule.id, edge := .clear }, ?_, .inl rfl⟩
      exact evaluate_of_delay_over ((hagain hsame).trans tree) hactive has (hdone _ hrunning)

end

/-! ## Runs -/

/-- The operations a rule's state sees while the rule is not edited. -/
def Call.Runs (rule : Rule F) (call : Call F) : Prop :=
  (∃ snapshot now, call = .evaluate rule snapshot now) ∨
    (∃ fingerprint, call = .alignStateToCondition fingerprint) ∨ call = .resetLatch

/-- The clock of a call that has one. -/
def Call.now? (call : Call F) : Option Datetime := call.ruleNow?.map Prod.snd

/-- Call `k` evaluated the rule at `t`. -/
def EvaluatedAt (calls : List (Call F)) (k : Nat) (t : Datetime) : Prop :=
  ∃ m rule snapshot, CallAt (history calls) k m ∧ m.event = .evaluate rule snapshot t

/-- Call `k` fired at `t`. -/
def FiredAt (calls : List (Call F)) (k : Nat) (t : Datetime) : Prop :=
  ∃ m rule snapshot, CallAt (history calls) k m ∧ m.event = .evaluate rule snapshot t ∧ Fires m

/-- Before call `n` every stamp of the state is the clock of an evaluation, and the stamp of the
last fire is not older than any fire. -/
structure Stamped (calls : List (Call F)) (n : Nat) (state : RuleState) : Prop where
  since : ∀ t, state.conditionSince = some t → ∃ k, k < n ∧ EvaluatedAt calls k t
  clear : ∀ t, state.clearSince = some t → ∃ k, k < n ∧ EvaluatedAt calls k t
  fired : ∀ t, state.lastFiredAt = some t → ∃ k, k < n ∧ FiredAt calls k t
  last : ∀ k t, k < n → FiredAt calls k t → ∃ f, state.lastFiredAt = some f ∧ 0 ≤ elapsed f t

variable {calls : List (Call F)}

theorem evaluatedAt_of_firedAt {k : Nat} {t : Datetime} (h : FiredAt calls k t) :
    EvaluatedAt calls k t := by
  obtain ⟨m, rule, snapshot, hm, he, -⟩ := h
  exact ⟨m, rule, snapshot, hm, he⟩

/-- Later evaluations have later clocks. -/
theorem now_lt (hnow : (calls.filterMap Call.now?).Pairwise (· < ·)) {i j : Nat} (hij : i < j)
    {ti tj : Datetime} (hi : EvaluatedAt calls i ti) (hj : EvaluatedAt calls j tj) : ti < tj := by
  obtain ⟨mi, rulei, snapshoti, hmi, hei⟩ := hi
  obtain ⟨mj, rulej, snapshotj, hmj, hej⟩ := hj
  have hci := trace_event hmi
  have hcj := trace_event hmj
  rw [hei] at hci
  rw [hej] at hcj
  rw [List.pairwise_filterMap, List.pairwise_iff_getElem] at hnow
  obtain ⟨hli, hgi⟩ := List.getElem?_eq_some_iff.mp hci
  obtain ⟨hlj, hgj⟩ := List.getElem?_eq_some_iff.mp hcj
  exact hnow i j hli hlj hij ti (by rw [hgi]; rfl) tj (by rw [hgj]; rfl)

theorem elapsed_of_lt {a b : Int} (h : a < b) : 0 ≤ elapsed b a := by
  unfold elapsed
  omega

/-- The clear delay of an evaluation is the one before it, or starts with it. -/
theorem evaluate_clearSince {now t : Datetime}
    (h : (evaluate rule snapshot now state).2.clearSince = some t) :
    state.clearSince = some t ∨ t = now := by
  cases evaluate_exit rule snapshot now state with
  | gated tree gate eq | fired tree held armed cool eq | idle tree shut eq
  | dropped tree isOpen gone eq | cleared tree isOpen has done eq =>
    rw [eq] at h
    cases h
  | holding tree isOpen has short eq =>
    rw [eq] at h
    cases hs : state.clearSince with
    | none =>
      rw [hs] at h
      cases h
      exact .inr rfl
    | some c =>
      rw [hs] at h
      exact .inl h

omit [PyFloat F] in
theorem align_clearSince {fingerprint : String} {t : Datetime}
    (h : (alignStateToCondition state fingerprint).clearSince = some t) :
    state.clearSince = some t := by
  unfold alignStateToCondition at h
  cases hfp : state.conditionFingerprint with
  | none =>
    rw [hfp] at h
    exact h
  | some fp =>
    rw [hfp] at h
    dsimp only at h
    by_cases hq : fp = fingerprint
    · rw [if_pos hq] at h
      exact h
    · rw [if_neg hq] at h
      cases h

/-- Only an evaluation fires. -/
theorem evaluate_of_fires (hcalls : ∀ call ∈ calls, call.Runs rule) {n : Nat} {m : RuleCall F}
    (hm : CallAt (history calls) n m) (hf : Fires m) :
    ∃ snapshot now, m.event = .evaluate rule snapshot now := by
  obtain ⟨firing, hout, -⟩ := hf
  rw [callAt_out hm] at hout
  rcases hcalls _ (List.mem_of_getElem? (trace_event hm)) with he | ⟨fingerprint, he⟩ | he
  · exact he
  · rw [he] at hout
    cases hout
  · rw [he] at hout
    cases hout

/-- **One call stamps its own clock**, or none. -/
theorem stamped_step (hcalls : ∀ call ∈ calls, call.Runs rule)
    (hnow : (calls.filterMap Call.now?).Pairwise (· < ·)) {n : Nat} {m : RuleCall F}
    (hm : CallAt (history calls) n m) (h : Stamped calls n m.before) :
    Stamped calls (n + 1) m.after := by
  have hkept : ∀ {P : Nat → Prop}, (∃ k, k < n ∧ P k) → ∃ k, k < n + 1 ∧ P k :=
    fun ⟨k, hk, hp⟩ => ⟨k, by omega, hp⟩
  have hsince : ∀ t, m.after.conditionSince = some t → ∃ k, k < n + 1 ∧ EvaluatedAt calls k t := by
    intro t ht
    rcases (conditionSince_step hm ht).2 with hold | ⟨rule', snapshot, he⟩
    · exact hkept (h.since t hold)
    · exact ⟨n, by omega, m, rule', snapshot, hm, he⟩
  have hclear : ∀ t, m.after.clearSince = some t → ∃ k, k < n + 1 ∧ EvaluatedAt calls k t := by
    intro t ht
    rw [callAt_after hm] at ht
    rcases hcalls _ (List.mem_of_getElem? (trace_event hm)) with
      ⟨snapshot, now, he⟩ | ⟨fingerprint, he⟩ | he
    · rw [he, callStep_evaluate] at ht
      rcases evaluate_clearSince ht with hold | rfl
      · exact hkept (h.clear t hold)
      · exact ⟨n, by omega, m, rule, snapshot, hm, he⟩
    · rw [he, callStep_align] at ht
      exact hkept (h.clear t (align_clearSince ht))
    · rw [he, callStep_resetLatch] at ht
      exact hkept (h.clear t ht)
  -- A fire stamps the time of this call, later than those before; without one the stamp stays.
  by_cases hf : Fires m
  · obtain ⟨snapshot, now, he⟩ := evaluate_of_fires hcalls hm hf
    have hstamp : m.after.lastFiredAt = some now :=
      (lastFiredAt_of_fires hm hf (by rw [he]; rfl)).1
    have hthis : FiredAt calls n now := ⟨m, rule, snapshot, hm, he, hf⟩
    refine ⟨hsince, hclear, ?_, ?_⟩
    · intro t ht
      rw [hstamp] at ht
      cases ht
      exact ⟨n, by omega, hthis⟩
    · intro k t hk hfired
      refine ⟨now, hstamp, ?_⟩
      rcases Nat.lt_succ_iff_lt_or_eq.mp hk with hk | rfl
      · exact elapsed_of_lt (now_lt hnow hk (evaluatedAt_of_firedAt hfired)
          (evaluatedAt_of_firedAt hthis))
      · obtain ⟨m', rule', snapshot', hm', he', -⟩ := hfired
        obtain rfl := CallAt.unique hm hm'
        rw [he] at he'
        cases he'
        simp [elapsed]
  · have hstamp := lastFiredAt_of_not_fires hm hf
    refine ⟨hsince, hclear, ?_, ?_⟩
    · intro t ht
      rw [hstamp] at ht
      exact hkept (h.fired t ht)
    · intro k t hk hfired
      rw [hstamp]
      rcases Nat.lt_succ_iff_lt_or_eq.mp hk with hk | rfl
      · exact h.last k t hk hfired
      · obtain ⟨m', rule', snapshot', hm', -, hf'⟩ := hfired
        exact absurd (CallAt.unique hm hm' ▸ hf') hf

theorem stamped (hcalls : ∀ call ∈ calls, call.Runs rule)
    (hnow : (calls.filterMap Call.now?).Pairwise (· < ·)) {n : Nat} {m : RuleCall F}
    (hm : CallAt (history calls) n m) : Stamped calls n m.before :=
  trace_invariant (I := Stamped calls)
    { since := by simp
      clear := by simp
      fired := by simp
      last := by simp }
    (fun _ _ hm h => stamped_step hcalls hnow hm h) n m hm

/-- The state a call leaves has a fire before `since` only, exactly if its run has. -/
theorem lastFiredAt_lt_iff {n : Nat} (h : Stamped calls n state) (since : Int) :
    (∀ fired : Int, state.lastFiredAt = some fired → fired < since) ↔
      ∀ k, k < n → ∀ t : Int, FiredAt calls k t → t < since := by
  constructor
  · intro hlast k hk t hfired
    obtain ⟨f, hf, hle⟩ := h.last k t hk hfired
    have hlt := hlast f hf
    have hnot := not_lt_of_elapsed hle
    omega
  · intro hfires fired hf
    obtain ⟨k, hk, hfired⟩ := h.fired fired hf
    exact hfires k hk fired hfired

/-- After call `n`, on these entries `evaluate` would give a clear, or the first fire since the
condition became true. -/
def WouldFinish (rule : Rule F) (calls : List (Call F)) (n : Nat) (snapshot : MetricSnapshot F)
    (now : Datetime) (state : RuleState) : Prop :=
  ∃ firing, (evaluate rule snapshot now state).1 = some firing ∧
    (firing.edge = .clear ∨ firing.edge = .fire ∧ ∃ since : Int,
      state.conditionSince = some since ∧
        ∀ k, k ≤ n → ∀ t : Int, FiredAt calls k t → t < since)

theorem wouldFinish_iff {n : Nat} (h : Stamped calls (n + 1) state) (snapshot : MetricSnapshot F)
    (now : Datetime) :
    WouldFinish rule calls n snapshot now state ↔ Finishes rule snapshot now state := by
  unfold WouldFinish Finishes
  simp only [← Nat.lt_succ_iff]
  constructor
  · rintro ⟨firing, hout, hclear | ⟨hfire, since, hs, hfires⟩⟩
    · exact ⟨firing, hout, .inl hclear⟩
    · exact ⟨firing, hout, .inr ⟨hfire, since, hs, (lastFiredAt_lt_iff h since).mpr hfires⟩⟩
  · rintro ⟨firing, hout, hclear | ⟨hfire, since, hs, hlast⟩⟩
    · exact ⟨firing, hout, .inl hclear⟩
    · exact ⟨firing, hout, .inr ⟨hfire, since, hs, (lastFiredAt_lt_iff h since).mp hlast⟩⟩

omit [PyFloat F] in
theorem mem_pendingTimerRules {rules : List (Rule F)} {states : Dict Uuid RuleState}
    (hmetric : rule.trigger = .metric) (hmem : rule ∈ rules)
    (hstate : states.get rule.id = some state) :
    rule ∈ pendingTimerRules rules states ↔ hasPendingTimer rule state = true := by
  unfold pendingTimerRules
  rw [List.mem_filter, hmetric, hstate]
  simp [hmem]

end

/-- **Pending timers are exact.** After every evaluation of a run of a metric rule with a hold,
`has_pending_timer` holds exactly if a later evaluation on the same entries would give a clear or
the first fire since `condition_since` was set; so these are the rules `pending_timer_rules` lists
for the states the worker has. -/
theorem pending_timer_exact {fmt : Ieee.Format} (rule : Rule (Ieee.Number fmt))
    (hmetric : rule.trigger = .metric) (hfor : 0 < rule.executionPolicy.forDuration)
    (hcondition : ∀ node, rule.condition = some node → MarginsOk node)
    (hreset : ∀ node, rule.executionPolicy.resetCondition = some node → MarginsOk node)
    (calls : List (Call (Ieee.Number fmt))) (hcalls : ∀ call ∈ calls, call.Runs rule)
    (hnow : (calls.filterMap Call.now?).Pairwise (· < ·)) (n : Nat)
    (m : RuleCall (Ieee.Number fmt)) (hm : CallAt (history calls) n m)
    (snapshot : MetricSnapshot (Ieee.Number fmt)) (t₁ : Datetime)
    (he : m.event = .evaluate rule snapshot t₁) :
    (hasPendingTimer rule m.after = true ↔ ∃ t₂, t₁ < t₂ ∧ ∃ again,
      SameEntries snapshot t₁ again t₂ ∧ WouldFinish rule calls n again t₂ m.after) ∧
    ∀ rules states, rule ∈ rules → states.get rule.id = some m.after →
      (rule ∈ pendingTimerRules rules states ↔ ∃ t₂, t₁ < t₂ ∧ ∃ again,
        SameEntries snapshot t₁ again t₂ ∧ WouldFinish rule calls n again t₂ m.after) := by
  have hbefore := stamped hcalls hnow hm
  have hafter := stamped_step hcalls hnow hm hbefore
  have hthis : EvaluatedAt calls n t₁ := ⟨m, rule, snapshot, hm, he⟩
  have hsound : SoundRule rule :=
    ⟨fun node h => (hcondition node h).sound, fun node h => (hreset node h).sound⟩
  have hsince : ∀ t, m.before.conditionSince = some t → 0 ≤ elapsed t₁ t := by
    intro t ht
    obtain ⟨k, hk, hat⟩ := hbefore.since t ht
    exact elapsed_of_lt (now_lt hnow hk hat hthis)
  have hclear : ∀ t, m.before.clearSince = some t → 0 ≤ elapsed t₁ t := by
    intro t ht
    obtain ⟨k, hk, hat⟩ := hbefore.clear t ht
    exact elapsed_of_lt (now_lt hnow hk hat hthis)
  have hpending : hasPendingTimer rule (evaluate rule snapshot t₁ m.before).2 = true ↔ _ :=
    pending_iff_finishes hsound hfor hsince hclear
  have hstate : m.after = (evaluate rule snapshot t₁ m.before).2 := by
    rw [callAt_after hm, he]
    rfl
  rw [← hstate] at hpending
  have hexact : hasPendingTimer rule m.after = true ↔ ∃ t₂, t₁ < t₂ ∧ ∃ again,
      SameEntries snapshot t₁ again t₂ ∧ WouldFinish rule calls n again t₂ m.after := by
    simp only [wouldFinish_iff hafter]
    exact hpending
  refine ⟨hexact, ?_⟩
  intro rules states hmem hget
  rw [mem_pendingTimerRules hmetric hmem hget]
  exact hexact

/-- The heater switches on after five seconds above 30. -/
def heaterRule : Rule (Ieee.Number .exact) where
  id := "heater"
  tenantId := "tenant"
  condition := some (.leaf heater.leaf)
  executionPolicy := { forDuration := 5 }

theorem heaterRule_margins (node : Node (Ieee.Number .exact))
    (h : heaterRule.condition = some node) : MarginsOk node := by
  cases h
  intro path leaf hleaf operator rhs hysteresis htest
  cases hleaf
  cases htest
  exact heater_margin

/-- One reading above the threshold starts the hold. -/
def heaterCalls : List (Call (Ieee.Number .exact)) :=
  [.evaluate heaterRule (heaterReading 31).1 0]

theorem pending_timer_exact_heater : ∃ m, CallAt (history heaterCalls) 0 m ∧
    ((hasPendingTimer heaterRule m.after = true ↔ ∃ t₂, 0 < t₂ ∧ ∃ again,
      SameEntries (heaterReading 31).1 0 again t₂ ∧
        WouldFinish heaterRule heaterCalls 0 again t₂ m.after) ∧
    ∀ rules states, heaterRule ∈ rules → states.get heaterRule.id = some m.after →
      (heaterRule ∈ pendingTimerRules rules states ↔ ∃ t₂, 0 < t₂ ∧ ∃ again,
        SameEntries (heaterReading 31).1 0 again t₂ ∧
          WouldFinish heaterRule heaterCalls 0 again t₂ m.after)) := by
  refine ⟨_, rfl, pending_timer_exact heaterRule rfl (by decide) heaterRule_margins ?_
    heaterCalls ?_ ?_ 0 _ rfl _ 0 rfl⟩
  · intro node h
    cases h
  · intro call hcall
    cases List.mem_singleton.mp hcall
    exact .inl ⟨_, _, rfl⟩
  · simp [heaterCalls, Call.now?, Call.ruleNow?]

end IotSaas.Rules
