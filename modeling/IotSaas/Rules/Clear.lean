import IotSaas.Rules.Calls

/-!
# `Rules/Clear.lean` — what was switched on is switched off

A rule with clear actions opens an episode when it fires and closes it with one clear. Two facts
carry the file: `active` is the flag "a fire, and no clear since" (`Lib.flag_iff_since`), and
`clear_since` is a hold timer on the tree being *known* false (`Lib.timer_held`,
`Lib.timer_stays`), running only inside an episode. Put together they say exactly when a clear
comes — an equivalence, with neither the cooldown nor the re-arm strategy on its right-hand side.
-/

set_option autoImplicit false

namespace IotSaas.Rules

open Lib

variable {F : Type} [PyFloat F]

/-- One evaluation of a fixed rule: a snapshot, a clock, and what came of it. -/
abbrev Evaluation (F : Type) := Moment RuleState (MetricSnapshot F × Datetime) (Option Firing)

/-- The evaluations of `rule` from `RuleState()`, one after another. -/
def evaluations (rule : Rule F) (inputs : List (MetricSnapshot F × Datetime)) :
    List (Evaluation F) :=
  trace (fun state input => evaluate rule input.1 input.2 state) {} inputs

/-- The evaluation computed the condition tree to a known false. -/
def KnownFalse (rule : Rule F) (m : Evaluation F) : Prop :=
  treeResult rule m.event.1 m.event.2 m.before = some false

/-- An episode is open at evaluation `n`: a fire came before it, and no clear since that fire. -/
abbrev EpisodeOpen (tr : List (Evaluation F)) (n : Nat) : Prop := Since tr Fires Clears n

section

variable {rule : Rule F} {inputs : List (MetricSnapshot F × Datetime)} {n : Nat}
  {m : Evaluation F}

theorem evaluation_exit (hm : CallAt (evaluations rule inputs) n m) :
    Exit rule m.event.1 m.event.2 m.before ∧
      m.out = (evaluate rule m.event.1 m.event.2 m.before).1 ∧
      m.after = (evaluate rule m.event.1 m.event.2 m.before).2 := by
  have h := trace_moment hm
  refine ⟨evaluate_exit _ _ _ _, ?_, ?_⟩ <;> rw [h] <;> rfl

/-- A fire found its tree true. -/
theorem not_knownFalse_of_fires (hm : CallAt (evaluations rule inputs) n m) (hf : Fires m) :
    ¬ KnownFalse rule m := by
  obtain ⟨firing, ho, he⟩ := hf
  rw [(evaluation_exit hm).2.1] at ho
  rw [KnownFalse, (evaluate_fires ho he).1]
  simp

/-! ## The episode flag -/

/-- A fire opens the episode, a clear closes it, nothing else moves it. -/
theorem active_step (hclear : rule.clearActions ≠ [])
    (hm : CallAt (evaluations rule inputs) n m) :
    m.after.active = true ↔ Fires m ∨ m.before.active = true ∧ ¬ Clears m := by
  obtain ⟨hexit, hout, hafter⟩ := evaluation_exit hm
  unfold Fires Clears
  rw [hout, hafter]
  cases hexit with
  | gated tree gate eq => rw [eq]; simp [running]
  | fired tree held armed cool eq => rw [eq]; simp [hclear]
  | idle tree shut eq => rw [eq]; simp [halted]
  | dropped tree isOpen gone eq => exact absurd gone hclear
  | holding tree isOpen has short eq => rw [eq]; simp [halted]
  | cleared tree isOpen has done eq => rw [eq]; simp

/-- **`active` means an open episode.** -/
theorem active_iff_open (hclear : rule.clearActions ≠ [])
    (hm : CallAt (evaluations rule inputs) n m) :
    m.before.active = true ↔ EpisodeOpen (evaluations rule inputs) n :=
  flag_iff_since (fun state => state.active = true) Fires Clears (by simp)
    (fun _ _ h => active_step hclear h) hm

/-! ## The clear delay -/

/-- A delay found after an evaluation was kept by a known-false tree: found before, or started
by it. -/
theorem clearSince_step (hm : CallAt (evaluations rule inputs) n m) {t : Datetime}
    (ht : m.after.clearSince = some t) :
    KnownFalse rule m ∧ (m.before.clearSince = some t ∨ m.event.2 = t) := by
  obtain ⟨hexit, -, hafter⟩ := evaluation_exit hm
  rw [hafter] at ht
  cases hexit with
  | gated tree gate eq => rw [eq] at ht; simp [running] at ht
  | fired tree held armed cool eq => rw [eq] at ht; simp [running] at ht
  | idle tree shut eq => rw [eq] at ht; simp at ht
  | dropped tree isOpen gone eq => rw [eq] at ht; simp at ht
  | cleared tree isOpen has done eq => rw [eq] at ht; simp at ht
  | holding tree isOpen has short eq =>
    rw [eq] at ht
    refine ⟨tree, ?_⟩
    cases hs : m.before.clearSince with
    | none =>
      rw [hs] at ht
      exact Or.inr (Option.some.inj ht)
    | some since =>
      rw [hs] at ht
      exact Or.inl ht

/-- Inside an episode a known-false tree that does not clear starts the delay or leaves it. -/
theorem clearSince_of_knownFalse (hclear : rule.clearActions ≠ [])
    (hm : CallAt (evaluations rule inputs) n m) (ha : m.before.active = true)
    (hf : KnownFalse rule m) (hno : ¬ Clears m) :
    m.after.clearSince = some (m.before.clearSince.getD m.event.2) := by
  obtain ⟨hexit, hout, hafter⟩ := evaluation_exit hm
  unfold KnownFalse at hf
  cases hexit with
  | gated tree gate eq => rw [tree] at hf; cases hf
  | fired tree held armed cool eq => rw [tree] at hf; cases hf
  | idle tree shut eq =>
    rcases shut with h | h
    · rw [h] at hf; cases hf
    · rw [ha] at h; cases h
  | dropped tree isOpen gone eq => exact absurd gone hclear
  | holding tree isOpen has short eq => rw [hafter, eq]
  | cleared tree isOpen has done eq => exact absurd ⟨_, by rw [hout, eq], rfl⟩ hno

/-- A clear is an open episode, a known-false tree and a completed delay — and these are a
clear. -/
theorem clears_iff (hclear : rule.clearActions ≠ [])
    (hm : CallAt (evaluations rule inputs) n m) :
    Clears m ↔ m.before.active = true ∧ KnownFalse rule m ∧
      ClearComplete rule m.event.2 m.before := by
  obtain ⟨hexit, hout, -⟩ := evaluation_exit hm
  unfold Clears KnownFalse
  rw [hout]
  cases hexit with
  | gated tree gate eq => rw [eq, tree]; simp
  | fired tree held armed cool eq => rw [eq, tree]; simp
  | idle tree shut eq =>
    rw [eq]
    rcases shut with h | h <;> simp [h]
  | dropped tree isOpen gone eq => exact absurd gone hclear
  | holding tree isOpen has short eq => rw [eq]; simp [short]
  | cleared tree isOpen has done eq => rw [eq]; simp [isOpen, tree, done]

omit [PyFloat F] in
theorem clearSince_idle {state : RuleState} (h : state.clearSince = none) :
    state.clearSince.isSome = true → state.active = true := by
  simp [h]

/-- The delay runs inside an episode only. -/
theorem clearSince_active (snapshot : MetricSnapshot F) (now : Datetime) {state : RuleState} :
    (evaluate rule snapshot now state).2.clearSince.isSome = true →
      (evaluate rule snapshot now state).2.active = true := by
  cases evaluate_exit rule snapshot now state with
  | gated tree gate eq => rw [eq]; exact clearSince_idle rfl
  | fired tree held armed cool eq => rw [eq]; exact clearSince_idle rfl
  | idle tree shut eq => rw [eq]; exact clearSince_idle rfl
  | dropped tree isOpen gone eq => rw [eq]; exact clearSince_idle rfl
  | cleared tree isOpen has done eq => rw [eq]; exact clearSince_idle rfl
  | holding tree isOpen has short eq =>
    rw [eq]
    intro _
    simpa [halted] using isOpen

/-! ## When a clear comes -/

/-- Clocks read one after another, when the inputs' clocks do not run backwards. -/
theorem now_mono (hnow : (inputs.map Prod.snd).Pairwise (· ≤ ·)) {a b : Nat}
    {ma mb : Evaluation F} (hab : a ≤ b) (ha : CallAt (evaluations rule inputs) a ma)
    (hb : CallAt (evaluations rule inputs) b mb) : ma.event.2 ≤ mb.event.2 := by
  rcases Nat.lt_or_eq_of_le hab with hlt | rfl
  · have ea : (inputs.map Prod.snd)[a]? = some ma.event.2 := by simp [trace_event ha]
    have eb : (inputs.map Prod.snd)[b]? = some mb.event.2 := by simp [trace_event hb]
    obtain ⟨la, ra⟩ := List.getElem?_eq_some_iff.mp ea
    obtain ⟨lb, rb⟩ := List.getElem?_eq_some_iff.mp eb
    rw [← ra, ← rb]
    exact List.pairwise_iff_getElem.mp hnow a b la lb hlt
  · obtain rfl := CallAt.unique ha hb
    exact Int.le_refl _

/-- A delay found before evaluation `n` started at a known-false evaluation, and every one since
then was known false. -/
theorem clearSince_held (hm : CallAt (evaluations rule inputs) n m) {t : Datetime}
    (ht : m.before.clearSince = some t) :
    ∃ i mi, i < n ∧ CallAt (evaluations rule inputs) i mi ∧ mi.event.2 = t ∧
      HeldOver (evaluations rule inputs) (KnownFalse rule) i n :=
  timer_held (fun state => state.clearSince) (KnownFalse rule) (fun m t => m.event.2 = t) rfl
    (fun _ _ h _ ht => clearSince_step h ht) hm ht

/-- The delay of an open episode is at least as old as any unbroken known-false stretch. -/
theorem clearSince_le (hclear : rule.clearActions ≠ [])
    (hnow : (inputs.map Prod.snd).Pairwise (· ≤ ·)) {i j : Nat} {mi mj : Evaluation F}
    (hij : i ≤ j) (hi : CallAt (evaluations rule inputs) i mi)
    (hj : CallAt (evaluations rule inputs) j mj)
    (hopen : EpisodeOpen (evaluations rule inputs) j)
    (hheld : HeldOver (evaluations rule inputs) (KnownFalse rule) i (j + 1)) :
    mj.before.clearSince.getD mj.event.2 ≤ mi.event.2 := by
  -- a stamp found at `i`, or set there, is no later than `i`
  have hstart : mi.before.clearSince.getD mi.event.2 ≤ mi.event.2 := by
    cases hs : mi.before.clearSince with
    | none => exact Int.le_refl _
    | some t =>
      obtain ⟨k, mk, hki, hk, rfl, -⟩ := clearSince_held hi hs
      exact now_mono hnow (Nat.le_of_lt hki) hk hi
  rcases Nat.lt_or_eq_of_le hij with hlt | rfl
  · -- the fire that opened the episode lies before the stretch, so the stretch is inside it
    obtain ⟨f, mf, hfj, hf, hfires, hnoclear⟩ := hopen
    have hfi : f < i := by
      by_contra hge
      exact not_knownFalse_of_fires hf hfires (hheld f mf (by omega) (by omega) hf)
    have hinside : ∀ k mk, i ≤ k → k < j → CallAt (evaluations rule inputs) k mk →
        mk.before.active = true ∧ ¬ Clears mk := fun k mk h1 h2 hk =>
      ⟨(active_iff_open hclear hk).mpr
        ⟨f, mf, by omega, hf, hfires, fun k' mk' h3 h4 => hnoclear k' mk' h3 (by omega)⟩,
       hnoclear k mk (by omega) h2 hk⟩
    have hset : mi.after.clearSince = some (mi.before.clearSince.getD mi.event.2) :=
      clearSince_of_knownFalse hclear hi (hinside i mi (Nat.le_refl i) hlt hi).1
        (hheld i mi (Nat.le_refl i) (by omega) hi) (hinside i mi (Nat.le_refl i) hlt hi).2
    have hkept : mj.before.clearSince = some (mi.before.clearSince.getD mi.event.2) :=
      timer_stays (fun state => state.clearSince)
        (fun m => m.before.active = true ∧ KnownFalse rule m ∧ ¬ Clears m)
        (fun k mk hk ⟨ha, hf, hno⟩ t ht => by
          rw [clearSince_of_knownFalse hclear hk ha hf hno, ht, Option.getD_some])
        hi hset hlt
        (fun k mk h1 h2 hk =>
          ⟨(hinside k mk (by omega) h2 hk).1, hheld k mk (by omega) (by omega) hk,
           (hinside k mk (by omega) h2 hk).2⟩) hj
    rw [hkept, Option.getD_some]
    exact hstart
  · obtain rfl := CallAt.unique hi hj
    exact hstart

/-- **The on-clear protocol.** For a rule with clear actions, evaluated on any snapshots
with clocks that do not run backwards:

1. every clear has a fire before it, with no other clear in between;
2. an evaluation clears exactly when the episode is open and, since the last fire, the tree has
   been known false without a break for `clear_for_duration`;
3. in every state reached, the delay runs only inside an episode. -/
theorem clear_protocol (rule : Rule F)
    (hclear : rule.clearActions ≠ []) (inputs : List (MetricSnapshot F × Datetime))
    (hnow : (inputs.map Prod.snd).Pairwise (· ≤ ·)) :
    (∀ j mj, CallAt (evaluations rule inputs) j mj → Clears mj →
      EpisodeOpen (evaluations rule inputs) j) ∧
    (∀ j mj, CallAt (evaluations rule inputs) j mj →
      (Clears mj ↔ EpisodeOpen (evaluations rule inputs) j ∧
        ∃ i mi, i ≤ j ∧ CallAt (evaluations rule inputs) i mi ∧
          (∀ f mf, f ≤ j → CallAt (evaluations rule inputs) f mf → Fires mf → f < i) ∧
          HeldOver (evaluations rule inputs) (KnownFalse rule) i (j + 1) ∧
          seconds rule.executionPolicy.clearForDuration ≤ elapsed mj.event.2 mi.event.2)) ∧
    (let state := finalState (fun state input => evaluate rule input.1 input.2 state) {} inputs
     state.clearSince.isSome = true → state.active = true) := by
  refine ⟨fun j mj hj hc => ?_, fun j mj hj => ⟨fun hc => ?_, ?_⟩, ?_⟩
  · exact (active_iff_open hclear hj).mp ((clears_iff hclear hj).mp hc).1
  · obtain ⟨ha, hf, hdone⟩ := (clears_iff hclear hj).mp hc
    refine ⟨(active_iff_open hclear hj).mp ha, ?_⟩
    -- no fire inside a known-false stretch
    have hafter : ∀ i, HeldOver (evaluations rule inputs) (KnownFalse rule) i (j + 1) →
        ∀ f mf, f ≤ j → CallAt (evaluations rule inputs) f mf → Fires mf → f < i := by
      intro i hheld f mf hfj hcf hfires
      by_contra hge
      exact not_knownFalse_of_fires hcf hfires (hheld f mf (by omega) (by omega) hcf)
    unfold ClearComplete at hdone
    cases hs : mj.before.clearSince with
    | none =>
      rw [hs, Option.getD_none] at hdone
      have hheld := HeldOver.single hj hf
      exact ⟨j, mj, Nat.le_refl j, hj, hafter j hheld, hheld, hdone⟩
    | some t =>
      rw [hs, Option.getD_some] at hdone
      obtain ⟨i, mi, hij, hi, rfl, hheld⟩ := clearSince_held hj hs
      have hheld' := hheld.succ hj hf
      exact ⟨i, mi, by omega, hi, hafter i hheld', hheld', hdone⟩
  · rintro ⟨hopen, i, mi, hij, hi, -, hheld, hlong⟩
    have hle := clearSince_le hclear hnow hij hi hj hopen hheld
    refine (clears_iff hclear hj).mpr
      ⟨(active_iff_open hclear hj).mpr hopen, hheld j mj hij (by omega) hj, ?_⟩
    exact Int.le_trans hlong (Int.sub_le_sub_left hle mj.event.2)
  · exact finalState_invariant
      (I := fun state : RuleState => state.clearSince.isSome = true → state.active = true)
      (clearSince_idle rfl) fun _ (input : MetricSnapshot F × Datetime) _ =>
        clearSince_active input.1 input.2

end

/-- The thermostat with something to undo. -/
def clearingThermostat : Rule Int :=
  { thermostat with
    clearActions := [.actuatorCommand (some "device") "fan" (.bool false)]
    executionPolicy := { clearForDuration := 0 } }

/-- Fired at 35, clear at 25: the clear has its fire. -/
theorem clear_protocol_thermostat :
    EpisodeOpen (evaluations clearingThermostat [(reading 35 0, 0), (reading 25 1, 1)]) 1 :=
  (clear_protocol clearingThermostat (by simp [clearingThermostat]) _
    (by decide)).1 1 _ rfl ⟨⟨"thermostat", .clear⟩, by decide +kernel, rfl⟩

end IotSaas.Rules
