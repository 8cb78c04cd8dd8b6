import Mathlib.Data.List.Basic

/-!
# `Lib/Reach.lean` — reachable states, under a condition on the steps

A machine `step : σ → ε → Option σ` answers `none` to an event that is not enabled. `Reaches step
Ok s₀ s` says that some run from `s₀` ends in `s`, all of its steps enabled and each meeting `Ok` in
the state it is taken in. With `Ok` always true that is plain reachability; with a narrower `Ok` it
is what remains of a system when some steps are ruled out, which is how a property that fails in
general is stated for the runs it does hold of.

`Reaches.invariant` is the one induction on runs; `Reaches.of_run` turns an evaluated run into a
reachable state.
-/

set_option autoImplicit false

namespace IotSaas.Lib

section

variable {σ ε : Type*}

/-- `s` is reached from `s₀` by enabled steps that each meet `Ok`. -/
inductive Reaches (step : σ → ε → Option σ) (Ok : σ → ε → Prop) (s₀ : σ) : σ → Prop
  | start : Reaches step Ok s₀ s₀
  | next {s s' : σ} {e : ε} (h : Reaches step Ok s₀ s) (ok : Ok s e)
      (enabled : step s e = some s') : Reaches step Ok s₀ s'

/-- The condition every step meets. -/
def Always (_ : σ) (_ : ε) : Prop := True

/-- The run of a list of events, `none` if one of them is not enabled. -/
def run (step : σ → ε → Option σ) : σ → List ε → Option σ
  | s, [] => some s
  | s, e :: rest =>
      match step s e with
      | none => none
      | some s' => run step s' rest

variable {step : σ → ε → Option σ} {Ok : σ → ε → Prop} {s₀ s : σ}

/-- **The run rule.** What holds at the start and is kept by every step that meets `Ok` holds in
every state reached. -/
theorem Reaches.invariant {I : σ → Prop} (h : Reaches step Ok s₀ s) (h0 : I s₀)
    (hstep : ∀ s e s', I s → Ok s e → step s e = some s' → I s') : I s := by
  induction h with
  | start => exact h0
  | next _ ok enabled ih => exact hstep _ _ _ ih ok enabled

variable {events : List ε}

/-- An evaluated run whose events are all fit reaches its last state. -/
theorem Reaches.of_run_of_forall {events : List ε} (h : run step s₀ events = some s)
    (hok : ∀ e ∈ events, ∀ s, Ok s e) : Reaches step Ok s₀ s := by
  have hfrom : ∀ (events : List ε) (s₁ : σ), (∀ e ∈ events, ∀ s, Ok s e) →
      Reaches step Ok s₀ s₁ → run step s₁ events = some s → Reaches step Ok s₀ s := by
    intro events
    induction events with
    | nil =>
      intro s₁ _ h₁ hr
      obtain rfl := Option.some.inj hr
      exact h₁
    | cons e rest ih =>
      intro s₁ hok h₁ hr
      unfold run at hr
      cases hs : step s₁ e with
      | none => rw [hs] at hr; cases hr
      | some s₂ =>
        rw [hs] at hr
        exact ih s₂ (fun e' he' => hok e' (List.mem_cons_of_mem _ he'))
          (.next h₁ (hok e List.mem_cons_self s₁) hs) hr
  exact hfrom events s₀ hok .start h

/-- The machine that stops at a step that is not fit. -/
def guarded (step : σ → ε → Option σ) (Ok : σ → ε → Prop) [∀ s e, Decidable (Ok s e)] (s : σ)
    (e : ε) : Option σ :=
  if Ok s e then step s e else none

/-- An evaluated run of it. -/
theorem Reaches.of_run_guarded [∀ s e, Decidable (Ok s e)]
    (h : run (guarded step Ok) s₀ events = some s) : Reaches step Ok s₀ s := by
  have hguarded : Reaches (guarded step Ok) (fun _ _ => True) s₀ s :=
    .of_run_of_forall h fun _ _ _ => trivial
  refine hguarded.invariant (I := Reaches step Ok s₀) .start ?_
  intro s e s' h _ hstep
  unfold guarded at hstep
  split at hstep
  · rename_i hok
    exact .next h hok hstep
  · cases hstep

/-- Every step of a run meets `Ok` in the state it is taken in. -/
def RunMeets (step : σ → ε → Option σ) (Ok : σ → ε → Prop) : σ → List ε → Prop
  | _, [] => True
  | s, e :: rest => Ok s e ∧ ∀ s', step s e = some s' → RunMeets step Ok s' rest

/-- What every fit step of a machine without stops keeps holds at the end of a run. -/
theorem foldl_invariant {f : σ → ε → σ} {I : σ → Prop}
    (hstep : ∀ s e, I s → Ok s e → I (f s e)) (events : List ε) {s : σ} (hs : I s)
    (hmeets : RunMeets (fun s e => some (f s e)) Ok s events) : I (events.foldl f s) := by
  induction events generalizing s with
  | nil => exact hs
  | cons e rest ih => exact ih (hstep s e hs hmeets.1) (hmeets.2 _ rfl)

/-- **A run that ends well** has met the condition all along, where a step that does not meet it
spoils the state for good. -/
theorem runMeets_of_foldl {f : σ → ε → σ} (Good : σ → Prop) (hback : ∀ s e, Good (f s e) → Good s)
    (hunfit : ∀ s e, Good (f s e) → Ok s e) {s : σ} (hend : Good (events.foldl f s)) :
    RunMeets (fun s e => some (f s e)) Ok s events := by
  have hgood : ∀ (events : List ε) (s : σ), Good (events.foldl f s) → Good s := by
    intro events
    induction events with
    | nil => exact fun s hend => hend
    | cons e rest ih => exact fun s hend => hback s e (ih _ hend)
  induction events generalizing s with
  | nil => trivial
  | cons e rest ih =>
    refine ⟨hunfit s e (hgood rest _ hend), fun s' hs' => ?_⟩
    obtain rfl := Option.some.inj hs'
    exact ih hend

/-- **A property that no unfit step keeps.** It holds all along a run exactly if every step of the
run is fit. `I` is what the fit steps keep it by. -/
theorem foldl_prefixes_iff {f : σ → ε → σ} {I P : σ → Prop} (hP : ∀ s, I s → P s)
    (hfit : ∀ s e, I s → Ok s e → I (f s e)) (hunfit : ∀ s e, I s → P (f s e) → Ok s e) {s : σ}
    (hs : I s) :
    (∀ before, before <+: events → P (before.foldl f s)) ↔
      RunMeets (fun s e => some (f s e)) Ok s events := by
  induction events generalizing s with
  | nil =>
    constructor
    · intro _
      trivial
    · intro _ before hbefore
      rw [List.prefix_nil.mp hbefore]
      exact hP s hs
  | cons e rest ih =>
    constructor
    · intro hall
      have hok : Ok s e := hunfit s e hs (hall [e] (List.prefix_append [e] rest))
      refine ⟨hok, fun s' hs' => ?_⟩
      obtain rfl := Option.some.inj hs'
      exact (ih (hfit s e hs hok)).mp fun before hbefore =>
        hall (e :: before) ((List.prefix_cons_inj e).mpr hbefore)
    · intro hmeets before hbefore
      cases before with
      | nil => exact hP s hs
      | cons e' before =>
        obtain ⟨rfl, hrest⟩ := List.cons_prefix_cons.mp hbefore
        exact (ih (hfit s e' hs hmeets.1)).mpr (hmeets.2 _ rfl) before hrest

/-- **A property that exactly the fit steps keep.** `Bad` is there to stay once a step that is not
fit has been taken, and no fit step brings it about; then a run ends well exactly if all of its
steps are fit. -/
theorem not_bad_iff_runMeets (I Bad : σ → Prop) (hI : ∀ s e s', I s → step s e = some s' → I s')
    (hstay : ∀ s e s', Bad s → step s e = some s' → Bad s')
    (hfit : ∀ s e s', I s → ¬ Bad s → Ok s e → step s e = some s' → ¬ Bad s')
    (hunfit : ∀ s e s', I s → ¬ Ok s e → step s e = some s' → Bad s') (hI₀ : I s₀) (h₀ : ¬ Bad s₀)
    (h : run step s₀ events = some s) :
    ¬ Bad s ↔ RunMeets step Ok s₀ events := by
  -- Bad once, bad to the end: so a good end had no bad state, hence no unfit step.
  have hend : ∀ (events : List ε) (s₁ : σ), Bad s₁ → run step s₁ events = some s → Bad s := by
    intro events
    induction events with
    | nil =>
      intro s₁ hbad hr
      cases hr
      exact hbad
    | cons e rest ih =>
      intro s₁ hbad hr
      unfold run at hr
      cases hs : step s₁ e with
      | none =>
        rw [hs] at hr
        cases hr
      | some s₂ =>
        rw [hs] at hr
        exact ih s₂ (hstay s₁ e s₂ hbad hs) hr
  induction events generalizing s₀ with
  | nil =>
    cases h
    exact ⟨fun _ => trivial, fun _ => h₀⟩
  | cons e rest ih =>
    unfold run at h
    cases hs : step s₀ e with
    | none =>
      rw [hs] at h
      cases h
    | some s₁ =>
      rw [hs] at h
      constructor
      · intro hgood
        have hok : Ok s₀ e := by
          by_contra hnot
          exact hgood (hend rest s₁ (hunfit s₀ e s₁ hI₀ hnot hs) h)
        refine ⟨hok, ?_⟩
        intro s' hs'
        rw [hs] at hs'
        cases hs'
        exact (ih (hI s₀ e s₁ hI₀ hs) (hfit s₀ e s₁ hI₀ h₀ hok hs) h).mp hgood
      · intro hmeets
        exact (ih (hI s₀ e s₁ hI₀ hs) (hfit s₀ e s₁ hI₀ h₀ hmeets.1 hs) h).mpr
          (hmeets.2 s₁ hs)

/-- An evaluated run reaches its last state. -/
theorem Reaches.of_run (h : run step s₀ events = some s) :
    Reaches step Always s₀ s :=
  .of_run_of_forall h fun _ _ _ => trivial

end

end IotSaas.Lib
