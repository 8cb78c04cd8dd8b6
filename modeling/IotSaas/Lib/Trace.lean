import Mathlib.Data.List.Basic

/-!
# `Lib/Trace.lean` — runs with their history

A deterministic machine `step : σ → ε → ω × σ` fed a list of events. `trace` keeps what a
theorem about *histories* has to talk about: for every call the state before it, the event, what
came out, and the state after. Positions are plain numbers, so "between call `i` and call `j`" is
`i < k ∧ k < j` and nothing more.

Three shapes of fact about such histories recur, and each is proved here once:

* **a gate** (`exists_opening`): something that closes behind every passage and opens only for
  a reason. Between two passages there is a reason.
* **a flag** (`flag_iff_since`): set by one kind of call, cleared by another. The flag is up
  exactly when the last such call was a setting one — the past-time operator `Since`.
* **a hold timer** (`timer_held`, `timer_stays`): a stamp that survives a call only if the call
  keeps the hold. A running timer names the call that started it, and everything since kept it.

Nothing here knows what the machine is.
-/

set_option autoImplicit false

namespace IotSaas.Lib

/-- One call of a run: the state it found, the event, the answer, the state it left. -/
structure Moment (σ ε ω : Type*) where
  before : σ
  event : ε
  out : ω
  after : σ

section

variable {σ ε ω : Type*}

/-- The call that `step` makes of event `e` in state `s`. -/
def moment (step : σ → ε → ω × σ) (s : σ) (e : ε) : Moment σ ε ω :=
  ⟨s, e, (step s e).1, (step s e).2⟩

/-- The history of the run of `events` from `s`, in call order. -/
def trace (step : σ → ε → ω × σ) : σ → List ε → List (Moment σ ε ω)
  | _, [] => []
  | s, e :: rest => moment step s e :: trace step (step s e).2 rest

/-- Call number `n` of the history `tr` is `m`. -/
abbrev CallAt (tr : List (Moment σ ε ω)) (n : Nat) (m : Moment σ ε ω) : Prop :=
  tr[n]? = some m

/-- The state a run ends in. -/
def finalState (step : σ → ε → ω × σ) : σ → List ε → σ
  | s, [] => s
  | s, e :: rest => finalState step (step s e).2 rest

variable {step : σ → ε → ω × σ} {s : σ} {events : List ε}

@[simp] theorem moment_before (s : σ) (e : ε) : (moment step s e).before = s := rfl
@[simp] theorem moment_event (s : σ) (e : ε) : (moment step s e).event = e := rfl
@[simp] theorem moment_out (s : σ) (e : ε) : (moment step s e).out = (step s e).1 := rfl
@[simp] theorem moment_after (s : σ) (e : ε) : (moment step s e).after = (step s e).2 := rfl

variable {n : Nat} {m : Moment σ ε ω}

@[simp] theorem callAt_nil : ¬ CallAt [] n m := by
  simp [CallAt]

variable {tr : List (Moment σ ε ω)}

@[simp] theorem callAt_cons_zero {m m' : Moment σ ε ω} :
    CallAt (m' :: tr) 0 m ↔ m' = m := by
  simp [CallAt]

@[simp] theorem callAt_cons_succ {m m' : Moment σ ε ω} :
    CallAt (m' :: tr) (n + 1) m ↔ CallAt tr n m := by
  simp [CallAt]

theorem CallAt.unique {m m' : Moment σ ε ω} (h : CallAt tr n m) (h' : CallAt tr n m') : m = m' :=
  Option.some.inj (h.symm.trans h')

theorem trace_event (h : CallAt (trace step s events) n m) : events[n]? = some m.event := by
  induction events generalizing s n with
  | nil => simp [trace] at h
  | cons e rest ih =>
    cases n with
    | zero =>
      obtain rfl := callAt_cons_zero.mp h
      rfl
    | succ n => exact ih (callAt_cons_succ.mp h)

/-- Every entry of a history is a call of `step`. -/
theorem trace_moment (h : CallAt (trace step s events) n m) : m = moment step m.before m.event := by
  induction events generalizing s n with
  | nil => simp [trace] at h
  | cons e rest ih =>
    cases n with
    | zero =>
      obtain rfl := callAt_cons_zero.mp h
      rfl
    | succ n => exact ih (callAt_cons_succ.mp h)

/-- The first call finds the initial state. -/
theorem trace_zero (h : CallAt (trace step s events) 0 m) :
    m.before = s := by
  cases events with
  | nil => simp [trace] at h
  | cons e rest =>
    obtain rfl := callAt_cons_zero.mp h
    rfl

/-- Every later call finds the state the call before it left. -/
theorem trace_succ (h : CallAt (trace step s events) (n + 1) m) :
    ∃ m', CallAt (trace step s events) n m' ∧ m.before = m'.after := by
  induction events generalizing s n with
  | nil => simp [trace] at h
  | cons e rest ih =>
    have h' : CallAt (trace step (step s e).2 rest) n m := callAt_cons_succ.mp h
    cases n with
    | zero => exact ⟨moment step s e, by simp [trace], trace_zero h'⟩
    | succ n =>
      obtain ⟨m', hm', hb⟩ := ih h'
      exact ⟨m', by simpa [trace] using hm', hb⟩

/-! ## The run rule -/

/-- **Invariants of a run, indexed by the call.** What holds at the start and is carried by
every call holds before every call. -/
theorem trace_invariant {I : Nat → σ → Prop} (h0 : I 0 s)
    (hstep : ∀ n m, CallAt (trace step s events) n m → I n m.before → I (n + 1) m.after) :
    ∀ n m, CallAt (trace step s events) n m → I n m.before := by
  intro n
  induction n with
  | zero =>
    intro m hm
    rw [trace_zero hm]
    exact h0
  | succ n ih =>
    intro m hm
    obtain ⟨m', hm', hb⟩ := trace_succ hm
    rw [hb]
    exact hstep n m' hm' (ih m' hm')

/-- The same for the state a run ends in, when the invariant does not name the call. -/
theorem finalState_invariant {I : σ → Prop} (h0 : I s)
    (hstep : ∀ s e, I s → I (step s e).2) : I (finalState step s events) := by
  induction events generalizing s with
  | nil => exact h0
  | cons e rest ih => exact ih (hstep s e h0)

/-- Of the calls before `j` with a property, one is the last. -/
theorem exists_last (P : Moment σ ε ω → Prop) {i j : Nat} {mi : Moment σ ε ω} (hij : i < j)
    (hi : CallAt tr i mi) (hp : P mi) :
    ∃ k mk, i ≤ k ∧ k < j ∧ CallAt tr k mk ∧ P mk ∧
      ∀ l ml, k < l → l < j → CallAt tr l ml → ¬ P ml := by
  induction j with
  | zero => omega
  | succ j ih =>
    by_cases hlast : ∃ m, CallAt tr j m ∧ P m
    · obtain ⟨m, hm, hpm⟩ := hlast
      exact ⟨j, m, by omega, by omega, hm, hpm, fun l _ h1 h2 => absurd h2 (by omega)⟩
    · have hlt : i < j := by
        by_contra hge
        obtain rfl : i = j := by omega
        exact hlast ⟨mi, hi, hp⟩
      obtain ⟨k, mk, hik, hkj, hk, hpk, hno⟩ := ih hlt
      refine ⟨k, mk, hik, by omega, hk, hpk, fun l ml h1 h2 hl hpl => ?_⟩
      by_cases hlj : l = j
      · subst hlj
        exact hlast ⟨ml, hl, hpl⟩
      · exact hno l ml h1 (by omega) hl hpl

/-! ## Gates -/

/-- **Between two passages the gate was opened.** `blocked` is what a passage leaves behind;
a call that does not open the gate keeps it blocked and does not pass. The opening call may be
the second passage itself. -/
theorem exists_opening (blocked : σ → Prop) (opens passes : Moment σ ε ω → Prop)
    (hclose : ∀ n m, CallAt (trace step s events) n m → passes m → blocked m.after)
    (hkeep : ∀ n m, CallAt (trace step s events) n m → blocked m.before → ¬ opens m →
      blocked m.after ∧ ¬ passes m)
    {i j : Nat} {mi mj : Moment σ ε ω} (hij : i < j)
    (hi : CallAt (trace step s events) i mi) (hpi : passes mi)
    (hj : CallAt (trace step s events) j mj) (hpj : passes mj) :
    ∃ k mk, i < k ∧ k ≤ j ∧ CallAt (trace step s events) k mk ∧ opens mk := by
  by_contra hnone
  have hblocked : ∀ n m, CallAt (trace step s events) n m →
      (i < n → n ≤ j → blocked m.before) := by
    refine trace_invariant (I := fun n st => i < n → n ≤ j → blocked st)
      (fun h => absurd h (by omega)) (fun n m hm ih hlt hle => ?_)
    by_cases hni : n = i
    · subst hni
      obtain rfl := CallAt.unique hi hm
      exact hclose _ _ hi hpi
    · refine (hkeep n m hm (ih (by omega) (by omega)) fun ho => hnone ?_).1
      exact ⟨n, m, by omega, by omega, hm, ho⟩
  refine (hkeep j mj hj (hblocked j mj hj hij (Nat.le_refl j)) fun ho => hnone ?_).2 hpj
  exact ⟨j, mj, hij, Nat.le_refl j, hj, ho⟩

/-! ## Flags -/

/-- `sets` happened before call `n`, and nothing between it and `n` was a `clears`. -/
def Since (tr : List (Moment σ ε ω)) (sets clears : Moment σ ε ω → Prop) (n : Nat) : Prop :=
  ∃ i mi, i < n ∧ CallAt tr i mi ∧ sets mi ∧
    ∀ k mk, i < k → k < n → CallAt tr k mk → ¬ clears mk

theorem not_since_zero {sets clears : Moment σ ε ω → Prop} :
    ¬ Since tr sets clears 0 := by
  rintro ⟨i, _, hi, _⟩
  omega

theorem since_succ {sets clears : Moment σ ε ω → Prop} (hm : CallAt tr n m) :
    Since tr sets clears (n + 1) ↔ sets m ∨ Since tr sets clears n ∧ ¬ clears m := by
  constructor
  · rintro ⟨i, mi, hin, hi, hs, hno⟩
    by_cases h : i = n
    · subst h
      obtain rfl := CallAt.unique hm hi
      exact Or.inl hs
    · exact Or.inr ⟨⟨i, mi, by omega, hi, hs, fun k mk h1 h2 => hno k mk h1 (by omega)⟩,
        hno n m (by omega) (by omega) hm⟩
  · rintro (hs | ⟨⟨i, mi, hin, hi, hs, hno⟩, hc⟩)
    · exact ⟨n, m, by omega, hm, hs, fun k _ h1 h2 => absurd h2 (by omega)⟩
    · refine ⟨i, mi, by omega, hi, hs, fun k mk h1 h2 hk => ?_⟩
      by_cases h : k = n
      · subst h
        obtain rfl := CallAt.unique hm hk
        exact hc
      · exact hno k mk h1 (by omega) hk

/-- **A flag is up exactly while its setting is the last word.** -/
theorem flag_iff_since (flag : σ → Prop) (sets clears : Moment σ ε ω → Prop)
    (h0 : ¬ flag s)
    (hstep : ∀ n m, CallAt (trace step s events) n m →
      (flag m.after ↔ sets m ∨ flag m.before ∧ ¬ clears m))
    {n : Nat} {m : Moment σ ε ω} (hm : CallAt (trace step s events) n m) :
    flag m.before ↔ Since (trace step s events) sets clears n := by
  refine trace_invariant (I := fun n st => flag st ↔ Since (trace step s events) sets clears n)
    ?_ (fun n m hm ih => ?_) n m hm
  · exact iff_of_false h0 not_since_zero
  · rw [hstep n m hm, since_succ hm, ih]

/-! ## Hold timers -/

/-- Every call from `i` up to (not including) `n` satisfies `keeps`. -/
def HeldOver (tr : List (Moment σ ε ω)) (keeps : Moment σ ε ω → Prop) (i n : Nat) : Prop :=
  ∀ k mk, i ≤ k → k < n → CallAt tr k mk → keeps mk

theorem HeldOver.succ {keeps : Moment σ ε ω → Prop} {i n : Nat} (hm : CallAt tr n m) (hk : keeps m)
    (h : HeldOver tr keeps i n) :
    HeldOver tr keeps i (n + 1) := by
  intro k mk h1 h2 hmk
  by_cases hkn : k = n
  · subst hkn
    obtain rfl := CallAt.unique hm hmk
    exact hk
  · exact h k mk h1 (by omega) hmk

theorem HeldOver.single {keeps : Moment σ ε ω → Prop} (hm : CallAt tr n m) (hk : keeps m) :
    HeldOver tr keeps n (n + 1) :=
  HeldOver.succ hm hk fun _ _ h1 h2 => absurd h2 (by omega)

/-- **A running timer names its start.** If a stamp is only ever set by a starting call, and
only survives calls that keep the hold, then a stamp found before call `n` was set by an earlier
call, and every call from that one on kept the hold. -/
theorem timer_held {T : Type*} (stamp : σ → Option T) (keeps : Moment σ ε ω → Prop)
    (starts : Moment σ ε ω → T → Prop) (h0 : stamp s = none)
    (hstep : ∀ n m, CallAt (trace step s events) n m → ∀ t, stamp m.after = some t →
      keeps m ∧ (stamp m.before = some t ∨ starts m t))
    {n : Nat} {m : Moment σ ε ω} (hm : CallAt (trace step s events) n m) {t : T}
    (ht : stamp m.before = some t) :
    ∃ i mi, i < n ∧ CallAt (trace step s events) i mi ∧ starts mi t ∧
      HeldOver (trace step s events) keeps i n := by
  refine trace_invariant (I := fun n st => ∀ t, stamp st = some t →
    ∃ i mi, i < n ∧ CallAt (trace step s events) i mi ∧ starts mi t ∧
      HeldOver (trace step s events) keeps i n) ?_ (fun n m hm ih t ht => ?_) n m hm t ht
  · intro t ht
    rw [h0] at ht
    cases ht
  · obtain ⟨hk, hold | hnew⟩ := hstep n m hm t ht
    · obtain ⟨i, mi, hin, hi, hs, hheld⟩ := ih t hold
      exact ⟨i, mi, by omega, hi, hs, hheld.succ hm hk⟩
    · exact ⟨n, m, by omega, hm, hnew, HeldOver.single hm hk⟩

/-- **A stamp stays while every later call keeps it.** -/
theorem timer_stays {T : Type*} (stamp : σ → Option T) (keeps : Moment σ ε ω → Prop)
    (hstep : ∀ n m, CallAt (trace step s events) n m → keeps m → ∀ t,
      stamp m.before = some t → stamp m.after = some t)
    {i : Nat} {mi : Moment σ ε ω} (hi : CallAt (trace step s events) i mi) {t : T}
    (ht : stamp mi.after = some t) (hin : i < n)
    (hheld : HeldOver (trace step s events) keeps (i + 1) n)
    (hm : CallAt (trace step s events) n m) : stamp m.before = some t := by
  refine trace_invariant (I := fun k st => i < k → k ≤ n → stamp st = some t)
    (fun h => absurd h (by omega)) (fun k mk hk ih hlt hle => ?_) n m hm hin (Nat.le_refl n)
  by_cases hki : k = i
  · subst hki
    obtain rfl := CallAt.unique hi hk
    exact ht
  · exact hstep k mk hk (hheld k mk (by omega) (by omega) hk) t (ih (by omega) (by omega))

/-! ## Two machines -/

/-- What a run answers, call by call. -/
def answers (step : σ → ε → ω × σ) : σ → List ε → List ω
  | _, [] => []
  | s, e :: rest => (step s e).1 :: answers step (step s e).2 rest

variable {τ : Type*} {step' : τ → ε → ω × τ}

/-- Over the events that are `ok`, related states answer alike and stay related. -/
structure Simulates (R : σ → τ → Prop) (ok : ε → Prop) (step : σ → ε → ω × σ)
    (step' : τ → ε → ω × τ) : Prop where
  answer : ∀ s t e, R s t → ok e → (step s e).1 = (step' t e).1
  next : ∀ s t e, R s t → ok e → R (step s e).2 (step' t e).2

/-- **Related machines answer alike**, call by call. -/
theorem Simulates.answers {R : σ → τ → Prop} {ok : ε → Prop} (h : Simulates R ok step step')
    {t : τ} (hrel : R s t) (hok : ∀ e ∈ events, ok e) :
    answers step s events = answers step' t events := by
  induction events generalizing s t with
  | nil => rfl
  | cons e rest ih =>
    have he := hok e List.mem_cons_self
    have hrest := ih (h.next s t e hrel he) fun e' he' => hok e' (List.mem_cons_of_mem e he')
    simp only [Lib.answers, h.answer s t e hrel he, hrest]

end

end IotSaas.Lib
