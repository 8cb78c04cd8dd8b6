import IotSaas.Health.Cadence

/-!
# `Health/Spacing.lean` — how far apart publications are

The board of `Health/Cadence.lean` comes by once a millisecond. Here its loop takes what time it
takes: the calls of `ioPublishMetrics` come at any times, none more than `gap` milliseconds after
the one before, for as long as one likes. A reading is there every time and every publication goes
through.

Two publications in a row are then as far apart as the template says, give or take one gap, exactly
where the interval and the gap fit into the clock together (`spaced_iff`).
-/

set_option autoImplicit false

namespace IotSaas.Health

open Lib Catalog Wiring Firmware Worker.ConfigPublish

variable {F : Type}

/-- Calls of `ioPublishMetrics`: when each comes, and what it reads. -/
structure Calls (F : Type) where
  times : ℕ → ℕ
  readings : ℕ → F

/-- The call number `n`. -/
def Calls.round (calls : Calls F) (n : ℕ) : Round F where
  now := millis (calls.times n)
  reading _ := some (calls.readings n)
  published _ := true

/-- No call comes more than `gap` after the one before. -/
def Calls.Within (calls : Calls F) (gap : ℕ) : Prop :=
  ∀ n, calls.times n ≤ calls.times (n + 1) ∧ calls.times (n + 1) ≤ calls.times n + gap

section

variable [AddGroup F] [LinearOrder F]

/-- The metric before call `n`. -/
def beforeCall (format : F → String) (calls : Calls F) (m : Reporting F) : ℕ → Reporting F
  | 0 => m
  | n + 1 => (publishMetric format (calls.round n) (beforeCall format calls m n)).2

/-- The metric is published by call `n`. -/
def PublishesAt (format : F → String) (calls : Calls F) (m : Reporting F) (n : ℕ) : Prop :=
  (publishMetric format (calls.round n) (beforeCall format calls m n)).1.isSome = true

/-- Two publications in a row are never further apart than the interval and one gap, nor closer
than the interval if they are due to the schedule. -/
def Spaced (format : F → String) (m : Reporting F) (interval : Int) (gap : ℕ) : Prop :=
  ∀ calls : Calls F, calls.Within gap → ∀ p q, p < q →
    PublishesAt format calls m p → PublishesAt format calls m q →
      (∀ n, p < n → n < q → ¬PublishesAt format calls m n) →
        (calls.times q : Int) ≤ calls.times p + interval + gap ∧
          (m.mode ≠ .onChange → calls.times p + interval ≤ (calls.times q : Int))

end

/-! ## One call -/

section

variable [AddGroup F] [LinearOrder F] {format : F → String} {calls : Calls F} {m : Reporting F}

theorem beforeCall_toMetric (n : ℕ) : (beforeCall format calls m n).toMetric = m.toMetric := by
  induction n with
  | zero => rfl
  | succ n ih => rw [beforeCall, publishMetric_toMetric, ih]

theorem publishMetric_call (hbound : m.source.isSome = true) (n : ℕ) :
    publishMetric format (calls.round n) (beforeCall format calls m n) =
      if (sendReason (beforeCall format calls m n) (millis (calls.times n))
          (calls.readings n)).isSome then
        (some ⟨(beforeCall format calls m n).topic, valuePayload (format (calls.readings n))⟩,
          (beforeCall format calls m n).sent (millis (calls.times n)) (calls.readings n))
      else (none, beforeCall format calls m n) := by
  apply publishMetric_due
  · rw [beforeCall_toMetric]
    exact hbound
  · rfl
  · rfl

theorem publishesAt_iff (hbound : m.source.isSome = true) (n : ℕ) :
    PublishesAt format calls m n ↔ (sendReason (beforeCall format calls m n)
      (millis (calls.times n)) (calls.readings n)).isSome = true := by
  unfold PublishesAt
  rw [publishMetric_call hbound]
  split
  · rename_i hsome
    simp [hsome]
  · rename_i hnone
    simp [hnone]

/-- After a publication, and until the next one, it is remembered. -/
theorem beforeCall_between (hbound : m.source.isSome = true) {p : ℕ}
    (hp : PublishesAt format calls m p) (k : ℕ)
    (hquiet : ∀ n, p < n → n < p + 1 + k → ¬PublishesAt format calls m n) :
    beforeCall format calls m (p + 1 + k) =
      (beforeCall format calls m p).sent (millis (calls.times p)) (calls.readings p) := by
  induction k with
  | zero =>
    rw [publishesAt_iff hbound] at hp
    rw [Nat.add_zero, beforeCall, publishMetric_call hbound, if_pos hp]
  | succ k ih =>
    have hnot := hquiet (p + 1 + k) (by omega) (by omega)
    rw [publishesAt_iff hbound] at hnot
    rw [← Nat.add_assoc, beforeCall, publishMetric_call hbound, if_neg hnot]
    exact ih fun n hpn hn => hquiet n hpn (by omega)

/-- What a later call finds of the last publication. -/
theorem lastPublished (hbound : m.source.isSome = true) {p n : ℕ} (hpn : p < n)
    (hp : PublishesAt format calls m p)
    (hquiet : ∀ k, p < k → k < n → ¬PublishesAt format calls m k) :
    beforeCall format calls m n =
      (beforeCall format calls m p).sent (millis (calls.times p)) (calls.readings p) := by
  obtain ⟨k, rfl⟩ : ∃ k, n = p + 1 + k := ⟨n - (p + 1), by omega⟩
  exact beforeCall_between hbound hp k hquiet

omit [AddGroup F] [LinearOrder F] in
theorem Calls.Within.mono {gap : ℕ} (h : calls.Within gap) {p n : ℕ} (hpn : p ≤ n) :
    calls.times p ≤ calls.times n := by
  induction n, hpn using Nat.le_induction with
  | base => exact le_rfl
  | succ n _ ih => exact ih.trans (h n).1

/-! ## Intervals that fit -/

/-- The silence since a publication is shorter than the interval. -/
theorem silence_lt (hbound : m.source.isSome = true) {gap : ℕ} (hpos : 1 ≤ m.intervalMs)
    (hfits : m.intervalMs + gap ≤ 2 ^ 32) (hwithin : calls.Within gap) {p : ℕ}
    (hp : PublishesAt format calls m p) {n : ℕ} (hpn : p ≤ n)
    (hquiet : ∀ k, p < k → k ≤ n → ¬PublishesAt format calls m k) :
    (calls.times n : Int) < calls.times p + m.intervalMs := by
  induction n, hpn using Nat.le_induction with
  | base => omega
  | succ n hpn ih =>
    have hbefore := ih fun k hpk hk => hquiet k hpk (by omega)
    have hgap := (hwithin n).2
    have hle : (calls.times p : Int) ≤ calls.times (n + 1) := by
      exact_mod_cast hwithin.mono (show p ≤ n + 1 by omega)
    have hnot := hquiet (n + 1) (by omega) le_rfl
    rw [publishesAt_iff hbound, lastPublished hbound (by omega) hp fun k hpk hk =>
      hquiet k hpk (by omega)] at hnot
    by_contra hlong
    apply hnot
    apply sendReason_of_interval
    -- one gap past the last call the clock has not come round
    rw [Reporting.sent_toMetric, Reporting.sent_lastPublishMs, beforeCall_toMetric, millis, millis,
      sinceLast_wrapped, sinceLast_eq hle (by omega)]
    omega

/-- **Intervals that fit.** -/
theorem spaced_of_fits (hbound : m.source.isSome = true) {gap : ℕ} (hpos : 1 ≤ m.intervalMs)
    (hfits : m.intervalMs + gap ≤ 2 ^ 32) : Spaced format m m.intervalMs gap := by
  intro calls hwithin p q hpq hp hq hquiet
  constructor
  · obtain ⟨n, rfl⟩ : ∃ n, q = n + 1 := ⟨q - 1, by omega⟩
    have hsilence := silence_lt hbound hpos hfits hwithin hp (show p ≤ n by omega)
      fun k hpk hk => hquiet k hpk (by omega)
    have hgap := (hwithin n).2
    omega
  · intro hmode
    rw [publishesAt_iff hbound, lastPublished hbound hpq hp hquiet] at hq
    have hwait := interval_of_sendReason (Reporting.sent_lastValue _ _ _)
      (.inl (by rw [Reporting.sent_toMetric, beforeCall_toMetric]; exact hmode)) hq
    rw [Reporting.sent_toMetric, Reporting.sent_lastPublishMs, beforeCall_toMetric, millis, millis,
      sinceLast_wrapped] at hwait
    have hle : (calls.times p : Int) ≤ calls.times q := by
      exact_mod_cast hwithin.mono hpq.le
    have hreal := sinceLast_le hle
    omega

end

/-! ## Intervals that do not -/

/-- A loop that looks away while the clock comes round: it comes by every millisecond as long as the
time since 0 looks shorter than the interval, and then once it does again. From `limit` on it comes
by every millisecond. -/
def evading (interval limit : ℕ) : ℕ → ℕ
  | 0 => 0
  | n + 1 =>
      let t := evading interval limit n
      if (t + 1) % 2 ^ 32 < interval ∨ limit ≤ t + 1 then t + 1 else (t / 2 ^ 32 + 1) * 2 ^ 32

section

variable {interval limit : ℕ}

theorem evading_mod (limit : ℕ) (hpos : 1 ≤ interval) (n : ℕ) :
    evading interval limit n % 2 ^ 32 < interval ∨ limit ≤ evading interval limit n := by
  cases n with
  | zero =>
    left
    exact hpos
  | succ n =>
    rw [evading]
    split
    · assumption
    · left
      rw [Nat.mul_mod_left]
      exact hpos

theorem evading_step (limit : ℕ) (hpos : 1 ≤ interval) (hlt : interval < 2 ^ 32) (n : ℕ) :
    evading interval limit n < evading interval limit (n + 1) ∧
      evading interval limit (n + 1) ≤ evading interval limit n + (2 ^ 32 + 1 - interval) := by
  have hmod := evading_mod limit hpos n
  rw [evading]
  split
  · omega
  · omega

theorem le_evading (limit : ℕ) (hpos : 1 ≤ interval) (hlt : interval < 2 ^ 32) (n : ℕ) :
    n ≤ evading interval limit n := by
  induction n with
  | zero => exact Nat.zero_le _
  | succ n ih => exact Nat.succ_le_of_lt (ih.trans_lt (evading_step limit hpos hlt n).1)

/-- Past the limit nothing is left out. -/
theorem evading_add {n : ℕ} (h : limit ≤ evading interval limit n) (k : ℕ) :
    evading interval limit (n + k) = evading interval limit n + k := by
  induction k with
  | zero => rfl
  | succ k ih =>
    rw [← Nat.add_assoc, evading, ih, if_pos (.inr (by omega))]
    omega

end

section

variable [AddGroup F] [LinearOrder F] {format : F → String} {m : Reporting F}

/-- The evading loop, of a reading that never changes. -/
def evadingCalls (interval gap : ℕ) : Calls F where
  times := evading interval (gap * 2 ^ 32)
  readings _ := 0

/-- **Intervals that do not fit**: the loop that looks away publishes too late. -/
theorem fits_of_spaced (hbound : m.source.isSome = true) (hdeadband : 0 ≤ m.deadband)
    (hnew : m.lastValue = none) {interval gap : ℕ} (hpos : 1 ≤ interval)
    (hlt : interval < 2 ^ 32) (hms : m.intervalMs = interval)
    (h : Spaced format m interval gap) : interval + gap ≤ 2 ^ 32 := by
  classical
  by_contra hlong
  let calls : Calls F := evadingCalls interval gap
  have hwithin : calls.Within gap := fun n => by
    have hstep := evading_step (gap * 2 ^ 32) hpos hlt n
    refine ⟨hstep.1.le, hstep.2.trans ?_⟩
    show evading interval (gap * 2 ^ 32) n + (2 ^ 32 + 1 - interval) ≤
      evading interval (gap * 2 ^ 32) n + gap
    omega
  have hfirst : PublishesAt format calls m 0 := by
    rw [publishesAt_iff hbound]
    simp [beforeCall, sendReason, hnew]
  have hzero : |(0 : F)| = 0 := by simp [abs]
  have hsame : m.changed 0 0 = false := by simp [Reporting.changed, hzero, hdeadband]
  -- when the first publication after that is due
  have hdue : ∀ n, 0 < n → (∀ k, 0 < k → k < n → ¬PublishesAt format calls m k) →
      (PublishesAt format calls m n ↔ interval ≤ calls.times n % 2 ^ 32) := by
    intro n hn hquiet
    have hbefore := lastPublished hbound hn hfirst hquiet
    have hsince : sinceLast (millis (calls.times n)) (millis (calls.times 0)) =
        ((calls.times n % 2 ^ 32 : ℕ) : Int) := by
      have hstart : calls.times 0 = 0 := rfl
      rw [millis, millis, sinceLast_wrapped, sinceLast, hstart]
      push_cast
      rw [sub_zero]
    rw [publishesAt_iff hbound, hbefore]
    constructor
    · intro hsome
      have hwait : m.intervalMs ≤ sinceLast (millis (calls.times n)) (millis (calls.times 0)) :=
        interval_of_sendReason (Reporting.sent_lastValue _ _ _) (.inr hsame) hsome
      omega
    · intro hle
      apply sendReason_of_interval
      show m.intervalMs ≤ sinceLast (millis (calls.times n)) (millis (calls.times 0))
      omega
  have hsome : ∃ n, 0 < n ∧ PublishesAt format calls m n := by
    by_contra hnone
    have hnever : ∀ n, 0 < n → ¬PublishesAt format calls m n :=
      fun n hn hpub => hnone ⟨n, hn, hpub⟩
    -- past the limit the loop meets every millisecond, the one the publication is due at as well
    have hpast := le_evading (gap * 2 ^ 32) hpos hlt (gap * 2 ^ 32)
    let k := interval + 2 ^ 32 - evading interval (gap * 2 ^ 32) (gap * 2 ^ 32) % 2 ^ 32
    have hk : 0 < gap * 2 ^ 32 + k := by omega
    apply hnever _ hk
    rw [hdue _ hk fun n hn _ => hnever n hn]
    show interval ≤ evading interval (gap * 2 ^ 32) (gap * 2 ^ 32 + k) % 2 ^ 32
    rw [evading_add hpast]
    omega
  obtain ⟨hq0, hq⟩ := Nat.find_spec hsome
  have hquiet : ∀ k, 0 < k → k < Nat.find hsome → ¬PublishesAt format calls m k :=
    fun k hk hlt hpub => Nat.find_min hsome hlt ⟨hk, hpub⟩
  have hmod := (hdue _ hq0 hquiet).mp hq
  have hlate := (h calls hwithin 0 _ hq0 hfirst hq hquiet).1
  rcases evading_mod (gap * 2 ^ 32) hpos (Nat.find hsome) with hsmall | hlarge
  · exact absurd hmod (Nat.not_le.mpr hsmall)
  · have htime : gap * 2 ^ 32 ≤ calls.times (Nat.find hsome) := hlarge
    have hstart : calls.times 0 = 0 := rfl
    omega

end

/-! ## Templates -/

theorem declaredMs_pos {e : TemplateMetric}
    (hpos : ∀ s, e.publishIntervalSeconds = some s → 0 < s) : 1 ≤ declaredMs e := by
  unfold declaredMs
  cases hinterval : e.publishIntervalSeconds with
  | none => cases e.publish <;> decide
  | some s =>
    have hs := hpos s hinterval
    dsimp only
    omega

/-- 32 bits hold what a template declares up to 4294967 seconds. -/
theorem boardIntervalMs_declared_iff {e : TemplateMetric}
    (hpos : ∀ s, e.publishIntervalSeconds = some s → 0 < s) :
    boardIntervalMs e.publish e.publishIntervalSeconds = declaredMs e ↔ declaredMs e ≤ 2 ^ 32 := by
  rw [boardIntervalMs_declared e hpos, declaredMs]
  cases hinterval : e.publishIntervalSeconds with
  | none =>
    have hdefault := defaultIntervalMs_le e.publish
    constructor
    · intro _
      dsimp only
      omega
    · intro _ s hs
      cases hs
  | some s =>
    dsimp only
    constructor
    · intro h
      have hs := h s rfl
      omega
    · intro h s' hs'
      cases hs'
      omega

/-- **A board keeps the interval a template declares**, give or take one gap between calls, exactly
where interval and gap fit into 32 bits of milliseconds; the interval as such arrives exactly where
it fits alone. -/
theorem spaced_iff [AddGroup F] [LinearOrder F] (format : F → String) (board : Board F) (js : Js)
    (hfloat : ∀ q : ℚ, 0 ≤ q → 0 ≤ board.asFloat q) {e : TemplateMetric} (h : accepted e = true) :
    (∀ m, Configured board js e m → (m.intervalMs = declaredMs e ↔ declaredMs e ≤ 2 ^ 32)) ∧
    ∀ gap : ℕ, (∀ m, Configured board js e m → m.intervalMs = declaredMs e ∧
      Spaced format m (declaredMs e) gap) ↔ declaredMs e + gap ≤ 2 ^ 32 := by
  simp only [accepted, Bool.and_eq_true] at h
  have hpos : ∀ s, e.publishIntervalSeconds = some s → 0 < s :=
    fun _ => CatalogMetric.accepted_positive h.1
  have hstored : ∀ m, Configured board js e m →
      (m.intervalMs = declaredMs e ↔ declaredMs e ≤ 2 ^ 32) := by
    intro m hm
    obtain ⟨-, -, hms, -⟩ := hm.profile hpos
    rw [hms]
    exact boardIntervalMs_declared_iff hpos
  refine ⟨hstored, fun gap => ⟨fun hall => ?_, fun hfits m hm => ?_⟩⟩
  · -- a board that has just booted
    let source : Driver F × String :=
      ({ id := "digital_in", channels := ["value"], begin := digitalInBegin }, "value")
    have hconfigured : Configured board js e
        { newMetric board "" (firmwareMetric js e) with source := some source } := .begun "" source
    obtain ⟨hbound, -, hms, hd⟩ := hconfigured.profile hpos
    obtain ⟨hsame, hspaced⟩ := hall _ hconfigured
    have hdeadband : 0 ≤ board.asFloat (e.publishDeadband.getD 0) := by
      apply hfloat
      cases hdeadband : e.publishDeadband with
      | none => exact le_rfl
      | some deadband => simpa [hdeadband] using h.2
    have hlt := boardIntervalMs_lt e.publish e.publishIntervalSeconds
    have hone := declaredMs_pos hpos
    have hnat : declaredMs e = ((declaredMs e).toNat : Int) := by omega
    rw [hnat] at hspaced
    have hfits := fits_of_spaced hbound (hdeadband.trans_eq hd.symm) rfl (by omega)
      (by omega) (hsame.trans hnat) hspaced
    omega
  · obtain ⟨hbound, -, -, -⟩ := hm.profile hpos
    have hone := declaredMs_pos hpos
    have hsame : m.intervalMs = declaredMs e := (hstored m hm).mpr (by omega)
    rw [← hsame] at hone hfits ⊢
    exact ⟨rfl, spaced_of_fits hbound hone hfits⟩

/-- The door of the module before reports every twenty-eight hours, and its loop may take a minute. -/
theorem spaced_iff_door :
    (∀ m, Configured exactBoard keyedJs door m → m.intervalMs = declaredMs door ∧
      Spaced (fun _ => "0.000") m (declaredMs door) 60000) ↔ declaredMs door + 60000 ≤ 2 ^ 32 :=
  (spaced_iff (fun _ => "0.000") exactBoard keyedJs exactBoard_nonneg accepted_door).2 60000

/-- A metric that is due after a little more than seven weeks. -/
def rare : TemplateMetric := { door with publishIntervalSeconds := some 4294968 }

/-- **49.7 days** come out as 704 milliseconds. -/
theorem rare_wraps :
    accepted rare = true ∧ ¬∀ m, Configured exactBoard keyedJs rare m →
      m.intervalMs = 4294968 * 1000 := by
  have haccepted : accepted rare = true := by decide
  refine ⟨haccepted, fun hall => ?_⟩
  let source : Driver ℚ × String :=
    ({ id := "digital_in", channels := ["value"], begin := digitalInBegin }, "value")
  have hconfigured : Configured exactBoard keyedJs rare
      { newMetric exactBoard "" (firmwareMetric keyedJs rare) with source := some source } :=
    .begun "" source
  have hpos : ∀ s, rare.publishIntervalSeconds = some s → 0 < s :=
    fun _ => CatalogMetric.accepted_positive (m := rare.toCatalogMetric) (by decide)
  obtain ⟨-, -, hms, -⟩ := hconfigured.profile hpos
  have hsame := hall _ hconfigured
  rw [hms] at hsame
  revert hsame
  decide

end IotSaas.Health
