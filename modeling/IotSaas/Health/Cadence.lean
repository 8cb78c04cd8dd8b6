import IotSaas.Health.Staleness
import IotSaas.Rules.Evaluators
import IotSaas.Worker.ProfileEdit
import Mathlib.Data.Nat.Find

/-!
# `Health/Cadence.lean` — how often a board publishes, and how long the platform waits

`derive_max_age` says after how many seconds a metric is stale, `defaultIntervalMs` and the
product in `beginMetrics` and `applyProfile` after how many milliseconds a board publishes it
again. Here a board that misses nothing is run against the bound: its loop comes by once a
millisecond, a reading is there every time, and every publication goes through. Between two
publications in a row the gap is at most the interval (`next_publication`), and a constant reading
makes an `on_change` metric wait for all of it.

The bounds agree but for one profile: an `on_change` metric publishes at its interval as a
heartbeat, and the platform gives it one day whatever the interval is (`staysFresh_iff`).
-/

set_option autoImplicit false

namespace IotSaas.Health

open Lib Rules Catalog Wiring Firmware Worker.ConfigPublish

variable {F : Type}

/-! ## A board on schedule -/

/-- `millis()`, `t` milliseconds after boot. -/
def millis (t : ℕ) : Int := (t : Int) % 2 ^ 32

/-- A round in which nothing is missing. -/
def onTime (readings : ℕ → F) (t : ℕ) : Round F where
  now := millis t
  reading _ := some (readings t)
  published _ := true

section

variable [AddGroup F] [LinearOrder F]

/-- The metric before the round at `t`. -/
def reportingAt (format : F → String) (readings : ℕ → F) (m : Reporting F) : ℕ → Reporting F
  | 0 => m
  | t + 1 => (publishMetric format (onTime readings t) (reportingAt format readings m t)).2

/-- The metric is published in the round at `t`. -/
def Publishes (format : F → String) (readings : ℕ → F) (m : Reporting F) (t : ℕ) : Prop :=
  (publishMetric format (onTime readings t) (reportingAt format readings m t)).1.isSome = true

omit [AddGroup F] [LinearOrder F] in
/-- The platform's entry for a reading of `t` milliseconds after boot. -/
def cached (value : F) (t : ℕ) (maxAge : Int) : MetricValue F where
  value := value
  timestamp := (t : Int) * 1000
  maxAgeSeconds := maxAge

/-- After every publication there is a next one, at most `maxAge` seconds later, and a rule that is
evaluated between the two sees the signal as fresh. -/
def StaysFresh (format : F → String) (m : Reporting F) (maxAge : Int) : Prop :=
  ∀ (readings : ℕ → F) (p : ℕ), Publishes format readings m p →
    ∃ q, p < q ∧ Publishes format readings m q ∧
      (∀ t, p < t → t < q → ¬Publishes format readings m t) ∧
      (q : Int) - p ≤ maxAge * 1000 ∧
      ∀ now : Datetime, (p : Int) * 1000 ≤ now → now < (q : Int) * 1000 →
        signalState (some (cached (readings p) p maxAge)) now = .fresh

end

/-- A bound metric the way the board is configured for it: by the config it boots with, or by a
message since. -/
inductive Configured (board : Board F) (js : Js) (e : TemplateMetric) : Reporting F → Prop where
  | begun (base : String) (source : Driver F × String) :
      Configured board js e
        { newMetric board base (firmwareMetric js e) with source := some source }
  | followed (m : Reporting F) (hbound : m.source.isSome = true) :
      Configured board js e (m.follow board (itemDocument m.key e))

/-- What `CatalogMetric` checks, the deadband included. -/
def accepted (e : TemplateMetric) : Bool :=
  e.toCatalogMetric.accepted && e.publishDeadband.all fun deadband => decide (0 ≤ deadband)

/-! ## One round -/

section

variable [AddGroup F] [LinearOrder F] {format : F → String} {readings : ℕ → F} {m : Reporting F}

theorem reportingAt_toMetric (t : ℕ) :
    (reportingAt format readings m t).toMetric = m.toMetric := by
  induction t with
  | zero => rfl
  | succ t ih => rw [reportingAt, publishMetric_toMetric, ih]

/-- A bound metric in a round on time: sent when there is a reason, and otherwise left alone. -/
theorem publishMetric_onTime (format : F → String) (hbound : m.source.isSome = true)
    (readings : ℕ → F) (t : ℕ) :
    (sendReason m (millis t) (readings t) = none ∧
      publishMetric format (onTime readings t) m = (none, m)) ∨
    ((sendReason m (millis t) (readings t)).isSome = true ∧
      publishMetric format (onTime readings t) m =
        (some ⟨m.topic, valuePayload (format (readings t))⟩, m.sent (millis t) (readings t))) := by
  have hstep : publishMetric format (onTime readings t) m = _ :=
    publishMetric_due format hbound rfl rfl
  cases hreason : sendReason m (millis t) (readings t) with
  | none =>
    left
    simpa [onTime, hreason] using hstep
  | some reason =>
    right
    simpa [onTime, hreason] using hstep

theorem publishes_iff (hbound : m.source.isSome = true) (t : ℕ) :
    Publishes format readings m t ↔
      (sendReason (reportingAt format readings m t) (millis t) (readings t)).isSome = true := by
  have hbound' : (reportingAt format readings m t).source.isSome = true := by
    rw [reportingAt_toMetric]
    exact hbound
  unfold Publishes
  rcases publishMetric_onTime format hbound' readings t with ⟨hnone, hstep⟩ | ⟨hsome, hstep⟩
  · simp [hstep, hnone]
  · simp [hstep, hsome]

theorem reportingAt_succ_of_publishes (hbound : m.source.isSome = true) {t : ℕ}
    (h : Publishes format readings m t) :
    reportingAt format readings m (t + 1) =
      (reportingAt format readings m t).sent (millis t) (readings t) := by
  have hbound' : (reportingAt format readings m t).source.isSome = true := by
    rw [reportingAt_toMetric]
    exact hbound
  rcases publishMetric_onTime format hbound' readings t with ⟨-, hstep⟩ | ⟨-, hstep⟩
  · simp [Publishes, hstep] at h
  · rw [reportingAt, hstep]

theorem reportingAt_succ_of_not (hbound : m.source.isSome = true) {t : ℕ}
    (h : ¬Publishes format readings m t) :
    reportingAt format readings m (t + 1) = reportingAt format readings m t := by
  have hbound' : (reportingAt format readings m t).source.isSome = true := by
    rw [reportingAt_toMetric]
    exact hbound
  rcases publishMetric_onTime format hbound' readings t with ⟨-, hstep⟩ | ⟨-, hstep⟩
  · rw [reportingAt, hstep]
  · simp [Publishes, hstep] at h

/-- Until the next publication the last one is remembered. -/
theorem reportingAt_between (hbound : m.source.isSome = true) {p : ℕ}
    (hp : Publishes format readings m p) (k : ℕ)
    (hquiet : ∀ t, p < t → t < p + 1 + k → ¬Publishes format readings m t) :
    reportingAt format readings m (p + 1 + k) =
      (reportingAt format readings m p).sent (millis p) (readings p) := by
  induction k with
  | zero => exact reportingAt_succ_of_publishes hbound hp
  | succ k ih =>
    have hnot : ¬Publishes format readings m (p + 1 + k) := hquiet _ (by omega) (by omega)
    have hstep := reportingAt_succ_of_not hbound hnot
    rw [← ih fun t hpt ht => hquiet t hpt (by omega)]
    exact hstep

omit [AddGroup F] [LinearOrder F] in
theorem sinceLast_millis (p k : ℕ) (h : (k : Int) < 2 ^ 32) :
    sinceLast (millis (p + k)) (millis p) = k := by
  unfold sinceLast millis
  push_cast
  omega

/-- **The next publication** comes after the interval at the latest. -/
theorem next_publication (hbound : m.source.isSome = true) {n : ℕ} (hn : 0 < n)
    (hsmall : (n : Int) < 2 ^ 32) (hinterval : m.intervalMs ≤ n) {p : ℕ}
    (hp : Publishes format readings m p) :
    ∃ q, p < q ∧ q ≤ p + n ∧ Publishes format readings m q ∧
      ∀ t, p < t → t < q → ¬Publishes format readings m t := by
  classical
  have hsome : ∃ q, p < q ∧ q ≤ p + n ∧ Publishes format readings m q := by
    by_contra hnone
    have hquiet : ∀ t, p < t → t ≤ p + n → ¬Publishes format readings m t :=
      fun t hpt ht hpub => hnone ⟨t, hpt, ht, hpub⟩
    obtain ⟨k, rfl⟩ : ∃ k, n = 1 + k := ⟨n - 1, by omega⟩
    have hstate := reportingAt_between hbound hp k fun t hpt ht => hquiet t hpt (by omega)
    apply hquiet (p + (1 + k)) (by omega) (by omega)
    rw [publishes_iff hbound]
    apply sendReason_of_interval
    rw [← Nat.add_assoc, hstate, Reporting.sent_toMetric, Reporting.sent_lastPublishMs,
      reportingAt_toMetric, Nat.add_assoc, sinceLast_millis p (1 + k) hsmall]
    exact hinterval
  refine ⟨Nat.find hsome, (Nat.find_spec hsome).1, (Nat.find_spec hsome).2.1,
    (Nat.find_spec hsome).2.2, ?_⟩
  intro t hpt ht hpub
  have hle := (Nat.find_spec hsome).2.1
  exact Nat.find_min hsome ht ⟨hpt, by omega, hpub⟩

end

/-! ## The bound -/

section

variable [AddGroup F] [LinearOrder F] {format : F → String} {m : Reporting F}

/-- An interval within the bound keeps the signal fresh. -/
theorem staysFresh_of_interval (hbound : m.source.isSome = true) {maxAge : Int}
    (hpos : 0 < maxAge) (hsmall : m.intervalMs < 2 ^ 32) (h : m.intervalMs ≤ maxAge * 1000) :
    StaysFresh format m maxAge := by
  intro readings p hp
  have hinterval : m.intervalMs ≤ (max m.intervalMs.toNat 1 : ℕ) := by omega
  obtain ⟨q, hpq, hle, hq, hquiet⟩ := next_publication hbound
    (show 0 < max m.intervalMs.toNat 1 by omega) (by omega) hinterval hp
  have hgap : (q : Int) - p ≤ maxAge * 1000 := by omega
  refine ⟨q, hpq, hq, hquiet, hgap, ?_⟩
  intro now hfrom huntil
  have hage : ¬seconds maxAge < elapsed now ((p : Int) * 1000) := by
    have hnow : ∀ i : Int, i < (q : Int) * 1000 → ¬maxAge * 1000000 < i - (p : Int) * 1000 := by
      intro i hi
      omega
    exact hnow now huntil
  simp [signalState, cached, hage]

/-- A reading that never changes waits for the whole interval. -/
theorem interval_of_staysFresh (hbound : m.source.isSome = true) (hdeadband : 0 ≤ m.deadband)
    (hnew : m.lastValue = none) {maxAge : Int}
    (hsmall : maxAge * 1000 < 2 ^ 32) (h : StaysFresh format m maxAge) :
    m.intervalMs ≤ maxAge * 1000 := by
  have hfirst : Publishes format (fun _ => 0) m 0 := by
    rw [publishes_iff hbound]
    simp [reportingAt, sendReason, hnew]
  obtain ⟨q, hpq, hq, hquiet, hgap, -⟩ := h (fun _ => 0) 0 hfirst
  obtain ⟨k, rfl⟩ : ∃ k, q = 0 + 1 + k := ⟨q - 1, by omega⟩
  have hstate := reportingAt_between hbound hfirst k hquiet
  have hsince : sinceLast (millis (0 + 1 + k)) (millis 0) = ((0 + 1 + k : ℕ) : Int) := by
    have heq := sinceLast_millis 0 (1 + k) (by omega)
    rw [← Nat.add_assoc] at heq
    exact heq
  have hzero : |(0 : F)| = 0 := by simp [abs]
  have hsame : m.changed 0 0 = false := by
    simp [Reporting.changed, hzero, hdeadband]
  rw [publishes_iff hbound, hstate] at hq
  have hwait : m.intervalMs ≤ sinceLast (millis (0 + 1 + k)) (millis 0) :=
    interval_of_sendReason (Reporting.sent_lastValue _ _ _) (.inr hsame) hq
  omega

end

section

variable {board : Board F} {js : Js} {e : TemplateMetric} {m : Reporting F}

/-- An interval that is positive is in the config. -/
theorem firmwareMetric_intervalS (js : Js) {e : TemplateMetric}
    (hpos : ∀ s, e.publishIntervalSeconds = some s → 0 < s) :
    (firmwareMetric js e).intervalS = e.publishIntervalSeconds := by
  cases hinterval : e.publishIntervalSeconds with
  | none => simp [firmwareMetric, hinterval]
  | some s =>
    have hne : s ≠ 0 := by
      have := hpos s hinterval
      omega
    simp [firmwareMetric, hinterval, Option.filter, hne]

theorem Configured.profile (hpos : ∀ s, e.publishIntervalSeconds = some s → 0 < s)
    (h : Configured board js e m) :
    m.source.isSome = true ∧ m.mode = e.publish ∧
      m.intervalMs = boardIntervalMs e.publish e.publishIntervalSeconds ∧
      m.deadband = board.asFloat (e.publishDeadband.getD 0) := by
  cases h with
  | begun base source =>
    refine ⟨rfl, rfl, ?_, rfl⟩
    show (newMetric board base (firmwareMetric js e)).intervalMs = _
    rw [newMetric_intervalMs, firmwareMetric_intervalS js hpos]
    rfl
  | followed m hbound =>
    exact ⟨hbound, follow_itemDocument board m.key e m⟩

theorem boardIntervalMs_lt (publish : PublishProfile) (interval : Option Int) :
    boardIntervalMs publish interval < 2 ^ 32 := by
  have hdefault := defaultIntervalMs_le publish
  unfold boardIntervalMs
  dsimp only
  split <;> omega

theorem deriveMaxAge_pos (publish : PublishProfile) {interval : Option Int}
    (hpos : ∀ s, interval = some s → 0 < s) : 0 < deriveMaxAge publish interval := by
  unfold deriveMaxAge onChangeMaxAgeSeconds stalenessIntervalMultiplier
  split
  · decide
  · cases interval with
    | none => decide
    | some s =>
      have hs := hpos s rfl
      dsimp only
      split <;> omega

/-- Where the board's interval is within the platform's bound. -/
theorem boardIntervalMs_le_iff (publish : PublishProfile) {interval : Option Int}
    (hpos : ∀ s, interval = some s → 0 < s) :
    boardIntervalMs publish interval ≤ deriveMaxAge publish interval * 1000 ↔
      (publish = .onChange → ∀ s, interval = some s → s < 2 ^ 31 →
        s * 1000 % 2 ^ 32 ≤ 86400000) := by
  have hdefault := defaultIntervalMs_le publish
  cases interval with
  | none =>
    cases publish <;>
      simp [boardIntervalMs, deriveMaxAge, defaultIntervalMs, onChangeMaxAgeSeconds,
        defaultStaleMetricAgeSeconds]
  | some s =>
    have hs := hpos s rfl
    -- An interval the board can hold is multiplied in 32 bits; any other leaves the default.
    by_cases hfits : fits s = true
    · have hms : boardIntervalMs publish (some s) = s * 1000 % 2 ^ 32 := by
        simp [boardIntervalMs, Option.filter, hfits, hs]
      have hlong : s < 2 ^ 31 := (decide_eq_true_eq.mp hfits).2
      rw [hms]
      by_cases hchange : publish = .onChange
      · simp only [deriveMaxAge, if_pos hchange, onChangeMaxAgeSeconds]
        constructor
        · intro hle _ s' hs' _
          cases hs'
          omega
        · intro hle
          have := hle hchange s rfl hlong
          omega
      · have hne : s ≠ 0 := by omega
        have hquotient : 0 ≤ s * 1000 / 2 ^ 32 := Int.ediv_nonneg (by omega) (by decide)
        simp only [deriveMaxAge, if_neg hchange, if_neg hne, stalenessIntervalMultiplier]
        constructor
        · intro _ hp
          exact absurd hp hchange
        · intro _
          omega
    · have hms : boardIntervalMs publish (some s) = defaultIntervalMs publish := by
        simp [boardIntervalMs, Option.filter, hfits]
      have hlong : ¬s < 2 ^ 31 := by
        simp only [fits, decide_eq_true_eq, not_and] at hfits
        omega
      rw [hms]
      by_cases hchange : publish = .onChange
      · simp only [deriveMaxAge, if_pos hchange, onChangeMaxAgeSeconds]
        constructor
        · intro _ _ s' hs' hlt
          cases hs'
          exact absurd hlt hlong
        · intro _
          omega
      · have hne : s ≠ 0 := by omega
        simp only [deriveMaxAge, if_neg hchange, if_neg hne, stalenessIntervalMultiplier]
        constructor
        · intro _ hp
          exact absurd hp hchange
        · intro _
          omega

end

/-- A board that has just booted with an `on_change` metric waits for its interval. -/
theorem interval_of_configured [AddGroup F] [LinearOrder F] {format : F → String}
    {board : Board F} {js : Js} {e : TemplateMetric}
    (hpos : ∀ s, e.publishIntervalSeconds = some s → 0 < s)
    (hdeadband : 0 ≤ board.asFloat (e.publishDeadband.getD 0)) (hchange : e.publish = .onChange)
    (hfresh : ∀ m, Configured board js e m →
      StaysFresh format m (deriveMaxAge e.publish e.publishIntervalSeconds)) :
    boardIntervalMs e.publish e.publishIntervalSeconds ≤
      deriveMaxAge e.publish e.publishIntervalSeconds * 1000 := by
  let source : Driver F × String :=
    ({ id := "digital_in", channels := ["value"], begin := digitalInBegin }, "value")
  have hconfigured : Configured board js e
      { newMetric board "" (firmwareMetric js e) with source := some source } := .begun "" source
  obtain ⟨hbound, -, hms, hd⟩ := hconfigured.profile hpos
  have hage : deriveMaxAge e.publish e.publishIntervalSeconds = 86400 := by
    simp [deriveMaxAge, hchange, onChangeMaxAgeSeconds]
  rw [← hms]
  exact interval_of_staysFresh hbound (hdeadband.trans_eq hd.symm) rfl
    (by rw [hage]; decide) (hfresh _ hconfigured)

/-- A metric that is accepted stays fresh on a board that misses nothing, but for an `on_change`
metric whose interval reaches the board and comes to more than a day there. -/
theorem staysFresh_iff [AddGroup F] [LinearOrder F] (format : F → String) (board : Board F)
    (js : Js) (hfloat : ∀ q : ℚ, 0 ≤ q → 0 ≤ board.asFloat q) {e : TemplateMetric}
    (h : accepted e = true) :
    (∀ m, Configured board js e m →
      StaysFresh format m (deriveMaxAge e.publish e.publishIntervalSeconds)) ↔
    (e.publish = .onChange → ∀ s, e.publishIntervalSeconds = some s → s < 2 ^ 31 →
      s * 1000 % 2 ^ 32 ≤ 86400000) := by
  simp only [accepted, Bool.and_eq_true] at h
  have hpos : ∀ s, e.publishIntervalSeconds = some s → 0 < s :=
    fun _ => CatalogMetric.accepted_positive h.1
  have hdeadband : 0 ≤ board.asFloat (e.publishDeadband.getD 0) := by
    apply hfloat
    cases hd : e.publishDeadband with
    | none => exact le_rfl
    | some deadband => simpa [hd] using h.2
  rw [← boardIntervalMs_le_iff e.publish hpos]
  constructor
  · intro hfresh
    by_contra hlong
    have hchange : e.publish = .onChange := by
      by_contra hne
      exact hlong ((boardIntervalMs_le_iff e.publish hpos).mpr fun hp => absurd hp hne)
    exact hlong (interval_of_configured hpos hdeadband hchange hfresh)
  · intro hle m hm
    obtain ⟨hbound, -, hms, -⟩ := hm.profile hpos
    refine staysFresh_of_interval hbound (deriveMaxAge_pos e.publish hpos) ?_ ?_
    · rw [hms]
      exact boardIntervalMs_lt e.publish e.publishIntervalSeconds
    · rw [hms]
      exact hle

/-! ## A door that reports every twenty-eight hours -/

/-- Texts and numbers of the dashboard, as far as a metric with a key of its own needs them. -/
def keyedJs : Js where
  number _ := .nan
  parseInt _ := .nan
  showNumber _ := "NaN"
  toLowerCase := id

def door : TemplateMetric where
  name := "Door"
  key := some "door"
  publish := .onChange
  publishIntervalSeconds := some 100000
  dataType := "float"

theorem exactBoard_nonneg (q : ℚ) (h : 0 ≤ q) : 0 ≤ exactBoard.asFloat q := h

theorem accepted_door : accepted door = true := by decide

theorem staysFresh_iff_door :
    (∀ m, Configured exactBoard keyedJs door m →
      StaysFresh (fun _ => "0.000") m (deriveMaxAge door.publish door.publishIntervalSeconds)) ↔
    (door.publish = .onChange → ∀ s, door.publishIntervalSeconds = some s → s < 2 ^ 31 →
      s * 1000 % 2 ^ 32 ≤ 86400000) :=
  staysFresh_iff (fun _ => "0.000") exactBoard keyedJs exactBoard_nonneg accepted_door

theorem door_goes_stale :
    accepted door = true ∧
      ¬∀ m, Configured exactBoard keyedJs door m →
        StaysFresh (fun _ => "0.000") m
          (deriveMaxAge door.publish door.publishIntervalSeconds) := by
  refine ⟨accepted_door, fun hfresh => ?_⟩
  have hpos : ∀ s, door.publishIntervalSeconds = some s → 0 < s :=
    fun _ => CatalogMetric.accepted_positive (m := door.toCatalogMetric) (by decide)
  have hle := interval_of_configured hpos le_rfl rfl hfresh
  exact absurd hle (by decide)

end IotSaas.Health
