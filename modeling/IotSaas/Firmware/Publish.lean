import IotSaas.Firmware.Io
import IotSaas.Lib.Json
import Mathlib.Algebra.Order.Group.Abs

/-!
# `Firmware/Publish.lean` — metrics go out, profiles come in

The rest of `firmware/src/io.cpp` that metrics pass through: `ioPublishMetrics` decides for each of
them whether the reading at hand is sent, and `applyProfile` follows a config message. `millis()`
has 32 bits, so the time since the last publication is a difference modulo 2³². What a driver
reads, whether `mqtt.publish` succeeds and how `%.3f` prints are given from outside; a `float` that
is no number is `none`.
-/

set_option autoImplicit false

namespace IotSaas.Firmware

open Lib Catalog Editor Wiring

variable {F : Type}

/-- A metric with what has been sent of it. -/
structure Reporting (F : Type) extends Metric F where
  lastValue : Option F := none
  lastPublishMs : Int := 0

/-! ## Profiles -/

/-- `doc[key]`; what isn't there is `null`. -/
def member (key : String) : Json ℚ → Json ℚ
  | .obj members => (members.lookup key).getD .null
  | _ => .null

/-- `v.as<JsonArrayConst>()`. -/
def asArray : Json ℚ → List (Json ℚ)
  | .arr items => items
  | _ => []

/-- `v | ""`, with another text in its place. -/
def textOr (default : String) : Json ℚ → String
  | .str s => s
  | _ => default

/-- `v | 0L`. -/
def longOr (default : Int) : Json ℚ → Int
  | .num q => if q.den = 1 ∧ fits q.num then q.num else default
  | _ => default

/-- `v | 0.0f`. -/
def floatOr (board : Board F) (default : ℚ) : Json ℚ → F
  | .num q => board.asFloat q
  | _ => board.asFloat default

def parseMode (publish : String) : PublishProfile :=
  if publish = "on_change" then .onChange
  else if publish = "streaming" then .streaming
  else .periodic

/-- What an item of a config message makes of the metric it names. -/
def Reporting.follow (board : Board F) (item : Json ℚ) (m : Reporting F) : Reporting F :=
  let mode := parseMode (textOr "periodic" (member "publish" item))
  let interval := longOr 0 (member "interval_seconds" item)
  { m with
    mode := mode
    intervalMs := if 0 < interval then interval * 1000 % 2 ^ 32 else defaultIntervalMs mode
    deadband := floatOr board 0 (member "deadband" item) }

/-- One round of `applyProfile`: the metric `findMetric` finds follows the item. -/
def applyItem (board : Board F) (item : Json ℚ) : List (Reporting F) → List (Reporting F)
  | [] => []
  | m :: rest =>
      if m.key = textOr "" (member "key" item) then m.follow board item :: rest
      else m :: applyItem board item rest

/-- `applyProfile`, of a payload that parses. -/
def applyProfile (board : Board F) (doc : Json ℚ) (metrics : List (Reporting F)) :
    List (Reporting F) :=
  (asArray (member "metrics" doc)).foldl (fun metrics item => applyItem board item metrics) metrics

/-! ## Publications -/

/-- `ON_CHANGE_MIN_GAP_MS`. -/
def onChangeMinGapMs : Int := 100

/-- `now - lastPublishMs`, of two `unsigned long`. -/
def sinceLast (now lastPublishMs : Int) : Int := (now - lastPublishMs) % 2 ^ 32

/-- Clocks that wrap show the same difference. -/
theorem sinceLast_wrapped (now last : Int) :
    sinceLast (now % 2 ^ 32) (last % 2 ^ 32) = sinceLast now last := by
  simp only [sinceLast, Int.emod_sub_emod, Int.sub_emod_emod]

/-- A device never overestimates how long ago something was. -/
theorem sinceLast_le {now last : Int} (h : last ≤ now) : sinceLast now last ≤ now - last := by
  unfold sinceLast
  omega

theorem sinceLast_eq {now last : Int} (h : last ≤ now) (hlt : now < last + 2 ^ 32) :
    sinceLast now last = now - last :=
  Int.emod_eq_of_lt (by omega) (by omega)

/-- What a call of `ioPublishMetrics` finds: the clock, the reading of each metric, and whether its
publication goes through. -/
structure Round (F : Type) where
  now : Int
  reading : String → Option F
  published : String → Bool

structure Message where
  topic : String
  payload : String
  deriving DecidableEq

/-- `snprintf` into the 48 bytes of `payload`. -/
def valuePayload (printed : String) : String :=
  String.ofList (("\x7b\"value\": " ++ printed ++ "\x7d").toList.take 47)

example : valuePayload "21.500" = "\x7b\"value\": 21.500\x7d" := by decide

section

variable [AddGroup F] [LinearOrder F]

/-- A switch changes by any difference, a number by more than its deadband. -/
def Reporting.changed (m : Reporting F) (value lastValue : F) : Bool :=
  if m.isBool then decide (value ≠ lastValue) else decide (m.deadband < |value - lastValue|)

/-- Whether a reading is sent, and for which reason. -/
def sendReason (m : Reporting F) (now : Int) (value : F) : Option String :=
  match m.lastValue with
  | none => some "initial"
  | some lastValue =>
      let since := sinceLast now m.lastPublishMs
      if m.mode = .onChange then
        if m.changed value lastValue = true ∧ onChangeMinGapMs ≤ since then some "change"
        else if m.intervalMs ≤ since then some "heartbeat"
        else none
      else if m.intervalMs ≤ since then some "periodic"
      else none

/-- A metric whose value was sent. -/
def Reporting.sent (now : Int) (value : F) (m : Reporting F) : Reporting F :=
  { m with lastValue := some value, lastPublishMs := now }

/-- What `ioPublishMetrics` does about one metric. Only a success is recorded, so that a
publication that fails is tried again. -/
def publishMetric (format : F → String) (round : Round F) (m : Reporting F) :
    Option Message × Reporting F :=
  match m.source with
  | none => (none, m)
  | some _ =>
      match round.reading m.key with
      | none => (none, m)
      | some value =>
          match sendReason m round.now value with
          | none => (none, m)
          | some _ =>
              (some ⟨m.topic, valuePayload (format value)⟩,
                if round.published m.key then m.sent round.now value else m)

/-- `ioPublishMetrics`: what it hands to `mqtt.publish`, in order. -/
def ioPublishMetrics (format : F → String) (round : Round F) (metrics : List (Reporting F)) :
    List Message × List (Reporting F) :=
  (metrics.filterMap fun m => (publishMetric format round m).1,
    metrics.map fun m => (publishMetric format round m).2)

end

/-! ## What stays -/

@[simp] theorem Reporting.sent_toMetric (now : Int) (value : F) (m : Reporting F) :
    (m.sent now value).toMetric = m.toMetric := rfl

@[simp] theorem Reporting.sent_lastValue (now : Int) (value : F) (m : Reporting F) :
    (m.sent now value).lastValue = some value := rfl

@[simp] theorem Reporting.sent_lastPublishMs (now : Int) (value : F) (m : Reporting F) :
    (m.sent now value).lastPublishMs = now := rfl

/-- A profile leaves what has been sent alone. -/
@[simp] theorem Reporting.follow_key (board : Board F) (item : Json ℚ) (m : Reporting F) :
    (m.follow board item).key = m.key := rfl

section

variable [AddGroup F] [LinearOrder F]

/-- A bound metric that has a reading and whose publication goes through: sent when there is a
reason, and otherwise left alone. -/
theorem publishMetric_due (format : F → String) {round : Round F} {m : Reporting F} {value : F}
    (hbound : m.source.isSome = true) (hreading : round.reading m.key = some value)
    (hpublished : round.published m.key = true) :
    publishMetric format round m =
      if (sendReason m round.now value).isSome then
        (some ⟨m.topic, valuePayload (format value)⟩, m.sent round.now value)
      else (none, m) := by
  obtain ⟨source, hsource⟩ := Option.isSome_iff_exists.mp hbound
  unfold publishMetric
  cases hreason : sendReason m round.now value with
  | none => simp [hsource, hreading, hreason]
  | some reason => simp [hsource, hreading, hreason, hpublished]

/-- Once the interval is over there is a reason in every mode. -/
theorem sendReason_of_interval (m : Reporting F) (now : Int) (value : F)
    (h : m.intervalMs ≤ sinceLast now m.lastPublishMs) :
    (sendReason m now value).isSome = true := by
  unfold sendReason
  cases m.lastValue with
  | none => rfl
  | some lastValue =>
    dsimp only
    by_cases hmode : m.mode = .onChange
    · rw [if_pos hmode]
      split
      · rfl
      · rfl
    · simp [hmode, h]

/-- A metric that has been sent before waits for its interval: one that is sent on a schedule, and
one whose reading has not changed. -/
theorem interval_of_sendReason {m : Reporting F} {now : Int} {value lastValue : F}
    (hlast : m.lastValue = some lastValue)
    (hquiet : m.mode ≠ .onChange ∨ m.changed value lastValue = false)
    (h : (sendReason m now value).isSome = true) :
    m.intervalMs ≤ sinceLast now m.lastPublishMs := by
  by_contra hearly
  rcases hquiet with hmode | hsame
  · simp [sendReason, hlast, hmode, hearly] at h
  · simp [sendReason, hlast, hsame, hearly] at h

theorem publishMetric_toMetric (format : F → String) (round : Round F) (m : Reporting F) :
    (publishMetric format round m).2.toMetric = m.toMetric := by
  unfold publishMetric
  repeat' split
  all_goals rfl

end

end IotSaas.Firmware
