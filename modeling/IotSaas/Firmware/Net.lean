import IotSaas.Firmware.Publish
import IotSaas.Lib.Logs
import IotSaas.Lib.Reach

/-!
# `Firmware/Net.lean` — staying online

`netLoop` of `firmware/src/net.cpp` and what it calls: the reset button, the connection to the
broker, the status. A pass reads the clock several times, and any time may go by between two
readings; the clock has 32 bits, so what is compared is a difference modulo 2³². The log has the
true times, counted from power-up on. A run ends when the board restarts.

A board whose passes are never weeks apart tells its status every minute (`status_fresh`) and
forgets its Wi-Fi when the button has been down for five seconds, and only then (`forgets_iff`).
That it gives the broker two seconds between attempts takes no such condition (`attempts_spaced`):
the clock never shows more than has gone by.
-/

set_option autoImplicit false

namespace IotSaas.Firmware.Net

open Lib

/-- `STATUS_INTERVAL_MS`. -/
def statusIntervalMs : Int := 60000

/-- `MQTT_RETRY_MS`. -/
def mqttRetryMs : Int := 2000

/-- `RESET_HOLD_MS`. -/
def resetHoldMs : Int := 5000

/-- What the loop has done, and when. -/
inductive Entry where
  | button (time : Int) (low : Bool)
  | forgets (time : Int)
  | attempt (time : Int)
  | opened (time : Int)
  | status (time : Int) (payload : String) (sent : Bool)
  /-- `mqtt.loop()` and the metrics. -/
  | serviced (time : Int)
  deriving DecidableEq

/-- The variables of `net.cpp`; `connected` is the session the client knows of. -/
structure State where
  clock : Int := 0
  connected : Bool := false
  mqttAttempted : Bool := false
  lastMqttAttemptMs : Int := 0
  lastStatusMs : Int := 0
  resetDownSince : Int := 0
  restarted : Bool := false
  /-- When the last pass was over, and the last one with Wi-Fi. -/
  ended : Int := 0
  looked : Int := 0
  log : List Entry := []
  deriving DecidableEq

/-- What a pass meets: the pin, the Wi-Fi, whether the session is still there, how the broker
answers, and how long each part takes. -/
structure Pass where
  low : Bool := false
  wifi : Bool := true
  session : Bool := true
  accepted : Bool := true
  sent : Bool := true
  rssi : Int := 0
  holding : Nat := 0
  looking : Nat := 0
  starting : Nat := 0
  connecting : Nat := 0
  servicing : Nat := 0
  publishing : Nat := 0

/-- `millis()`. -/
def State.millis (s : State) : Int := s.clock % 2 ^ 32

def State.wait (s : State) (ms : Nat) : State := { s with clock := s.clock + ms }

def State.note (s : State) (e : Entry) : State := { s with log := s.log ++ [e] }

/-- `cfg->wifiSsid == nullptr`, and `FW_VERSION`. -/
structure Build where
  stored : Bool
  fwVersion : String

/-- `watchProvisioningReset`. -/
def watchProvisioningReset (s : State) (p : Pass) : State :=
  let s := s.note (.button s.clock p.low)
  if p.low = false then { s with resetDownSince := 0 }
  else
    let s := if s.resetDownSince = 0 then { s with resetDownSince := s.millis } else s
    let s := s.wait p.holding
    if resetHoldMs ≤ sinceLast s.millis s.resetDownSince then
      { s.note (.forgets s.clock) with restarted := true }
    else s

/-- The `snprintf` of `publishStatus`, into 160 bytes. -/
def statusPayload (b : Build) (rssi uptime : Int) : String :=
  String.ofList (("\x7b\"online\":true,\"rssi\":" ++ toString rssi ++ ",\"uptime_s\":" ++
    toString uptime ++ ",\"fw_version\":\"" ++ b.fwVersion ++ "\"\x7d").toList.take 159)

/-- `publishStatus`. -/
def publishStatus (b : Build) (s : State) (p : Pass) : State :=
  let payload := statusPayload b p.rssi (s.millis / 1000)
  let s := s.wait p.publishing
  { s.note (.status s.clock payload p.sent) with lastStatusMs := s.millis }

/-- `tryConnectMqtt`, less its subscriptions. -/
def tryConnectMqtt (b : Build) (s : State) (p : Pass) : State :=
  let s := s.wait p.starting
  let s := { s.note (.attempt s.clock) with mqttAttempted := true, lastMqttAttemptMs := s.millis }
  let s := s.wait p.connecting
  if p.accepted = true then publishStatus b { s.note (.opened s.clock) with connected := true } p
  else s

/-- The rest of `netLoop`, once the button has been looked at. -/
def keepOnline (b : Build) (s : State) (p : Pass) : State :=
  if p.wifi = false then s
  else
    let s := { s with connected := s.connected && p.session }
    if s.connected = false then
      let s := s.wait p.looking
      if s.mqttAttempted = false ∨ mqttRetryMs ≤ sinceLast s.millis s.lastMqttAttemptMs then
        tryConnectMqtt b s p
      else s
    else
      let s := (s.note (.serviced s.clock)).wait p.servicing
      if statusIntervalMs ≤ sinceLast s.millis s.lastStatusMs then publishStatus b s p else s

/-- `netLoop`. -/
def netLoop (b : Build) (s : State) (p : Pass) : State :=
  let s := if b.stored = true then watchProvisioningReset s p else s
  if s.restarted = true then s else keepOnline b s p

/-- What is noted when a pass that began in `s` is over. -/
def State.close (s' s : State) (p : Pass) : State :=
  { s' with
    ended := s'.clock
    looked := if p.wifi = true ∧ s'.restarted = false then s'.clock else s.looked }

inductive Event where
  /-- The rest of `loop`. -/
  | wait (ms : Nat)
  | pass (p : Pass)

def step (b : Build) (s : State) (e : Event) : Option State :=
  if s.restarted = true then none
  else
    match e with
    | .wait ms => some (s.wait ms)
    | .pass p => some ((netLoop b s p).close s p)

/-- From the end of one pass to the end of the next it is `gap` at most. -/
def Prompt (b : Build) (gap : Int) (s : State) : Event → Prop
  | .wait _ => True
  | .pass p => (netLoop b s p).clock ≤ s.ended + gap

/-- And so it is for the passes that have Wi-Fi. -/
def Online (b : Build) (gap : Int) (s : State) : Event → Prop
  | .wait _ => True
  | .pass p => p.wifi = true → (netLoop b s p).clock ≤ s.looked + gap

instance (b : Build) (gap : Int) (s : State) (e : Event) : Decidable (Prompt b gap s e) := by
  cases e <;> unfold Prompt <;> infer_instance

instance (b : Build) (gap : Int) (s : State) (e : Event) : Decidable (Online b gap s e) := by
  cases e <;> unfold Online <;> infer_instance

/-! ## What a pass does -/

section

variable {b : Build} {s : State} {p : Pass}

theorem le_wait (t : Int) (ms : Nat) : t ≤ t + ms :=
  Int.le_add_of_nonneg_right (Int.natCast_nonneg ms)

theorem sinceLast_millis (s : State) (last : Int) :
    sinceLast s.millis last = sinceLast s.clock last :=
  Int.emod_sub_emod _ _ _

/-- The time the button counts from, once it has been seen down. -/
def State.countsFrom (s : State) : Int :=
  if s.resetDownSince = 0 then s.millis else s.resetDownSince

/-- What the button does. -/
inductive Watched (s : State) (p : Pass) : State → Prop where
  | up (low : p.low = false) :
      Watched s p { s with resetDownSince := 0, log := s.log ++ [.button s.clock false] }
  | down (low : p.low = true) (short : sinceLast (s.clock + p.holding) s.countsFrom < resetHoldMs) :
      Watched s p { s with
        clock := s.clock + p.holding
        resetDownSince := s.countsFrom
        log := s.log ++ [.button s.clock true] }
  | held (low : p.low = true) (long : resetHoldMs ≤ sinceLast (s.clock + p.holding) s.countsFrom) :
      Watched s p { s with
        clock := s.clock + p.holding
        resetDownSince := s.countsFrom
        log := s.log ++ [.button s.clock true] ++ [.forgets (s.clock + p.holding)]
        restarted := true }

theorem watched (s : State) (p : Pass) : Watched s p (watchProvisioningReset s p) := by
  unfold watchProvisioningReset
  cases hlow : p.low with
  | false => exact .up hlow
  | true =>
    have hset : (if (s.note (.button s.clock true)).resetDownSince = 0 then
        { s.note (.button s.clock true) with
          resetDownSince := (s.note (.button s.clock true)).millis }
        else s.note (.button s.clock true)) =
        { s.note (.button s.clock true) with resetDownSince := s.countsFrom } := by
      unfold State.countsFrom State.note State.millis
      split <;> rfl
    simp only [Bool.true_eq_false, if_false, hset, sinceLast_millis]
    split
    · rename_i hlong
      exact .held hlow hlong
    · rename_i hshort
      exact .down hlow (not_le.mp hshort)

/-- What is done about the connection. -/
inductive Kept (b : Build) (s : State) (p : Pass) : State → Prop where
  | offline (wifi : p.wifi = false) : Kept b s p s
  | waits (wifi : p.wifi = true) (attempted : s.mqttAttempted = true)
      (soon : sinceLast (s.clock + p.looking) s.lastMqttAttemptMs < mqttRetryMs) :
      Kept b s p { s with connected := false, clock := s.clock + p.looking }
  | refused (wifi : p.wifi = true) (time : Int)
      (htime : time = s.clock + p.looking + p.starting)
      (due : s.mqttAttempted = true →
        mqttRetryMs ≤ sinceLast (s.clock + p.looking) s.lastMqttAttemptMs) :
      Kept b s p { s with
        connected := false
        clock := time + p.connecting
        mqttAttempted := true
        lastMqttAttemptMs := time % 2 ^ 32
        log := s.log ++ [.attempt time] }
  | opens (wifi : p.wifi = true) (time told : Int)
      (htime : time = s.clock + p.looking + p.starting)
      (htold : told = time + p.connecting + p.publishing) (payload : String)
      (due : s.mqttAttempted = true →
        mqttRetryMs ≤ sinceLast (s.clock + p.looking) s.lastMqttAttemptMs) :
      Kept b s p { s with
        connected := true
        clock := told
        mqttAttempted := true
        lastMqttAttemptMs := time % 2 ^ 32
        lastStatusMs := told % 2 ^ 32
        log := s.log ++ [.attempt time] ++ [.opened (time + p.connecting)] ++
          [.status told payload p.sent] }
  | services (wifi : p.wifi = true) (session : s.connected = true)
      (fresh : sinceLast (s.clock + p.servicing) s.lastStatusMs < statusIntervalMs) :
      Kept b s p { s with
        clock := s.clock + p.servicing
        log := s.log ++ [.serviced s.clock] }
  | tells (wifi : p.wifi = true) (session : s.connected = true) (told : Int)
      (htold : told = s.clock + p.servicing + p.publishing) (payload : String) :
      Kept b s p { s with
        clock := told
        lastStatusMs := told % 2 ^ 32
        log := s.log ++ [.serviced s.clock] ++ [.status told payload p.sent] }

theorem kept (b : Build) (s : State) (p : Pass) : Kept b s p (keepOnline b s p) := by
  unfold keepOnline
  split
  · rename_i hwifi
    exact .offline hwifi
  · rename_i hwifi
    replace hwifi : p.wifi = true := Bool.of_not_eq_false hwifi
    cases hsession : s.connected && p.session with
    | false =>
      simp only [if_true, sinceLast_millis]
      split
      · rename_i hdue
        have hdue' : s.mqttAttempted = true →
            mqttRetryMs ≤ sinceLast (s.clock + p.looking) s.lastMqttAttemptMs := by
          intro h
          refine hdue.resolve_left ?_
          rw [State.wait, h]
          exact Bool.true_eq_false.mp
        unfold tryConnectMqtt
        cases p.accepted with
        | false => exact .refused hwifi _ rfl hdue'
        | true => exact .opens hwifi _ _ rfl rfl _ hdue'
      · rename_i hsoon
        obtain ⟨hattempted, hsoon⟩ := not_or.mp hsoon
        exact .waits hwifi (Bool.of_not_eq_false hattempted) (not_le.mp hsoon)
    | true =>
      have hconnected : s.connected = true := (Bool.and_eq_true_iff.mp hsession).1
      have hs : ({ s with connected := true } : State) = s := by rw [← hconnected]
      simp only [Bool.true_eq_false, if_false, sinceLast_millis, hs]
      split
      · exact .tells hwifi hconnected _ rfl _
      · rename_i hfresh
        exact .services hwifi hconnected (not_le.mp hfresh)

/-- A pass is over with the button, or goes on to the connection. -/
theorem netLoop_elim {I : State → Prop} (hrunning : s.restarted = false)
    (hheld : ∀ s', Watched s p s' → s'.restarted = true → I s')
    (hkept : ∀ mid s', b.stored = false ∧ mid = s ∨ Watched s p mid → mid.restarted = false →
      Kept b mid p s' → I s') :
    I (netLoop b s p) := by
  unfold netLoop
  cases hstored : b.stored with
  | false =>
    simp only [Bool.false_eq_true, if_false, hrunning]
    exact hkept s _ (.inl ⟨hstored, rfl⟩) hrunning (kept b s p)
  | true =>
    simp only [if_true]
    split
    · rename_i hover
      exact hheld _ (watched s p) hover
    · rename_i hgoes
      exact hkept _ _ (.inr (watched s p)) (Bool.of_not_eq_true hgoes) (kept b _ p)

/-- A step is a wait or a pass, of a board that has not restarted. -/
theorem step_elim {e : Event} {s' : State} {I : State → Prop} (h : step b s e = some s')
    (hwait : ∀ ms, e = .wait ms → I (s.wait ms))
    (hpass : ∀ p, e = .pass p → s.restarted = false → I ((netLoop b s p).close s p)) : I s' := by
  unfold step at h
  split at h
  · cases h
  · rename_i hrunning
    cases e with
    | wait ms =>
      obtain rfl := Option.some.inj h
      exact hwait ms rfl
    | pass p =>
      obtain rfl := Option.some.inj h
      exact hpass p rfl (Bool.of_not_eq_true hrunning)

/-- What the button and the connection both leave true is true in every run. -/
theorem net_invariant {Ok : State → Event → Prop} {I : State → Prop}
    (h : Reaches (step b) Ok {} s) (h0 : I {}) (hwait : ∀ s ms, I s → I (s.wait ms))
    (hwatched : ∀ s p s', I s → Watched s p s' → I s')
    (hkept : ∀ s p s', I s → Kept b s p s' → I s')
    (hclose : ∀ s' s p, I s' → I (s'.close s p)) : I s := by
  refine h.invariant h0 fun s e s' ih _ hs => step_elim hs (fun ms _ => hwait s ms ih) ?_
  refine fun p _ hrunning => hclose _ _ _ (netLoop_elim hrunning (fun s' hw _ => ?_) ?_)
  · exact hwatched s p s' ih hw
  · rintro mid s' (⟨-, rfl⟩ | hw) _ hk
    · exact hkept _ p s' ih hk
    · exact hkept mid p s' (hwatched s p mid ih hw) hk

end

/-! ## Attempts -/

/-- An attempt comes two seconds or more after every one before it. -/
def Spaced (before : List Entry) (entry : Entry) : Prop :=
  ∀ time, entry = .attempt time → ∀ earlier, .attempt earlier ∈ before →
    earlier + mqttRetryMs ≤ time

/-- The board remembers its last attempt. -/
structure Attempts (s : State) : Prop where
  none : s.mqttAttempted = false → ∀ time, .attempt time ∉ s.log
  last : s.mqttAttempted = true → ∃ last, s.lastMqttAttemptMs = last % 2 ^ 32 ∧ last ≤ s.clock ∧
    ∀ time, .attempt time ∈ s.log → time ≤ last
  spaced : Every Spaced s.log

theorem spaced_silent {before : List Entry} {entry : Entry} (h : ∀ time, entry ≠ .attempt time) :
    Spaced before entry :=
  fun time heq => absurd heq (h time)

section

variable {b : Build} {s s' : State} {p : Pass}

/-- Entries that are no attempts change nothing. -/
theorem Attempts.quiet (h : Attempts s) {entry : Entry} (hentry : ∀ time, entry ≠ .attempt time)
    (hattempted : s'.mqttAttempted = s.mqttAttempted)
    (hlast : s'.lastMqttAttemptMs = s.lastMqttAttemptMs) (hclock : s.clock ≤ s'.clock)
    (hlog : s'.log = s.log ++ [entry]) : Attempts s' := by
  have hmem : ∀ time, .attempt time ∈ s'.log ↔ .attempt time ∈ s.log := by
    intro time
    rw [hlog, List.mem_append, List.mem_singleton, or_iff_left (hentry time).symm]
  constructor
  · intro hnone time
    rw [hmem]
    exact h.none (hattempted ▸ hnone) time
  · intro hsome
    obtain ⟨last, heq, hle, hmax⟩ := h.last (hattempted ▸ hsome)
    exact ⟨last, hlast.trans heq, hle.trans hclock, fun time htime => hmax time ((hmem time).mp htime)⟩
  · rw [hlog]
    exact h.spaced.snoc (spaced_silent hentry)

/-- The next attempt is far enough from the last. -/
theorem Attempts.next (h : Attempts s) {time : Int} {ms : Nat} (htime : s.clock + ms ≤ time)
    (due : s.mqttAttempted = true →
      mqttRetryMs ≤ sinceLast (s.clock + ms) s.lastMqttAttemptMs)
    (hattempted : s'.mqttAttempted = true) (hlast : s'.lastMqttAttemptMs = time % 2 ^ 32)
    (hclock : time ≤ s'.clock) (hlog : s'.log = s.log ++ [.attempt time]) : Attempts s' := by
  have hearlier : ∀ earlier, .attempt earlier ∈ s.log → earlier + mqttRetryMs ≤ time := by
    intro earlier hmem
    cases hbefore : s.mqttAttempted with
    | false => exact absurd hmem (h.none hbefore earlier)
    | true =>
      obtain ⟨last, heq, hle, hmax⟩ := h.last hbefore
      have hdue := due hbefore
      have hms : last ≤ s.clock + ms := hle.trans (le_wait _ _)
      rw [heq, ← sinceLast_wrapped, Int.emod_emod_of_dvd _ (dvd_refl _), sinceLast_wrapped] at hdue
      have hreal := hdue.trans (sinceLast_le hms)
      have hmax' := hmax earlier hmem
      omega
  constructor
  · intro hnone
    rw [hattempted] at hnone
    cases hnone
  · intro _
    refine ⟨time, hlast, hclock, fun other hother => ?_⟩
    rw [hlog] at hother
    rcases List.mem_append.mp hother with hold | hnew
    · have hspace := hearlier other hold
      unfold mqttRetryMs at hspace
      omega
    · exact (Entry.attempt.inj (List.mem_singleton.mp hnew)).le
  · rw [hlog]
    refine h.spaced.snoc fun time' heq earlier hmem => ?_
    obtain rfl := Entry.attempt.inj heq
    exact hearlier earlier hmem

theorem attempts_watched (h : Attempts s) (hw : Watched s p s') : Attempts s' := by
  have hlater : s.clock ≤ s.clock + p.holding := le_wait _ _
  cases hw with
  | up => exact h.quiet (by simp) rfl rfl le_rfl rfl
  | down => exact h.quiet (by simp) rfl rfl hlater rfl
  | held =>
    have hdown : Attempts { s with log := s.log ++ [.button s.clock true] } :=
      h.quiet (by simp) rfl rfl le_rfl rfl
    exact hdown.quiet (by simp) rfl rfl hlater rfl

theorem attempts_kept (h : Attempts s) (hk : Kept b s p s') : Attempts s' := by
  cases hk with
  | offline => exact h
  | waits =>
    refine { h with last := fun hsome => ?_ }
    obtain ⟨last, heq, hle, hmax⟩ := h.last hsome
    exact ⟨last, heq, hle.trans (le_wait _ _), hmax⟩
  | refused _ time htime due =>
    exact h.next (by omega) due rfl rfl (le_wait _ _) rfl
  | opens _ time told htime htold payload due =>
    have hattempt : Attempts { s with
        clock := time
        mqttAttempted := true
        lastMqttAttemptMs := time % 2 ^ 32
        log := s.log ++ [.attempt time] } := h.next (by omega) due rfl rfl le_rfl rfl
    have hopened : Attempts { s with
        clock := time
        mqttAttempted := true
        lastMqttAttemptMs := time % 2 ^ 32
        log := s.log ++ [.attempt time] ++ [.opened (time + p.connecting)] } :=
      hattempt.quiet (by simp) rfl rfl le_rfl rfl
    exact hopened.quiet (by simp) rfl rfl (by dsimp only; omega) rfl
  | services =>
    exact h.quiet (by simp) rfl rfl (le_wait _ _) rfl
  | tells _ _ told htold =>
    have hserviced : Attempts { s with log := s.log ++ [.serviced s.clock] } :=
      h.quiet (by simp) rfl rfl le_rfl rfl
    exact hserviced.quiet (by simp) rfl rfl (by dsimp only; omega) rfl

/-- **The broker is given two seconds between attempts**, in every run, however often the clock
wraps. -/
theorem attempts_spaced (h : Reaches (step b) Always {} s) : Every Spaced s.log := by
  have hattempts : Attempts s := by
    refine net_invariant h ⟨fun _ _ => nofun, nofun, every_nil⟩ (fun s ms ih => ?_)
      (fun _ _ _ => attempts_watched) (fun _ _ _ => attempts_kept) fun s' _ _ ih => { ih with }
    refine { ih with last := fun hsome => ?_ }
    obtain ⟨last, heq, hle, hmax⟩ := ih.last hsome
    exact ⟨last, heq, hle.trans (le_wait _ _), hmax⟩
  exact hattempts.spaced

end

/-- A board that is switched on, loses its session and comes back. -/
def comesBack : List Event :=
  [.pass { connecting := 700 }, .wait 40000, .pass {}, .wait 25000, .pass { servicing := 5 },
    .wait 10, .pass { session := false, accepted := false }, .wait 900, .pass {}]

def backState : State := (run (step ⟨true, "0.7.0"⟩) {} comesBack).getD {}

theorem attempts_spaced_comesBack : Every Spaced backState.log := by
  have hrun : run (step ⟨true, "0.7.0"⟩) {} comesBack = some backState := by decide +kernel
  exact attempts_spaced (.of_run hrun)

/-! ## The status -/

/-- The session had a status at `last`. -/
def ToldAt (log : List Entry) (last : Int) : Prop :=
  ∃ early late payload sent, log = early ++ .status last payload sent :: late ∧
    ∀ time, .opened time ∉ late

/-- A session that is dealt with has a status that is not much older than a minute. -/
def Fresh (gap : Int) (before : List Entry) (entry : Entry) : Prop :=
  ∀ time, entry = .serviced time →
    ∃ last, ToldAt before last ∧ last ≤ time ∧ time < last + statusIntervalMs + gap

structure Told (gap : Int) (s : State) : Prop where
  session : s.connected = true → ∃ last, ToldAt s.log last ∧ s.lastStatusMs = last % 2 ^ 32 ∧
    last ≤ s.clock ∧ s.looked < last + statusIntervalMs
  fresh : Every (Fresh gap) s.log

theorem fresh_silent {gap : Int} {before : List Entry} {entry : Entry}
    (h : ∀ time, entry ≠ .serviced time) : Fresh gap before entry :=
  fun time heq => absurd heq (h time)

theorem toldAt_snoc (log : List Entry) (last : Int) (payload : String) (sent : Bool) :
    ToldAt (log ++ [.status last payload sent]) last :=
  ⟨log, [], payload, sent, rfl, fun _ => List.not_mem_nil⟩

theorem ToldAt.append {log : List Entry} {last : Int} (h : ToldAt log last) {entry : Entry}
    (hentry : ∀ time, entry ≠ .opened time) : ToldAt (log ++ [entry]) last := by
  obtain ⟨early, late, payload, sent, rfl, hlate⟩ := h
  refine ⟨early, late ++ [entry], payload, sent, by simp, fun time hmem => ?_⟩
  rcases List.mem_append.mp hmem with hold | hnew
  · exact hlate time hold
  · exact hentry time (List.mem_singleton.mp hnew).symm

section

variable {b : Build} {gap : Int} {s s' : State} {p : Pass}

theorem looked_watched (hw : Watched s p s') : s'.looked = s.looked ∧ s'.ended = s.ended := by
  cases hw <;> exact ⟨rfl, rfl⟩

theorem clock_watched (hw : Watched s p s') : s.clock ≤ s'.clock := by
  cases hw with
  | up => exact le_rfl
  | down => exact le_wait _ _
  | held => exact le_wait _ _

theorem clock_kept (hk : Kept b s p s') : s.clock ≤ s'.clock := by
  cases hk with
  | offline => exact le_rfl
  | waits => exact le_wait _ _
  | services => exact le_wait _ _
  | refused _ time htime =>
    have hlater : s.clock ≤ time := by omega
    exact hlater.trans (le_wait _ _)
  | opens _ time told htime htold =>
    have hlater : s.clock ≤ told := by omega
    exact hlater
  | tells _ _ told htold =>
    have hlater : s.clock ≤ told := by omega
    exact hlater

theorem looked_kept (hk : Kept b s p s') : s'.looked = s.looked ∧ s'.ended = s.ended := by
  cases hk <;> exact ⟨rfl, rfl⟩

/-- The button leaves the session alone. -/
theorem told_watched (h : Told gap s) (hw : Watched s p s') : Told gap s' := by
  have hquiet : ∀ {log : List Entry} {entry : Entry}, Every (Fresh gap) log →
      (∀ time, entry ≠ .serviced time) → Every (Fresh gap) (log ++ [entry]) :=
    fun hlog hentry => hlog.snoc (fresh_silent hentry)
  have hclock := clock_watched hw
  constructor
  · intro hconnected
    have hconnected' : s.connected = true := by
      cases hw <;> exact hconnected
    obtain ⟨last, htold, heq, hle, hlooked⟩ := h.session hconnected'
    refine ⟨last, ?_, ?_, hle.trans hclock, (looked_watched hw).1 ▸ hlooked⟩
    · cases hw with
      | up => exact htold.append (by simp)
      | down => exact htold.append (by simp)
      | held => exact (htold.append (by simp)).append (by simp)
    · cases hw <;> exact heq
  · cases hw with
    | up => exact hquiet h.fresh (by simp)
    | down => exact hquiet h.fresh (by simp)
    | held => exact hquiet (hquiet h.fresh (by simp)) (by simp)

/-- What is dealt with now had a status not long ago. -/
theorem Told.serviced (h : Told gap s) (hconnected : s.connected = true)
    (hlater : s.clock ≤ s.looked + gap) : Every (Fresh gap) (s.log ++ [.serviced s.clock]) := by
  refine h.fresh.snoc fun time heq => ?_
  obtain rfl := Entry.serviced.inj heq
  obtain ⟨last, htold, -, hle, hlooked⟩ := h.session hconnected
  exact ⟨last, htold, hle, by omega⟩

theorem told_kept (hgap : gap + statusIntervalMs ≤ 2 ^ 32) (h : Told gap s) (hk : Kept b s p s')
    (hlater : p.wifi = true → s'.clock ≤ s.looked + gap) {before : State}
    (hbefore : before.looked = s.looked) (hrunning : s'.restarted = false) :
    Told gap (s'.close before p) := by
  have hlooked : (s'.close before p).looked = if p.wifi = true then s'.clock else s.looked := by
    simp only [State.close, hrunning, hbefore, and_true]
  cases hk with
  | offline wifi =>
    simp only [wifi, Bool.false_eq_true, if_false] at hlooked
    refine ⟨fun hconnected => ?_, h.fresh⟩
    rw [hlooked]
    exact h.session hconnected
  | waits => exact ⟨nofun, h.fresh⟩
  | refused => exact ⟨nofun, h.fresh.snoc (fresh_silent (by simp))⟩
  | opens wifi time told htime htold payload =>
    simp only [wifi, if_true] at hlooked
    constructor
    · refine fun _ => ⟨told, toldAt_snoc _ _ _ _, rfl, le_rfl, ?_⟩
      rw [hlooked]
      exact Int.lt_add_of_pos_right _ (by decide)
    · have hattempt : Every (Fresh gap) (s.log ++ [.attempt time]) :=
        h.fresh.snoc (fresh_silent (by simp))
      have hopened : Every (Fresh gap)
          (s.log ++ [.attempt time] ++ [.opened (time + p.connecting)]) :=
        hattempt.snoc (fresh_silent (by simp))
      exact hopened.snoc (fresh_silent (by simp))
  | services wifi session fresh =>
    simp only [wifi, if_true] at hlooked
    obtain ⟨last, htold, heq, hle, hbefore⟩ := h.session session
    have hend := hlater wifi
    dsimp only at hend
    constructor
    · refine fun _ => ⟨last, htold.append (by simp), heq, hle.trans (le_wait _ _), ?_⟩
      -- The clocks are less than one turn apart, so the 32-bit difference is the true one.
      rw [heq, sinceLast, Int.sub_emod_emod, ← sinceLast,
        sinceLast_eq (by omega) (by omega)] at fresh
      rw [hlooked]
      omega
    · exact h.serviced session (by omega)
  | tells wifi session told htold payload =>
    simp only [wifi, if_true] at hlooked
    have hend := hlater wifi
    dsimp only at hend
    constructor
    · refine fun _ => ⟨told, toldAt_snoc _ _ _ _, rfl, le_rfl, ?_⟩
      rw [hlooked]
      exact Int.lt_add_of_pos_right _ (by decide)
    · exact (h.serviced session (by omega)).snoc (fresh_silent (by simp))

theorem restarted_kept (hk : Kept b s p s') : s'.restarted = s.restarted := by
  cases hk <;> rfl

/-- **Whoever deals with a session has told its status in the last minute**, give or take the gap
between two passes: each session begins with one, and the next comes in time. -/
theorem status_fresh (hgap : gap + statusIntervalMs ≤ 2 ^ 32)
    (h : Reaches (step b) (Online b gap) {} s) : Every (Fresh gap) s.log := by
  refine Told.fresh (h.invariant (I := Told gap) ⟨nofun, every_nil⟩ fun s e s' ih hok hs => ?_)
  refine step_elim hs (fun ms _ => { ih with session := fun hconnected => ?_ }) fun p he hrunning => ?_
  · obtain ⟨last, htold, heq, hle, hlooked⟩ := ih.session hconnected
    exact ⟨last, htold, heq, hle.trans (le_wait _ _), hlooked⟩
  · subst he
    have hlater : p.wifi = true → (netLoop b s p).clock ≤ s.looked + gap := hok
    revert hlater
    refine netLoop_elim (I := fun s' => (p.wifi = true → s'.clock ≤ s.looked + gap) →
      Told gap (s'.close s p)) hrunning (fun s' hw hover _ => ?_)
      fun mid s' hmid hgoes hk hlater => ?_
    · have htold := told_watched ih hw
      refine { htold with session := fun hconnected => ?_ }
      obtain ⟨last, hat, heq, hle, hlooked⟩ := htold.session hconnected
      have hclosed : (s'.close s p).looked = s'.looked := by
        simp only [State.close, hover, Bool.true_eq_false, and_false, if_false]
        exact (looked_watched hw).1.symm
      exact ⟨last, hat, heq, hle, hclosed ▸ hlooked⟩
    · have hmid' : mid.looked = s.looked ∧ Told gap mid := by
        rcases hmid with ⟨-, rfl⟩ | hw
        · exact ⟨rfl, ih⟩
        · exact ⟨(looked_watched hw).1, told_watched ih hw⟩
      rw [← hmid'.1] at hlater
      exact told_kept hgap hmid'.2 hk hlater hmid'.1.symm ((restarted_kept hk).trans hgoes)

end

theorem status_fresh_comesBack : Every (Fresh 40000) backState.log := by
  have hrun : run (guarded (step ⟨true, "0.7.0"⟩) (Online ⟨true, "0.7.0"⟩ 40000)) {} comesBack =
      some backState := by decide +kernel
  exact status_fresh (by decide) (.of_run_guarded hrun)

/-! ## The reset button -/

/-- The button has been down at every pass since `since`. A time at which the clock shows 0 does
not count: the code takes 0 for "not down". -/
def DownSince (log : List Entry) (since : Int) : Prop :=
  since % 2 ^ 32 ≠ 0 ∧ ∃ early late, log = early ++ .button since true :: late ∧
    ∀ time, .button time false ∉ late

section

variable {log : List Entry} {entry : Entry} {since time : Int}

theorem downSince_append (hentry : ∀ time low, entry ≠ .button time low) :
    DownSince (log ++ [entry]) since ↔ DownSince log since := by
  constructor
  · rintro ⟨hshown, early, late, hlog, hlate⟩
    rcases cut_snoc hlog with ⟨-, -, heq⟩ | ⟨late', rfl, hcut⟩
    · exact absurd heq.symm (hentry since true)
    · exact ⟨hshown, early, late', hcut, fun time hmem => hlate time (List.mem_append_left _ hmem)⟩
  · rintro ⟨hshown, early, late, rfl, hlate⟩
    refine ⟨hshown, early, late ++ [entry], by simp, fun time hmem => ?_⟩
    rcases List.mem_append.mp hmem with hold | hnew
    · exact hlate time hold
    · exact hentry time false (List.mem_singleton.mp hnew).symm

theorem not_downSince_up : ¬ DownSince (log ++ [.button time false]) since := by
  rintro ⟨-, early, late, hlog, hlate⟩
  rcases cut_snoc hlog with ⟨-, -, heq⟩ | ⟨late', rfl, -⟩
  · cases heq
  · exact hlate time (List.mem_append_right _ (List.mem_singleton_self _))

theorem downSince_down : DownSince (log ++ [.button time true]) since ↔
    DownSince log since ∨ since = time ∧ time % 2 ^ 32 ≠ 0 := by
  constructor
  · rintro ⟨hshown, early, late, hlog, hlate⟩
    rcases cut_snoc hlog with ⟨-, -, heq⟩ | ⟨late', rfl, hcut⟩
    · obtain ⟨rfl, -⟩ := Entry.button.inj heq
      exact .inr ⟨rfl, hshown⟩
    · exact .inl
        ⟨hshown, early, late', hcut, fun time hmem => hlate time (List.mem_append_left _ hmem)⟩
  · rintro (⟨hshown, early, late, rfl, hlate⟩ | ⟨rfl, hshown⟩)
    · refine ⟨hshown, early, late ++ [.button time true], by simp, fun other hmem => ?_⟩
      rcases List.mem_append.mp hmem with hold | hnew
      · exact hlate other hold
      · cases List.mem_singleton.mp hnew
    · exact ⟨hshown, log, [], rfl, fun _ => List.not_mem_nil⟩

end

/-- `resetDownSince` is the first time since which the button has been down. -/
structure Counting (slack : Int) (s : State) : Prop where
  none : s.resetDownSince = 0 → ∀ since, ¬ DownSince s.log since
  some : s.resetDownSince ≠ 0 → ∃ since, DownSince s.log since ∧
    s.resetDownSince = since % 2 ^ 32 ∧ since ≤ s.clock ∧
    (∀ other, DownSince s.log other → since ≤ other) ∧ s.ended < since + resetHoldMs + slack
  ended : s.ended ≤ s.clock

/-- What counts at a pass that finds the button down: the pass itself, or an earlier time. -/
def CountsAt (s : State) (since : Int) : Prop := DownSince s.log since ∨ since = s.clock

section

variable {b : Build} {gap : Int} {s s' : State} {p : Pass}

/-- What the board counts from, and how long it thinks that has been. -/
theorem Counting.counted (h : Counting gap s) (hgap : 2 * gap + resetHoldMs ≤ 2 ^ 32) {now : Int}
    (hnow : s.clock ≤ now) (hsoon : now ≤ s.ended + gap) :
    ∃ since, CountsAt s since ∧ (∀ other, CountsAt s other → since ≤ other) ∧
      s.countsFrom = since % 2 ^ 32 ∧ sinceLast now s.countsFrom = now - since := by
  have hend := h.ended
  unfold resetHoldMs at hgap
  have hwrapped : ∀ since, sinceLast now (since % 2 ^ 32) = sinceLast now since := by
    intro since
    rw [sinceLast, Int.sub_emod_emod, ← sinceLast]
  by_cases hzero : s.resetDownSince = 0
  · have hfrom : s.countsFrom = s.clock % 2 ^ 32 := if_pos hzero
    refine ⟨s.clock, .inr rfl, ?_, hfrom, ?_⟩
    · rintro other (hother | rfl)
      · exact absurd hother (h.none hzero other)
      · exact le_rfl
    · rw [hfrom, hwrapped]
      exact sinceLast_eq hnow (by omega)
  · obtain ⟨since, hdown, heq, hle, hfirst, hsince⟩ := h.some hzero
    unfold resetHoldMs at hsince
    have hfrom : s.countsFrom = since % 2 ^ 32 := (if_neg hzero).trans heq
    refine ⟨since, .inl hdown, ?_, hfrom, ?_⟩
    · rintro other (hother | rfl)
      · exact hfirst other hother
      · exact hle
    · rw [hfrom, hwrapped]
      exact sinceLast_eq (hle.trans hnow) (by omega)

/-- The button that is up starts over; the one that has not been down for long goes on. -/
theorem counting_watched (h : Counting gap s) (hgap : 2 * gap + resetHoldMs ≤ 2 ^ 32)
    (hw : Watched s p s') (hsoon : s'.clock ≤ s.ended + gap) (hrunning : s'.restarted = false) :
    Counting 0 s' := by
  have hend := h.ended
  cases hw with
  | up => exact ⟨fun _ _ => not_downSince_up, fun hne => absurd rfl hne, hend⟩
  | held => cases hrunning
  | down low short =>
    dsimp only at hsoon
    have hnow : s.clock ≤ s.clock + p.holding := le_wait _ _
    obtain ⟨since, hcounts, hfirst, hfrom, hlong⟩ := h.counted hgap hnow hsoon
    rw [hlong] at short
    have hle : since ≤ s.clock := hfirst s.clock (.inr rfl)
    refine ⟨fun hzero other hdown => ?_, fun hne => ?_, hend.trans hnow⟩
    · dsimp only at hzero hdown
      rcases downSince_down.mp hdown with hold | ⟨-, hshown⟩
      · by_cases hbefore : s.resetDownSince = 0
        · exact h.none hbefore other hold
        · exact hbefore ((if_neg hbefore).symm.trans hzero)
      · by_cases hbefore : s.resetDownSince = 0
        · exact hshown ((if_pos hbefore).symm.trans hzero)
        · exact hbefore ((if_neg hbefore).symm.trans hzero)
    · dsimp only at hne ⊢
      rw [hfrom] at hne
      refine ⟨since, downSince_down.mpr ?_, hfrom, hle.trans hnow, fun other hother => ?_, ?_⟩
      · exact hcounts.imp_right fun heq => ⟨heq, heq ▸ hne⟩
      · exact hfirst other ((downSince_down.mp hother).imp_right And.left)
      · omega

/-- The connection leaves the button alone. -/
theorem counting_kept {slack : Int} (h : Counting slack s) (hk : Kept b s p s') :
    Counting slack s' := by
  have hdown : ∀ since, DownSince s'.log since ↔ DownSince s.log since := by
    intro since
    cases hk with
    | offline => rfl
    | waits => rfl
    | refused => exact downSince_append (by simp)
    | opens =>
      exact (downSince_append (by simp)).trans
        ((downSince_append (by simp)).trans (downSince_append (by simp)))
    | services => exact downSince_append (by simp)
    | tells => exact (downSince_append (by simp)).trans (downSince_append (by simp))
  have hreset : s'.resetDownSince = s.resetDownSince := by
    cases hk <;> rfl
  have hclock := clock_kept hk
  constructor
  · intro hzero since hsince
    exact h.none (hreset ▸ hzero) since ((hdown since).mp hsince)
  · intro hne
    obtain ⟨since, hat, heq, hle, hfirst, hsince⟩ := h.some (hreset ▸ hne)
    exact ⟨since, (hdown since).mpr hat, hreset.trans heq, hle.trans hclock,
      fun other hother => hfirst other ((hdown other).mp hother), (looked_kept hk).2 ▸ hsince⟩
  · rw [(looked_kept hk).2]
    exact h.ended.trans hclock

theorem counting_reaches (hgap : 2 * gap + resetHoldMs ≤ 2 ^ 32) (hstored : b.stored = true)
    (h : Reaches (step b) (Prompt b gap) {} s) : s.restarted = false → Counting gap s := by
  refine h.invariant (I := fun s => s.restarted = false → Counting gap s) (fun _ => ?_)
    fun s e s' ih hok hs => ?_
  · exact ⟨fun _ _ hdown => by obtain ⟨-, early, late, hlog, -⟩ := hdown; simp at hlog,
      fun hne => absurd rfl hne, le_rfl⟩
  · refine step_elim (I := fun s' => s'.restarted = false → Counting gap s') hs
      (fun ms _ hrunning => ?_) fun p he hrunning => ?_
    · have hold := ih hrunning
      refine { hold with some := fun hne => ?_, ended := hold.ended.trans (le_wait _ _) }
      obtain ⟨since, hat, heq, hle, hrest⟩ := hold.some hne
      exact ⟨since, hat, heq, hle.trans (le_wait _ _), hrest⟩
    · subst he
      have hold := ih hrunning
      have hsoon : (netLoop b s p).clock ≤ s.ended + gap := hok
      revert hsoon
      refine netLoop_elim (I := fun s' => s'.clock ≤ s.ended + gap → s'.restarted = false →
        Counting gap (s'.close s p)) hrunning (fun s' _ hover _ hgoes => ?_)
        fun mid s' hmid hgoes hk hsoon _ => ?_
      · rw [hover] at hgoes
        cases hgoes
      · rcases hmid with ⟨hnot, -⟩ | hw
        · rw [hstored] at hnot
          cases hnot
        · have hmid := counting_watched hold hgap hw ((clock_kept hk).trans hsoon) hgoes
          have hkept := counting_kept hmid hk
          refine { hkept with some := fun hne => ?_, ended := le_rfl }
          obtain ⟨since, hat, heq, hle, hfirst, hsince⟩ := hkept.some hne
          rw [(looked_kept hk).2, (looked_watched hw).2] at hsince
          refine ⟨since, hat, heq, hle, hfirst, ?_⟩
          dsimp only [State.close]
          omega

/-- **The board forgets its Wi-Fi exactly when the button has been down for five seconds**: at a
pass that finds it down, and at every pass since a time five seconds ago. -/
theorem forgets_iff (hgap : 2 * gap + resetHoldMs ≤ 2 ^ 32) (hstored : b.stored = true)
    (h : Reaches (step b) (Prompt b gap) {} s) (hrunning : s.restarted = false)
    (hok : Prompt b gap s (.pass p)) : (netLoop b s p).restarted = true ↔
      p.low = true ∧ ∃ since, CountsAt s since ∧ since + resetHoldMs ≤ s.clock + p.holding := by
  have hcounting := counting_reaches hgap hstored h hrunning
  have hsoon : (netLoop b s p).clock ≤ s.ended + gap := hok
  have hnow : s.clock ≤ s.clock + p.holding := le_wait _ _
  revert hsoon
  refine netLoop_elim (I := fun s' => s'.clock ≤ s.ended + gap → (s'.restarted = true ↔
      p.low = true ∧ ∃ since, CountsAt s since ∧ since + resetHoldMs ≤ s.clock + p.holding))
    hrunning (fun s' hw hover hsoon => iff_of_true hover ?_)
    fun mid s' hmid hgoes hk hsoon => iff_of_false ?_ ?_
  · cases hw with
    | up => rw [hrunning] at hover; cases hover
    | down => rw [hrunning] at hover; cases hover
    | held low long =>
      obtain ⟨since, hcounts, -, -, hlong⟩ := hcounting.counted hgap hnow hsoon
      rw [hlong] at long
      exact ⟨low, since, hcounts, by omega⟩
  · rw [restarted_kept hk, hgoes]
    exact Bool.false_ne_true
  · rintro ⟨hlow, since, hcounts, hlong⟩
    rcases hmid with ⟨hnot, -⟩ | hw
    · rw [hstored] at hnot
      cases hnot
    · cases hw with
      | up low =>
        rw [low] at hlow
        cases hlow
      | held => cases hgoes
      | down low short =>
        have hsoon' : s.clock + p.holding ≤ s.ended + gap := (clock_kept hk).trans hsoon
        obtain ⟨first, -, hfirst, -, hreal⟩ := hcounting.counted hgap hnow hsoon'
        rw [hreal] at short
        have hle := hfirst since hcounts
        omega

end

/-- The button is let go once, and then held. -/
def holds : List Event :=
  [.wait 100, .pass { low := true, wifi := false }, .wait 3000, .pass { wifi := false }, .wait 10,
    .pass { low := true, wifi := false }, .wait 2500, .pass { low := true, wifi := false },
    .wait 2500]

def heldState : State := (run (step ⟨true, "0.7.0"⟩) {} holds).getD {}

theorem forgets_iff_holds :
    (netLoop ⟨true, "0.7.0"⟩ heldState { low := true, wifi := false }).restarted = true ∧
      (netLoop ⟨true, "0.7.0"⟩ heldState { wifi := false }).restarted = false := by
  have hrun : run (guarded (step ⟨true, "0.7.0"⟩) (Prompt ⟨true, "0.7.0"⟩ 4000)) {} holds =
      some heldState := by decide +kernel
  have hreach := Reaches.of_run_guarded hrun
  constructor
  · refine (forgets_iff (by decide) rfl hreach (by decide) (by decide)).mpr
      ⟨rfl, 3110, .inl ⟨by decide, ?_⟩, by decide⟩
    exact ⟨[.button 100 true, .button 3100 false], [.button 5610 true], by decide, by simp⟩
  · refine Bool.of_not_eq_true fun hrestarted => ?_
    cases ((forgets_iff (by decide) rfl hreach (by decide) (by decide)).mp hrestarted).1

end IotSaas.Firmware.Net
