import IotSaas.Rules.Admission
import IotSaas.Worker.Ingest
import Mathlib.Data.List.Nodup

/-!
# `Worker/Flapping.lean` — cooldown and hold, in arrival time

`evaluate` measures cooldown and hold on the clock it is given, and on the hot path that clock is
the reading's own timestamp. So the policy's seconds are seconds of arrival exactly as far as the
timestamps keep up with the arrivals: if between two readings the rule hears the timestamps never
gain on the arrivals (`NeverGains`), what `Admission.lean` proves about the one carries over to
the other. A device that stamps two readings ten minutes apart and sends them in the same second
is outside that condition, and gets its relay to cycle in that second.
-/

set_option autoImplicit false

namespace IotSaas.Worker

open Lib Rules Ingestion

variable {F : Type} [PyFloat F]

/-- The evaluation dispatched a fire. -/
def Stamped.Fired (e : Stamped F) : Prop :=
  ∃ firing, e.entry.firing = some firing ∧ firing.edge = .fire

/-- The policy of `rule`, kept in arrival time. `log` lists the rule's evaluations in order. -/
structure NoFlapping (rule : Rule F) (log : List (Stamped F)) : Prop where
  cooled : ∀ (i j : Nat) (a b : Stamped F), i < j → log[i]? = some a → log[j]? = some b →
    a.Fired → b.Fired → seconds rule.executionPolicy.cooldown ≤ elapsed b.arrival a.arrival
  held : ∀ (j : Nat) (b : Stamped F), log[j]? = some b → b.Fired →
    ∃ (i : Nat) (a : Stamped F), i ≤ j ∧ log[i]? = some a ∧
    seconds rule.executionPolicy.forDuration ≤ elapsed b.arrival a.arrival ∧
    ∀ (k : Nat) (e : Stamped F), i ≤ k → k ≤ j → log[k]? = some e → e.entry.tree = some true

/-- Between two messages the rule hears, no more reading time passes than arrival time. -/
def NeverGains (modelValidateJson : List UInt8 → Option (TelemetryPayload F)) (rule : Rule F)
    (messages : List Message) : Prop :=
  (messages.filterMap (heard modelValidateJson rule)).Pairwise
    fun a b => elapsed b.2 a.2 ≤ elapsed b.1 a.1

omit [PyFloat F] in
/-- Readings that carry no timestamp of their own never gain. -/
theorem neverGains_of_unstamped
    {modelValidateJson : List UInt8 → Option (TelemetryPayload F)} {rule : Rule F}
    {messages : List Message}
    (h : ∀ message ∈ messages, ∀ data, modelValidateJson message.payload = some data →
      data.timestamp = none) :
    NeverGains modelValidateJson rule messages := by
  refine List.Pairwise.imp_of_mem (R := fun _ _ => True) (fun {a b} ha hb _ => ?_)
    (List.pairwise_of_forall fun _ _ => trivial)
  have hown : ∀ stamp ∈ messages.filterMap (heard modelValidateJson rule),
      stamp.2 = stamp.1 := by
    intro stamp hs
    obtain ⟨message, hmem, hm⟩ := List.mem_filterMap.mp hs
    unfold heard at hm
    split at hm
    · rename_i topic device data hroute
      have hdata : data.timestamp = none := by
        unfold route at hroute
        repeat' split at hroute
        all_goals cases hroute
        exact h message hmem _ ‹_›
      split at hm
      · rw [readingTime, hdata] at hm
        cases hm
        rfl
      · cases hm
    all_goals cases hm
  simp only [hown a ha, hown b hb, Int.le_refl]

/-! ## Positions -/

theorem pairwise_at {α : Type} {R : α → α → Prop} {l : List α} (h : l.Pairwise R) {i j : Nat}
    {a b : α} (hij : i < j) (hi : l[i]? = some a) (hj : l[j]? = some b) : R a b := by
  obtain ⟨hi', rfl⟩ := List.getElem?_eq_some_iff.mp hi
  obtain ⟨hj', rfl⟩ := List.getElem?_eq_some_iff.mp hj
  exact List.pairwise_iff_getElem.mp h i j hi' hj' hij

section

variable {digest : Option (Node F) → Option (Node F) → String}
  {modelValidateJson : List UInt8 → Option (TelemetryPayload F)} {rows : List (Rule F)}
  {rule : Rule F} {messages : List Message} {worker : Rules.Worker F}

/-- The calls on the rule's state that a run makes: aligned once, then evaluated. -/
def callsOf (digest : Option (Node F) → Option (Node F) → String) (rule : Rule F)
    (log : List (Stamped F)) : List (Call F) :=
  .alignStateToCondition (conditionFingerprint digest rule) ::
    log.map fun e => e.entry.toCall

/-- Evaluation `n` of the rule is call `n + 1` on its state. -/
theorem evaluation_call (hload : Loaded digest rows worker) (hmem : rule ∈ rows)
    (hsame : ∀ row ∈ rows, row.id = rule.id → row = rule) {n : Nat} {e : Stamped F}
    (he : (evaluationsOf rule (ingest digest modelValidateJson messages worker).1)[n]? =
      some e) :
    ∃ m, CallAt (history (callsOf digest rule
        (evaluationsOf rule (ingest digest modelValidateJson messages worker).1))) (n + 1) m ∧
      m.event = e.entry.toCall ∧ m.out = e.entry.firing ∧ treeOf m = some e.entry.tree := by
  have hfp : worker.caches.ruleFingerprints.get rule.id =
      some (conditionFingerprint digest rule) := by
    rw [hload.caches]
    exact ruleFingerprints_of_mem hsame hmem
  have hrec := (ingest_follows digest modelValidateJson messages hfp).recorded
  have hentries : entriesOf rule.id
        ((ingest digest modelValidateJson messages worker).1.map Stamped.entry) =
      (evaluationsOf rule (ingest digest modelValidateJson messages worker).1).map
        Stamped.entry := by
    unfold entriesOf evaluationsOf
    rw [List.filter_map]
    rfl
  rw [hentries, alignedState, hload.states, Dict.getD_empty] at hrec
  have he' : ((evaluationsOf rule (ingest digest modelValidateJson messages worker).1).map
      Stamped.entry)[n]? = some e.entry := by
    rw [List.getElem?_map, he]
    rfl
  have h := hrec.history_callAt he'
  rw [List.map_map] at h
  exact h

/-- A call other than the first is one of the rule's evaluations. -/
theorem call_evaluation {log : List (Stamped F)} {n : Nat} {m : RuleCall F}
    (hm : CallAt (history (callsOf digest rule log)) n m)
    (hne : ∀ fingerprint, m.event ≠ .alignStateToCondition fingerprint) :
    ∃ (k : Nat) (e : Stamped F), n = k + 1 ∧ log[k]? = some e ∧ m.event = e.entry.toCall := by
  have hevent := trace_event hm
  cases n with
  | zero =>
    refine absurd ?_ (hne (conditionFingerprint digest rule))
    simpa [callsOf] using hevent.symm
  | succ k =>
    rw [callsOf, List.getElem?_cons_succ, List.getElem?_map] at hevent
    obtain ⟨e, hlog, hq⟩ := Option.map_eq_some_iff.mp hevent
    exact ⟨k, e, rfl, hlog, hq.symm⟩

/-- An alignment fires nothing. -/
theorem not_align_of_fires {calls : List (Call F)} {n : Nat} {m : RuleCall F}
    (hm : CallAt (history calls) n m) (hf : Fires m) (fingerprint : String) :
    m.event ≠ .alignStateToCondition fingerprint := by
  intro he
  obtain ⟨firing, hout, -⟩ := hf
  rw [callAt_out hm, he, callStep_align] at hout
  cases hout

omit [PyFloat F] in
/-- The messages' arrivals do not run backwards, so neither do those of the messages heard. -/
theorem heard_pairwise_le (hclock : (messages.map Message.arrival).Pairwise (· ≤ ·)) :
    (messages.filterMap (heard modelValidateJson rule)).Pairwise fun a b => a.1 ≤ b.1 := by
  rw [List.pairwise_filterMap]
  refine (List.pairwise_map.mp hclock).imp fun {m m'} hle a ha b hb => ?_
  rw [heard_arrival ha, heard_arrival hb]
  exact hle

/-! ## From calls to arrivals -/

/-- What is known of the log of a run: it holds evaluations of the one rule, each the next call on
its state, arrivals do not run backwards, and reading times never gain on them. -/
structure RunLog (digest : Option (Node F) → Option (Node F) → String) (rule : Rule F)
    (log : List (Stamped F)) : Prop where
  same : ∀ e ∈ log, e.entry.rule = rule
  call : ∀ (n : Nat) (e : Stamped F), log[n]? = some e →
    ∃ m, CallAt (history (callsOf digest rule log)) (n + 1) m ∧ m.event = e.entry.toCall ∧
      m.out = e.entry.firing ∧ treeOf m = some e.entry.tree
  arrivals : log.Pairwise fun a b => a.arrival ≤ b.arrival
  gains : log.Pairwise fun a b => elapsed b.entry.now a.entry.now ≤ elapsed b.arrival a.arrival

namespace RunLog

variable {log : List (Stamped F)}

theorem same_at (h : RunLog digest rule log) {n : Nat} {e : Stamped F} (he : log[n]? = some e) :
    e.entry.rule = rule :=
  h.same e (List.mem_of_getElem? he)

theorem arrivals_le (h : RunLog digest rule log) {i j : Nat} {a b : Stamped F} (hij : i ≤ j)
    (hi : log[i]? = some a) (hj : log[j]? = some b) : a.arrival ≤ b.arrival := by
  rcases Nat.lt_or_eq_of_le hij with hlt | rfl
  · exact pairwise_at h.arrivals hlt hi hj
  · obtain rfl := Option.some.inj (hi.symm.trans hj)
    exact Int.le_refl _

theorem gains_le (h : RunLog digest rule log) {i j : Nat} {a b : Stamped F} (hij : i ≤ j)
    (hi : log[i]? = some a) (hj : log[j]? = some b) :
    elapsed b.entry.now a.entry.now ≤ elapsed b.arrival a.arrival := by
  rcases Nat.lt_or_eq_of_le hij with hlt | rfl
  · exact pairwise_at h.gains hlt hi hj
  · obtain rfl := Option.some.inj (hi.symm.trans hj)
    simp only [elapsed, Int.sub_self, Int.le_refl]

theorem cooled (h : RunLog digest rule log) {i j : Nat} {a b : Stamped F} (hij : i < j)
    (hi : log[i]? = some a) (hj : log[j]? = some b) (hfa : a.Fired) (hfb : b.Fired) :
    seconds rule.executionPolicy.cooldown ≤ elapsed b.arrival a.arrival := by
  obtain ⟨mi, hmi, -, hoi, -⟩ := h.call i a hi
  obtain ⟨mj, hmj, hej, hoj, -⟩ := h.call j b hj
  -- the last fire before `j` comes no earlier than `i`
  obtain ⟨k, mk, hik, hkj, hmk, hfk, hno⟩ := exists_last Fires (Nat.succ_lt_succ hij) hmi
    (by unfold Fires; rw [hoi]; exact hfa)
  obtain ⟨k, c, rfl, hk, hek⟩ := call_evaluation hmk (not_align_of_fires hmk hfk)
  have hcool := fire_cooled hkj hmk hmj hfk (by unfold Fires; rw [hoj]; exact hfb) hno
    (by rw [hek]; rfl) (by rw [hej]; rfl)
  rw [h.same_at hj] at hcool
  have hstep := Int.le_trans hcool (h.gains_le (by omega) hk hj)
  exact Int.le_trans hstep (Int.sub_le_sub_left (h.arrivals_le (by omega) hi hk) b.arrival)

theorem held (h : RunLog digest rule log) {j : Nat} {b : Stamped F} (hj : log[j]? = some b)
    (hfb : b.Fired) : ∃ (i : Nat) (a : Stamped F), i ≤ j ∧ log[i]? = some a ∧
      seconds rule.executionPolicy.forDuration ≤ elapsed b.arrival a.arrival ∧
      ∀ (k : Nat) (e : Stamped F), i ≤ k → k ≤ j → log[k]? = some e →
        e.entry.tree = some true := by
  obtain ⟨mj, hmj, hej, hoj, -⟩ := h.call j b hj
  obtain ⟨i, mi, rule', snapshot', now', hij, hmi, hei, hlong, hheld⟩ :=
    fire_held hmj hej (by unfold Fires; rw [hoj]; exact hfb)
  obtain ⟨i, a, rfl, hi, hei'⟩ := call_evaluation hmi (fun fp => by rw [hei]; simp)
  obtain rfl : a.entry.now = now' := by
    have hq := hei.symm.trans hei'
    cases hq
    rfl
  rw [h.same_at hj] at hlong
  refine ⟨i, a, by omega, hi, Int.le_trans hlong (h.gains_le (by omega) hi hj), ?_⟩
  intro k e hik hkj hk
  obtain ⟨mk, hmk, -, -, htree⟩ := h.call k e hk
  exact (hheld (k + 1) mk (by omega) (by omega) hmk).1 _ htree

end RunLog

/-- **A rule cycles no faster than its policy, in arrival time,** if the timestamps it hears never
gain on their arrivals. Any number of devices and rules, any messages between, any policy. -/
theorem noFlapping_of_neverGains (hload : Loaded digest rows worker) (hmem : rule ∈ rows)
    (hids : (rows.map (·.id)).Nodup)
    (hclock : (messages.map Message.arrival).Pairwise (· ≤ ·))
    (hgain : NeverGains modelValidateJson rule messages) :
    NoFlapping rule
      (evaluationsOf rule (ingest digest modelValidateJson messages worker).1) := by
  have hsame : ∀ row ∈ rows, row.id = rule.id → row = rule := fun row hrow hid =>
    List.inj_on_of_nodup_map hids hrow hmem hid
  have hcache : worker.caches.ruleCache = (loadRuleCache digest rows).ruleCache := by
    rw [hload.caches]
  obtain ⟨hrule, harrival⟩ := ingest_pairwise digest modelValidateJson hsame
    (R := fun a b => a.1 ≤ b.1) (fun a => Int.le_refl a.1)
    messages hcache (heard_pairwise_le hclock)
  obtain ⟨-, hgained⟩ := ingest_pairwise digest modelValidateJson hsame
    (R := fun a b => elapsed b.2 a.2 ≤ elapsed b.1 a.1)
    (fun a => by simp only [elapsed, Int.sub_self, Int.le_refl])
    messages hcache hgain
  have hrun : RunLog digest rule
      (evaluationsOf rule (ingest digest modelValidateJson messages worker).1) :=
    ⟨fun e he => (hrule e he).1, fun n e he => evaluation_call hload hmem hsame he, harrival,
      hgained⟩
  exact ⟨fun i j a b hij hi hj hfa hfb => hrun.cooled hij hi hj hfa hfb,
    fun j b hj hfb => hrun.held hj hfb⟩

end

/-! ## A relay to cycle -/

/-- A relay that may switch once a minute, on every reading above 30. -/
def relay : Rule Int :=
  { thermostat with
    executionPolicy := { strategy := .continuous, cooldown := 60 }
    actions := [.actuatorCommand (some "device") "relay" (.bool true)] }

def relayWorker : Rules.Worker Int :=
  { caches := loadRuleCache (fun _ _ => "digest") [relay] }

/-- A payload's text as bytes. -/
def bytes (text : String) : List UInt8 := text.toList.map fun c => c.toNat.toUInt8

/-- The decoder on the payloads below. -/
def decodeSample (payload : List UInt8) : Option (TelemetryPayload Int) :=
  if payload = bytes "\x7b\"value\": 35, \"timestamp\": 1000\x7d" then some ⟨35, some 1000⟩
  else if payload = bytes "\x7b\"value\": 35, \"timestamp\": 2000\x7d" then
    some ⟨35, some 2000⟩
  else if payload = bytes "\x7b\"value\": 35\x7d" then some ⟨35, none⟩
  else none

def deviceRecord : DeviceDirectoryRecord := ⟨"tenant", "device", .active⟩

/-- Two readings a second apart that claim to be a thousand seconds apart. -/
def stampedMessages : List Message :=
  [⟨0, "acme/boiler/temperature",
      bytes "\x7b\"value\": 35, \"timestamp\": 1000\x7d", some deviceRecord⟩,
    ⟨1000000, "acme/boiler/temperature",
      bytes "\x7b\"value\": 35, \"timestamp\": 2000\x7d", some deviceRecord⟩]

/-- The same readings without timestamps. -/
def unstampedMessages : List Message :=
  [⟨0, "acme/boiler/temperature", bytes "\x7b\"value\": 35\x7d", some deviceRecord⟩,
    ⟨1000000, "acme/boiler/temperature", bytes "\x7b\"value\": 35\x7d", some deviceRecord⟩]

theorem noFlapping_of_neverGains_unstamped :
    NoFlapping relay (evaluationsOf relay
      (ingest (fun _ _ => "digest") decodeSample unstampedMessages relayWorker).1) :=
  have hload : Loaded (fun _ _ => "digest") [relay] relayWorker := ⟨rfl, rfl⟩
  noFlapping_of_neverGains hload (by simp) (by simp) (by decide)
    (neverGains_of_unstamped (by decide +kernel))

/-- **The relay cycles within a second.** -/
theorem stamped_flapping :
    ¬ NoFlapping relay (evaluationsOf relay
      (ingest (fun _ _ => "digest") decodeSample stampedMessages relayWorker).1) := by
  intro h
  have hlog : (evaluationsOf relay (ingest (fun _ _ => "digest") decodeSample stampedMessages
        relayWorker).1).map (fun e => (e.arrival, e.entry.firing)) =
      [(0, some { ruleId := "thermostat" }), (1000000, some { ruleId := "thermostat" })] := by
    decide +kernel
  generalize evaluationsOf relay (ingest (fun _ _ => "digest") decodeSample stampedMessages
    relayWorker).1 = log at h hlog
  have hat : ∀ n : Nat, (log[n]?).map (fun e => (e.arrival, e.entry.firing)) =
      [((0 : Datetime), some ({ ruleId := "thermostat" } : Firing)),
        (1000000, some { ruleId := "thermostat" })][n]? := by
    intro n
    rw [← hlog, List.getElem?_map]
  obtain ⟨a, ha, hav⟩ := Option.map_eq_some_iff.mp (hat 0)
  obtain ⟨b, hb, hbv⟩ := Option.map_eq_some_iff.mp (hat 1)
  have hcool := h.cooled 0 1 a b (by omega) ha hb ⟨_, congrArg Prod.snd hav, rfl⟩
    ⟨_, congrArg Prod.snd hbv, rfl⟩
  have hbarr : b.arrival = 1000000 := congrArg Prod.fst hbv
  have haarr : a.arrival = 0 := congrArg Prod.fst hav
  rw [hbarr, haarr] at hcool
  revert hcool
  decide

end IotSaas.Worker
