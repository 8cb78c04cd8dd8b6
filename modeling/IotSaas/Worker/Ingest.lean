import IotSaas.Ingestion.Service
import IotSaas.Rules.HotPath

/-!
# `Worker/Ingest.lean` — `handle_message`, message after message

The telemetry branch of `handle_message` and the loop that feeds it. The ack and status branches
evaluate no metric rule and leave the value cache alone, so for this file they do nothing.
`reading_time` is the one step of the telemetry branch that can raise; when it does, nothing has
been touched yet, and the loop, which recovers from `MqttError` only, ends.
-/

set_option autoImplicit false

namespace IotSaas.Worker

open Lib Rules Ingestion

variable {F : Type} [PyFloat F]

/-- An evaluation and the instant the message behind it was handled. -/
structure Stamped (F : Type) where
  arrival : Datetime
  entry : Evaluated F

/-- `handle_message`; `none` when it raises. -/
def handleMessage (digest : Option (Node F) → Option (Node F) → String)
    (modelValidateJson : List UInt8 → Option (TelemetryPayload F)) (message : Message)
    (worker : Rules.Worker F) : Option (List (Stamped F) × Rules.Worker F) :=
  match route modelValidateJson message with
  | .telemetry topic device data =>
      match readingTime data message.arrival with
      -- `datetime.fromtimestamp` raises on an absurd timestamp
      | none => none
      | some timestamp =>
          let r := evaluateAndDispatch digest ⟨device.deviceId, topic.metric⟩ data.value timestamp
            worker
          some (r.1.map (Stamped.mk message.arrival), r.2)
  | .ack _ | .status _ | .dropped => some ([], worker)

/-- `mqtt_ingest_loop` over one connection: message after message, until one raises. -/
def ingest (digest : Option (Node F) → Option (Node F) → String)
    (modelValidateJson : List UInt8 → Option (TelemetryPayload F)) :
    List Message → Rules.Worker F → List (Stamped F) × Rules.Worker F
  | [], worker => ([], worker)
  | message :: rest, worker =>
      match handleMessage digest modelValidateJson message worker with
      | none => ([], worker)
      | some r =>
          let rs := ingest digest modelValidateJson rest r.2
          (r.1 ++ rs.1, rs.2)

/-- The evaluations of `rule` in a log. -/
def evaluationsOf (rule : Rule F) (log : List (Stamped F)) : List (Stamped F) :=
  log.filter fun e => e.entry.rule.id = rule.id

/-! ## Which messages a rule hears -/

/-- When a message evaluates `rule`: its arrival, and the time its reading is given. -/
def heard (modelValidateJson : List UInt8 → Option (TelemetryPayload F)) (rule : Rule F)
    (message : Message) : Option (Datetime × Datetime) :=
  match route modelValidateJson message with
  | .telemetry topic device data =>
      if (⟨device.deviceId, topic.metric⟩ : SignalKey) ∈ referencedSignals rule.condition then
        (readingTime data message.arrival).map (message.arrival, ·)
      else none
  | .ack _ | .status _ | .dropped => none

omit [PyFloat F] in
theorem heard_arrival {modelValidateJson : List UInt8 → Option (TelemetryPayload F)}
    {rule : Rule F} {message : Message} {stamp : Datetime × Datetime}
    (h : heard modelValidateJson rule message = some stamp) : stamp.1 = message.arrival := by
  unfold heard at h
  split at h
  · split at h
    · obtain ⟨_, _, rfl⟩ := Option.map_eq_some_iff.mp h
      rfl
    · cases h
  all_goals cases h

/-! ## The run of one rule -/

/-- A worker that has just loaded `rows`: caches from the rows, no rule state yet. -/
structure Loaded (digest : Option (Node F) → Option (Node F) → String) (rows : List (Rule F))
    (worker : Rules.Worker F) : Prop where
  caches : worker.caches = loadRuleCache digest rows
  states : worker.ruleStates = .empty

section

variable {digest : Option (Node F) → Option (Node F) → String}
  {modelValidateJson : List UInt8 → Option (TelemetryPayload F)}

variable {r : List (Stamped F) × Rules.Worker F}

/-- What one message does, as one rule sees it. -/
theorem handleMessage_follows {id : Uuid} {fingerprint : String} {message : Message}
    {worker : Rules.Worker F} (hfp : worker.caches.ruleFingerprints.get id = some fingerprint)
    (h : handleMessage digest modelValidateJson message worker = some r) :
    Follows id fingerprint worker (r.1.map Stamped.entry) r.2 := by
  unfold handleMessage at h
  split at h
  · split at h
    · cases h
    · cases h
      rw [List.map_map]
      have hid : Stamped.entry ∘ Stamped.mk message.arrival = fun e : Evaluated F => e := rfl
      rw [hid, List.map_id']
      exact evaluateAndDispatch_follows digest _ _ _ hfp
  all_goals
    cases h
    exact .nil hfp

variable (digest modelValidateJson) in
/-- A whole run, as one rule sees it. -/
theorem ingest_follows {id : Uuid} {fingerprint : String} (messages : List Message) :
    ∀ {worker : Rules.Worker F}, worker.caches.ruleFingerprints.get id = some fingerprint →
      Follows id fingerprint worker
        ((ingest digest modelValidateJson messages worker).1.map Stamped.entry)
        (ingest digest modelValidateJson messages worker).2 := by
  induction messages with
  | nil => exact fun h => .nil h
  | cons message rest ih =>
    intro worker hfp
    unfold ingest
    cases hm : handleMessage digest modelValidateJson message worker with
    | none => exact .nil hfp
    | some r =>
      have hhead := handleMessage_follows hfp hm
      dsimp only
      rw [List.map_append]
      exact hhead.trans (ih hhead.table)

/-- An entry of one message belongs to a rule registered under the message's signal, and carries
the message's stamps. -/
theorem mem_handleMessage {rows : List (Rule F)} {message : Message} {worker : Rules.Worker F}
    {e : Stamped F} (hcache : worker.caches.ruleCache = (loadRuleCache digest rows).ruleCache)
    (h : handleMessage digest modelValidateJson message worker = some r) (he : e ∈ r.1) :
    e.entry.rule ∈ rows ∧
      heard modelValidateJson e.entry.rule message = some (e.arrival, e.entry.now) := by
  unfold handleMessage at h
  split at h
  · rename_i topic device data hroute
    split at h
    · cases h
    · rename_i timestamp htime
      cases h
      obtain ⟨entry, hentry, rfl⟩ := List.mem_map.mp he
      obtain ⟨hrule, hnow⟩ := mem_evaluateRules hentry
      rw [show (noteReading ⟨device.deviceId, topic.metric⟩ data.value timestamp
        worker).caches.ruleCache = worker.caches.ruleCache from rfl, hcache] at hrule
      obtain ⟨hmem, _, hsignal⟩ := registered_iff.mp hrule
      refine ⟨hmem, ?_⟩
      dsimp only
      rw [heard, hroute]
      dsimp only
      rw [if_pos hsignal, htime, hnow]
      rfl
  all_goals
    cases h
    cases he

/-- A message replaces no cache. -/
theorem handleMessage_ruleCache {message : Message} {worker : Rules.Worker F}
    (h : handleMessage digest modelValidateJson message worker = some r) :
    r.2.caches.ruleCache = worker.caches.ruleCache := by
  unfold handleMessage at h
  split at h
  · split at h
    · cases h
    · cases h
      exact evaluateAndDispatch_ruleCache digest _ _ _ _
  all_goals
    cases h
    rfl

variable (digest modelValidateJson) in
/-- **The stamps of a rule's evaluations come from the messages it heard, in order.** Whatever
holds between the stamps of any two messages heard, earlier and later, and of a stamp with
itself, holds between the stamps of any two evaluations. -/
theorem ingest_pairwise {rows : List (Rule F)} {rule : Rule F}
    (hsame : ∀ row ∈ rows, row.id = rule.id → row = rule)
    {R : Datetime × Datetime → Datetime × Datetime → Prop} (hrefl : ∀ a, R a a)
    (messages : List Message) :
    ∀ {worker : Rules.Worker F}, worker.caches.ruleCache = (loadRuleCache digest rows).ruleCache →
      (messages.filterMap (heard modelValidateJson rule)).Pairwise R →
      (∀ e ∈ evaluationsOf rule (ingest digest modelValidateJson messages worker).1,
        e.entry.rule = rule ∧
          (e.arrival, e.entry.now) ∈ messages.filterMap (heard modelValidateJson rule)) ∧
      (evaluationsOf rule (ingest digest modelValidateJson messages worker).1).Pairwise
        fun a b => R (a.arrival, a.entry.now) (b.arrival, b.entry.now) := by
  induction messages with
  | nil => exact fun _ _ => ⟨by simp [ingest, evaluationsOf], by simp [ingest, evaluationsOf]⟩
  | cons message rest ih =>
    intro worker hcache hR
    unfold ingest
    cases hm : handleMessage digest modelValidateJson message worker with
    | none => exact ⟨by simp [evaluationsOf], by simp [evaluationsOf]⟩
    | some r =>
      have hhead : ∀ e ∈ evaluationsOf rule r.1, e.entry.rule = rule ∧
          heard modelValidateJson rule message = some (e.arrival, e.entry.now) := by
        intro e he
        obtain ⟨hmem, hid⟩ := List.mem_filter.mp he
        obtain ⟨hrow, hheard⟩ := mem_handleMessage hcache hm hmem
        have hrule := hsame _ hrow (by simpa using hid)
        exact ⟨hrule, hrule ▸ hheard⟩
      have hcache' : r.2.caches.ruleCache = (loadRuleCache digest rows).ruleCache :=
        (handleMessage_ruleCache hm).trans hcache
      have hRrest : (rest.filterMap (heard modelValidateJson rule)).Pairwise R := by
        rw [List.filterMap_cons] at hR
        cases hh : heard modelValidateJson rule message with
        | none => rwa [hh] at hR
        | some stamp =>
          rw [hh] at hR
          exact hR.of_cons
      obtain ⟨hmemrest, hpair⟩ := ih hcache' hRrest
      have hsub : rest.filterMap (heard modelValidateJson rule) ⊆
          (message :: rest).filterMap (heard modelValidateJson rule) := fun s hs => by
        obtain ⟨m, hm1, hm2⟩ := List.mem_filterMap.mp hs
        exact List.mem_filterMap.mpr ⟨m, List.mem_cons_of_mem _ hm1, hm2⟩
      have hsplit : evaluationsOf rule
            (r.1 ++ (ingest digest modelValidateJson rest r.2).1) =
          evaluationsOf rule r.1 ++
            evaluationsOf rule (ingest digest modelValidateJson rest r.2).1 :=
        List.filter_append _ _
      dsimp only
      rw [hsplit]
      refine ⟨fun e he => ?_, List.pairwise_append.mpr ⟨?_, hpair, ?_⟩⟩
      · rcases List.mem_append.mp he with he | he
        · obtain ⟨hrule, hheard⟩ := hhead e he
          exact ⟨hrule, List.mem_filterMap.mpr ⟨message, List.mem_cons_self, hheard⟩⟩
        · exact ⟨(hmemrest e he).1, hsub (hmemrest e he).2⟩
      · -- one message, one stamp
        refine List.Pairwise.imp_of_mem (R := fun _ _ => True) (fun {a b} ha hb _ => ?_)
          (List.pairwise_of_forall fun _ _ => trivial)
        have hab := Option.some.inj ((hhead a ha).2.symm.trans (hhead b hb).2)
        rw [hab]
        exact hrefl _
      · -- an evaluation of this message against one of a later message
        intro a ha b hb
        rw [List.filterMap_cons, (hhead a ha).2] at hR
        exact List.rel_of_pairwise_cons hR (hmemrest b hb).2

end

end IotSaas.Worker
