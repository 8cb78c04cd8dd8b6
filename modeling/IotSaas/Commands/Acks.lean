import IotSaas.Lib.Dict
import IotSaas.Lib.Logs
import IotSaas.Lib.Reach
import IotSaas.Rules.Model
import Mathlib.Data.List.Nodup

/-!
# `Commands/Acks.lean` — which acknowledgements find their command

`dispatch_command` publishes the command and its retained state and only then inserts the row of
`commands`; `record_ack` is an `UPDATE` of that row. Two tasks of the worker dispatch: the ingest
loop, in the middle of handling a reading, and the manual command loop, for manual commands,
schedules and timers. Acknowledgements come in through the ingest loop alone, one message at a time.

So a board can answer before there is a row to write the answer to, and then the `UPDATE` writes
nothing and the command is shown as unanswered for good. `acked_iff` says exactly when that
happens: never to a command the ingest loop sent, since that loop is busy until the row is there;
and to the others exactly by those acknowledgements that are handled before the insert.

The awaits may raise, with or without having had their effect; acknowledgements may be lost,
repeated, or sent by a device the command was not for.
-/

set_option autoImplicit false

namespace IotSaas.Commands.Acks

open Lib Rules

/-- The tasks that dispatch commands, each one at a time. -/
inductive Task where
  | ingest | outOfBand
  deriving DecidableEq

/-- The awaits of `dispatch_command`. -/
inductive Await where
  | publishCommand | publishState | insert
  deriving DecidableEq

structure Dispatch where
  tenantId : Uuid
  deviceId : Uuid
  commandId : Uuid
  left : List Await := [.publishCommand, .publishState, .insert]

/-- An `ack` message, its topic resolved to the device. -/
structure Ack where
  tenantId : Uuid
  deviceId : Uuid
  commandId : Uuid
  deriving DecidableEq

/-- A row of `commands`, in what the acknowledgement reads and writes. -/
structure Row where
  tenantId : Uuid
  deviceId : Uuid
  ackedAt : Option Datetime := none

inductive Entry where
  | inserted (commandId : Uuid)
  | handled (ack : Ack) (now : Datetime)
  deriving DecidableEq

structure State where
  inflight : Dict Task Dispatch := .empty
  /-- Every command id that was drawn, with the task it was drawn in. -/
  drawn : List (Uuid × Task) := []
  /-- The commands the broker has accepted. -/
  published : List Uuid := []
  /-- Acknowledgements the ingest client has received. -/
  queue : List Ack := []
  rows : Dict Uuid Row := .empty
  /-- What was written and what was handled, oldest first. -/
  history : List Entry := []

inductive Event where
  /-- `dispatch_command` is called; the id is a fresh `uuid4`. -/
  | dispatch (task : Task) (tenantId deviceId commandId : Uuid)
  /-- The next await of the task's dispatch returns. -/
  | await (task : Task)
  /-- It raises, having had its effect or not, and the dispatch is given up. -/
  | raise (task : Task) (effective : Bool)
  /-- Some device acknowledges a command it may have heard of. -/
  | arrive (ack : Ack)
  /-- The ingest loop handles the first message of its queue: `record_ack`. -/
  | handle (now : Datetime)
  /-- It drops it: malformed, or from a device that is gone. -/
  | drop
  /-- The ingest connection is lost with what was queued. -/
  | disconnect

/-- What an await does. -/
def effect (d : Dispatch) (s : State) : Await → State
  | .publishCommand => { s with published := s.published ++ [d.commandId] }
  | .publishState => s
  | .insert =>
      { s with
        rows := s.rows.set d.commandId { tenantId := d.tenantId, deviceId := d.deviceId }
        history := s.history ++ [.inserted d.commandId] }

/-- The `UPDATE` of `record_ack`, and its `WHERE`. -/
def recordAck (ack : Ack) (now : Datetime) (rows : Dict Uuid Row) : Dict Uuid Row :=
  match rows.get ack.commandId with
  | none => rows
  | some row =>
      if row.tenantId = ack.tenantId ∧ row.deviceId = ack.deviceId then
        rows.set ack.commandId { row with ackedAt := some now }
      else rows

def step (s : State) : Event → Option State
  | .dispatch task tenantId deviceId commandId =>
      match s.inflight.get task with
      | some _ => none
      | none =>
          if commandId ∈ s.drawn.map Prod.fst then none
          else
            some { s with
              inflight := s.inflight.set task { tenantId, deviceId, commandId }
              drawn := s.drawn ++ [(commandId, task)] }
  | .await task =>
      match s.inflight.get task with
      | none => none
      | some d =>
          match d.left with
          | [] => none
          | [last] => some { effect d s last with inflight := s.inflight.erase task }
          | next :: rest =>
              some { effect d s next with inflight := s.inflight.set task { d with left := rest } }
  | .raise task effective =>
      match s.inflight.get task with
      | none => none
      | some d =>
          match d.left with
          | [] => none
          | next :: _ =>
              some { if effective then effect d s next else s with
                inflight := s.inflight.erase task }
  | .arrive ack =>
      if ack.commandId ∈ s.published then some { s with queue := s.queue ++ [ack] } else none
  | .handle now =>
      -- the loop is in `_handle_ack`, so it is not in a dispatch
      match s.inflight.get .ingest, s.queue with
      | none, ack :: rest =>
          some { s with
            queue := rest
            rows := recordAck ack now s.rows
            history := s.history ++ [.handled ack now] }
      | _, _ => none
  | .drop =>
      match s.inflight.get .ingest, s.queue with
      | none, _ :: rest => some { s with queue := rest }
      | _, _ => none
  | .disconnect => some { s with queue := [] }

/-! ## One step -/

/-- What a step can do. -/
inductive Step (s : State) : State → Prop
  | dispatch {task : Task} {d : Dispatch} (idle : s.inflight.get task = none)
      (fresh : d.commandId ∉ s.drawn.map Prod.fst)
      (whole : d.left = [.publishCommand, .publishState, .insert]) :
      Step s { s with
        inflight := s.inflight.set task d
        drawn := s.drawn ++ [(d.commandId, task)] }
  | goesOn {task : Task} {d : Dispatch} {next : Await} {rest : List Await}
      (busy : s.inflight.get task = some d) (left : d.left = next :: rest) (more : rest ≠ []) :
      Step s { effect d s next with inflight := s.inflight.set task { d with left := rest } }
  | ends {task : Task} {d : Dispatch} {next : Await} {rest : List Await}
      (busy : s.inflight.get task = some d) (left : d.left = next :: rest) :
      Step s { effect d s next with inflight := s.inflight.erase task }
  | givesUp {task : Task} {d : Dispatch} (busy : s.inflight.get task = some d) :
      Step s { s with inflight := s.inflight.erase task }
  | arrive {ack : Ack} (heard : ack.commandId ∈ s.published) :
      Step s { s with queue := s.queue ++ [ack] }
  | handle {ack : Ack} {rest : List Ack} {now : Datetime} (idle : s.inflight.get .ingest = none)
      (first : s.queue = ack :: rest) :
      Step s { s with
        queue := rest
        rows := recordAck ack now s.rows
        history := s.history ++ [.handled ack now] }
  | forget {queue : List Ack} (sub : queue ⊆ s.queue) : Step s { s with queue := queue }

theorem step_cases {s s' : State} {e : Event} (h : step s e = some s') : Step s s' := by
  cases e with
  | dispatch task tenantId deviceId commandId =>
    simp only [step] at h
    split at h
    · cases h
    · rename_i hidle
      split at h
      · cases h
      · rename_i hfresh
        obtain rfl := Option.some.inj h
        exact .dispatch hidle hfresh rfl
  | await task =>
    simp only [step] at h
    split at h
    · cases h
    · rename_i d hbusy
      split at h
      · cases h
      · rename_i last hleft
        obtain rfl := Option.some.inj h
        exact .ends hbusy hleft
      · rename_i next rest hmore hleft
        obtain rfl := Option.some.inj h
        exact .goesOn hbusy hleft fun hnil => hmore (by rw [hnil])
  | raise task effective =>
    simp only [step] at h
    split at h
    · cases h
    · rename_i d hbusy
      split at h
      · cases h
      · rename_i next rest hleft
        obtain rfl := Option.some.inj h
        cases effective with
        | true => exact .ends hbusy hleft
        | false => exact .givesUp hbusy
  | arrive ack =>
    simp only [step] at h
    split at h
    · rename_i hheard
      obtain rfl := Option.some.inj h
      exact .arrive hheard
    · cases h
  | handle now =>
    simp only [step] at h
    split at h
    · rename_i ack rest hidle hfirst
      obtain rfl := Option.some.inj h
      exact .handle hidle hfirst
    · cases h
  | drop =>
    simp only [step] at h
    split at h
    · rename_i ack rest hidle hfirst
      obtain rfl := Option.some.inj h
      exact .forget (by rw [hfirst]; exact List.subset_cons_self ack rest)
    · cases h
  | disconnect =>
    simp only [step] at h
    obtain rfl := Option.some.inj h
    exact .forget (List.nil_subset _)

/-! ## The history -/

/-- An acknowledgement was handled with the row in place. -/
def Answered (history : List Entry) (ack : Ack) : Prop :=
  ∃ before now after, history = before ++ .handled ack now :: after ∧
    .inserted ack.commandId ∈ before

theorem answered_snoc {history : List Entry} {entry : Entry} {ack : Ack} :
    Answered (history ++ [entry]) ack ↔ Answered history ack ∨
      ∃ now, entry = .handled ack now ∧ .inserted ack.commandId ∈ history := by
  constructor
  · rintro ⟨before, now, after, h, hins⟩
    obtain ⟨-, rfl, rfl⟩ | ⟨after', -, rfl⟩ := cut_snoc h
    · exact .inr ⟨now, rfl, hins⟩
    · exact .inl ⟨before, now, after', rfl, hins⟩
  · rintro (⟨before, now, after, rfl, hins⟩ | ⟨now, rfl, hins⟩)
    · exact ⟨before, now, after ++ [entry], by simp, hins⟩
    · exact ⟨history, now, [], rfl, hins⟩

theorem answered_inserted {history : List Entry} {ack : Ack} {commandId : Uuid} :
    Answered (history ++ [.inserted commandId]) ack ↔ Answered history ack := by
  rw [answered_snoc]
  simp

theorem Answered.mem {history : List Entry} {ack : Ack} (h : Answered history ack) :
    ∃ now, .handled ack now ∈ history := by
  obtain ⟨before, now, after, rfl, -⟩ := h
  exact ⟨now, List.mem_append_right _ List.mem_cons_self⟩

/-! ## The invariant -/

/-- The insert comes last. -/
def Ordered (left : List Await) : Prop := left <:+ [.publishCommand, .publishState, .insert]

theorem Ordered.insert_last {next : Await} {rest : List Await} (h : Ordered (next :: rest))
    (hnext : next = .insert) : rest = [] := by
  subst hnext
  simpa [Ordered, List.suffix_cons_iff] using h

theorem Ordered.rest {next : Await} {rest : List Await} (h : Ordered (next :: rest)) :
    Ordered rest := (List.suffix_cons next rest).trans h

structure Inv (s : State) : Prop where
  nodup : (s.drawn.map Prod.fst).Nodup
  owned : ∀ task d, s.inflight.get task = some d → (d.commandId, task) ∈ s.drawn
  ordered : ∀ task d, s.inflight.get task = some d → Ordered d.left
  pending : ∀ task d, s.inflight.get task = some d → .inserted d.commandId ∉ s.history
  published : ∀ c ∈ s.published, c ∈ s.drawn.map Prod.fst
  queued : ∀ ack ∈ s.queue, ack.commandId ∈ s.published
  handled : ∀ ack now, .handled ack now ∈ s.history → ack.commandId ∈ s.published
  inserted : ∀ c, .inserted c ∈ s.history → c ∈ s.drawn.map Prod.fst
  /-- While the ingest loop dispatches a command it handles no acknowledgement of it. -/
  busy : ∀ d, s.inflight.get .ingest = some d → ∀ ack now, .handled ack now ∈ s.history →
    ack.commandId ≠ d.commandId
  stored : ∀ c row, s.rows.get c = some row → .inserted c ∈ s.history
  acked : ∀ c row, s.rows.get c = some row →
    (row.ackedAt.isSome = true ↔ Answered s.history ⟨row.tenantId, row.deviceId, c⟩)
  inTime : ∀ ack now, .handled ack now ∈ s.history → (ack.commandId, Task.ingest) ∈ s.drawn →
    .inserted ack.commandId ∈ s.history → Answered s.history ack

theorem inv_start : Inv {} := by
  constructor <;> simp

section

variable {s : State} {d : Dispatch} {task : Task}

/-- The tasks of a command: one. -/
theorem Inv.task_unique (h : Inv s) {c : Uuid} {t u : Task} (ht : (c, t) ∈ s.drawn)
    (hu : (c, u) ∈ s.drawn) : t = u :=
  congrArg Prod.snd (List.inj_on_of_nodup_map h.nodup ht hu rfl)

/-- The other dispatch is of another command. -/
theorem Inv.commands_differ (h : Inv s) {t : Task} {other : Dispatch}
    (hbusy : s.inflight.get task = some d) (hother : s.inflight.get t = some other)
    (hne : t ≠ task) : other.commandId ≠ d.commandId := by
  intro heq
  have ho := h.owned t other hother
  rw [heq] at ho
  exact hne (h.task_unique ho (h.owned task d hbusy))

theorem inv_dispatch (h : Inv s)
    (hfresh : d.commandId ∉ s.drawn.map Prod.fst)
    (hwhole : d.left = [.publishCommand, .publishState, .insert]) :
    Inv { s with
      inflight := s.inflight.set task d
      drawn := s.drawn ++ [(d.commandId, task)] } where
  nodup := by
    rw [List.map_append, List.map_singleton]
    refine List.nodup_append.mpr ⟨h.nodup, List.nodup_singleton _, ?_⟩
    rintro a ha b hb rfl
    rw [List.mem_singleton.mp hb] at ha
    exact hfresh ha
  owned := by
    intro t other hother
    rw [Dict.get_set] at hother
    split at hother
    · rename_i heq
      obtain rfl := Option.some.inj hother
      exact List.mem_append_right _ (heq ▸ List.mem_singleton_self _)
    · exact List.mem_append_left _ (h.owned t other hother)
  ordered := by
    intro t other hother
    rw [Dict.get_set] at hother
    split at hother
    · obtain rfl := Option.some.inj hother
      exact hwhole ▸ List.suffix_refl _
    · exact h.ordered t other hother
  pending := by
    intro t other hother
    rw [Dict.get_set] at hother
    split at hother
    · obtain rfl := Option.some.inj hother
      -- An id that has a row was drawn before, and this one is new.
      exact fun hins => hfresh (h.inserted _ hins)
    · exact h.pending t other hother
  published := fun c hc => by
    rw [List.map_append]
    exact List.mem_append_left _ (h.published c hc)
  queued := h.queued
  handled := h.handled
  inserted := fun c hc => by
    rw [List.map_append]
    exact List.mem_append_left _ (h.inserted c hc)
  busy := by
    intro other hother ack now hack heq
    rw [Dict.get_set] at hother
    split at hother
    · obtain rfl := Option.some.inj hother
      exact hfresh (heq ▸ h.published _ (h.handled ack now hack))
    · exact h.busy other hother ack now hack heq
  stored := h.stored
  acked := h.acked
  inTime := by
    intro ack now hack hdrawn hins
    refine h.inTime ack now hack ?_ hins
    rcases List.mem_append.mp hdrawn with hold | hnew
    · exact hold
    -- No ack comes for what was not published.
    · have hid : ack.commandId = d.commandId :=
        congrArg Prod.fst (List.mem_singleton.mp hnew)
      exact absurd (hid ▸ h.published _ (h.handled ack now hack)) hfresh

/-- What a dispatch in flight does next, and what is left of it: nothing, or more awaits. -/
theorem inv_effect (h : Inv s) (hbusy : s.inflight.get task = some d) {next : Await}
    {rest : List Await} (hleft : d.left = next :: rest) {inflight : Dict Task Dispatch}
    (hinflight : ∀ t other, inflight.get t = some other →
      t = task ∧ other = { d with left := rest } ∧ rest ≠ [] ∨
        t ≠ task ∧ s.inflight.get t = some other) :
    Inv { effect d s next with inflight := inflight } := by
  have hown := h.owned task d hbusy
  have hord : Ordered (next :: rest) := hleft ▸ h.ordered task d hbusy
  have howned : ∀ t other, inflight.get t = some other → (other.commandId, t) ∈ s.drawn := by
    intro t other hother
    rcases hinflight t other hother with ⟨rfl, rfl, -⟩ | ⟨-, hold⟩
    · exact hown
    · exact h.owned t other hold
  have hordered : ∀ t other, inflight.get t = some other → Ordered other.left := by
    intro t other hother
    rcases hinflight t other hother with ⟨-, rfl, -⟩ | ⟨-, hold⟩
    · exact hord.rest
    · exact h.ordered t other hold
  have hpending : ∀ t other, inflight.get t = some other →
      .inserted other.commandId ∉ s.history := by
    intro t other hother
    rcases hinflight t other hother with ⟨-, rfl, -⟩ | ⟨-, hold⟩
    · exact h.pending task d hbusy
    · exact h.pending t other hold
  have hbusy' : ∀ other, inflight.get .ingest = some other → ∀ ack now,
      .handled ack now ∈ s.history → ack.commandId ≠ other.commandId := by
    intro other hother ack now hack
    rcases hinflight .ingest other hother with ⟨rfl, rfl, -⟩ | ⟨-, hold⟩
    · exact h.busy d hbusy ack now hack
    · exact h.busy other hold ack now hack
  cases next with
  | publishCommand =>
    exact
      { h with
        owned := howned
        ordered := hordered
        pending := hpending
        busy := hbusy'
        published := by
          intro c hc
          rcases List.mem_append.mp hc with hc | hc
          · exact h.published c hc
          · rw [List.mem_singleton.mp hc]
            exact List.mem_map_of_mem hown
        queued := fun ack hack => List.mem_append_left _ (h.queued ack hack)
        handled := fun ack now hack => List.mem_append_left _ (h.handled ack now hack) }
  | publishState =>
    exact { h with owned := howned, ordered := hordered, pending := hpending, busy := hbusy' }
  | insert =>
    obtain rfl := hord.insert_last rfl
    have hothers : ∀ t other, inflight.get t = some other →
        t ≠ task ∧ s.inflight.get t = some other := by
      intro t other hother
      rcases hinflight t other hother with ⟨-, -, hne⟩ | hother
      · exact absurd rfl hne
      · exact hother
    have hmono : ∀ {entry : Entry}, entry ∈ s.history →
        entry ∈ s.history ++ [.inserted d.commandId] := List.mem_append_left _
    have hhandled : ∀ {ack : Ack} {now : Datetime},
        .handled ack now ∈ s.history ++ [.inserted d.commandId] →
        .handled ack now ∈ s.history := by
      intro ack now hack
      simpa using hack
    exact
      { h with
        owned := howned
        ordered := hordered
        pending := by
          intro t other hother hins
          rcases List.mem_append.mp hins with hins | hins
          · exact hpending t other hother hins
          · have hid : other.commandId = d.commandId :=
              Entry.inserted.inj (List.mem_singleton.mp hins)
            have hne := hothers t other hother
            exact h.commands_differ hbusy hne.2 hne.1 hid
        handled := fun ack now hack => h.handled ack now (hhandled hack)
        inserted := by
          intro c hc
          rcases List.mem_append.mp hc with hc | hc
          · exact h.inserted c hc
          · rw [Entry.inserted.inj (List.mem_singleton.mp hc)]
            exact List.mem_map_of_mem hown
        busy := fun other hother ack now hack => hbusy' other hother ack now (hhandled hack)
        stored := by
          intro c row hrow
          dsimp only [effect] at hrow
          rw [Dict.get_set] at hrow
          split at hrow
          · rename_i heq
            exact heq ▸ List.mem_append_right _ (List.mem_singleton_self _)
          · exact hmono (h.stored c row hrow)
        acked := by
          intro c row hrow
          dsimp only [effect] at hrow ⊢
          rw [answered_inserted]
          rw [Dict.get_set] at hrow
          split at hrow
          · rename_i heq
            obtain rfl := Option.some.inj hrow
            subst heq
            refine iff_of_false (by simp) ?_
            rintro ⟨before, now, after, heq, hins⟩
            refine h.pending task d hbusy ?_
            rw [heq]
            exact List.mem_append_left _ hins
          · exact h.acked c row hrow
        inTime := by
          intro ack now hack hdrawn hins
          dsimp only [effect] at hack hdrawn hins ⊢
          rw [answered_inserted]
          rcases List.mem_append.mp hins with hins | hins
          · exact h.inTime ack now (hhandled hack) hdrawn hins
          · -- the command in flight: if it is the ingest loop's, none of its own was handled
            have hid := Entry.inserted.inj (List.mem_singleton.mp hins)
            rw [hid] at hdrawn
            have htask := h.task_unique hdrawn hown
            subst htask
            exact absurd hid (h.busy d hbusy ack now (hhandled hack)) }

theorem inv_erase (h : Inv s) : Inv { s with inflight := s.inflight.erase task } :=
  { h with
    owned := fun t other hother => h.owned t other (Dict.get_of_get_erase hother)
    ordered := fun t other hother => h.ordered t other (Dict.get_of_get_erase hother)
    pending := fun t other hother => h.pending t other (Dict.get_of_get_erase hother)
    busy := fun other hother => h.busy other (Dict.get_of_get_erase hother) }

/-- `record_ack` touches the one row it is for, and only its `acked_at`. -/
theorem get_recordAck (ack : Ack) (now : Datetime) (rows : Dict Uuid Row) (c : Uuid) :
    (recordAck ack now rows).get c =
      (rows.get c).map fun row =>
        if c = ack.commandId ∧ row.tenantId = ack.tenantId ∧ row.deviceId = ack.deviceId then
          { row with ackedAt := some now }
        else row := by
  unfold recordAck
  split
  · rename_i hnone
    cases hc : rows.get c with
    | none => rfl
    | some row =>
      have hne : c ≠ ack.commandId := by
        rintro rfl
        rw [hnone] at hc
        cases hc
      simp [hne]
  · rename_i row hrow
    by_cases hmatch : row.tenantId = ack.tenantId ∧ row.deviceId = ack.deviceId
    · rw [if_pos hmatch, Dict.get_set]
      by_cases heq : c = ack.commandId
      · subst heq
        simp [hrow, hmatch]
      · cases hc : rows.get c <;> simp [heq]
    · rw [if_neg hmatch]
      by_cases heq : c = ack.commandId
      · subst heq
        simp [hrow, hmatch]
      · cases hc : rows.get c <;> simp [heq]

theorem inv_handle (h : Inv s) {ack : Ack} {rest : List Ack} {now : Datetime}
    (hidle : s.inflight.get .ingest = none) (hfirst : s.queue = ack :: rest) :
    Inv { s with
      queue := rest
      rows := recordAck ack now s.rows
      history := s.history ++ [.handled ack now] } := by
  have hheard : ack.commandId ∈ s.published :=
    h.queued ack (hfirst ▸ List.mem_cons_self)
  have hinserted : ∀ {c : Uuid}, .inserted c ∈ s.history ++ [.handled ack now] →
      .inserted c ∈ s.history := by
    intro c hc
    simpa using hc
  exact
    { h with
      pending := fun t other hother hins => h.pending t other hother (hinserted hins)
      queued := fun other hother => h.queued other (hfirst ▸ List.mem_cons_of_mem ack hother)
      handled := by
        intro other time hmem
        rcases List.mem_append.mp hmem with hold | hnew
        · exact h.handled other time hold
        · obtain ⟨rfl, -⟩ := Entry.handled.inj (List.mem_singleton.mp hnew)
          exact hheard
      inserted := fun c hc => h.inserted c (hinserted hc)
      busy := by
        intro other hother
        rw [hidle] at hother
        cases hother
      stored := by
        intro c row hrow
        dsimp only at hrow
        rw [get_recordAck, Option.map_eq_some_iff] at hrow
        obtain ⟨old, hold, -⟩ := hrow
        exact List.mem_append_left _ (h.stored c old hold)
      acked := by
        intro c row hrow
        dsimp only at hrow ⊢
        rw [get_recordAck, Option.map_eq_some_iff] at hrow
        obtain ⟨old, hold, rfl⟩ := hrow
        have hbefore := h.acked c old hold
        rw [answered_snoc]
        split
        · rename_i hmatch
          obtain ⟨rfl, htenant, hdevice⟩ := hmatch
          refine iff_of_true rfl (.inr ⟨now, ?_, h.stored _ old hold⟩)
          rw [htenant, hdevice]
        · rename_i hother
          rw [hbefore, or_iff_left]
          rintro ⟨time, heq, -⟩
          obtain ⟨rfl, -⟩ := Entry.handled.inj heq
          exact hother ⟨rfl, rfl, rfl⟩
      inTime := by
        intro other time hmem hdrawn hins
        rw [answered_snoc]
        rcases List.mem_append.mp hmem with hold | hnew
        · exact .inl (h.inTime other time hold hdrawn (hinserted hins))
        · obtain ⟨rfl, rfl⟩ := Entry.handled.inj (List.mem_singleton.mp hnew)
          exact .inr ⟨time, rfl, hinserted hins⟩ }

theorem inv_step {s' : State} (h : Inv s) (hs : Step s s') : Inv s' := by
  cases hs with
  | dispatch _ fresh whole => exact inv_dispatch h fresh whole
  | goesOn busy left more =>
    refine inv_effect h busy left fun t other hother => ?_
    rw [Dict.get_set] at hother
    split at hother
    · rename_i heq
      exact .inl ⟨heq, (Option.some.inj hother).symm, more⟩
    · rename_i hne
      exact .inr ⟨hne, hother⟩
  | @ends task d next rest busy left =>
    refine inv_effect h busy left fun t other hother => .inr ⟨?_, Dict.get_of_get_erase hother⟩
    rintro rfl
    rw [Dict.get_erase_self] at hother
    cases hother
  | givesUp => exact inv_erase h
  | arrive heard =>
    refine { h with queued := fun ack hack => ?_ }
    rcases List.mem_append.mp hack with hack | hack
    · exact h.queued ack hack
    · exact List.mem_singleton.mp hack ▸ heard
  | handle idle first => exact inv_handle h idle first
  | forget sub => exact { h with queued := fun ack hack => h.queued ack (sub hack) }

end

/-- **Which acknowledgements count.** In every state of every run, a command of the log is acked
exactly if an acknowledgement of it by its device was handled after its row was inserted; and if
the ingest loop sent it, exactly if any was handled at all. -/
theorem acked_iff {s : State} (h : Reaches step Always {} s) {c : Uuid} {row : Row}
    (hrow : s.rows.get c = some row) :
    (row.ackedAt.isSome = true ↔ Answered s.history ⟨row.tenantId, row.deviceId, c⟩) ∧
    ((c, Task.ingest) ∈ s.drawn → (row.ackedAt.isSome = true ↔
      ∃ now, .handled ⟨row.tenantId, row.deviceId, c⟩ now ∈ s.history)) := by
  have hinv : Inv s :=
    h.invariant inv_start fun _ _ _ ih _ hs => inv_step ih (step_cases hs)
  refine ⟨hinv.acked c row hrow, fun hingest => ?_⟩
  rw [hinv.acked c row hrow]
  constructor
  · exact Answered.mem
  · rintro ⟨now, hmem⟩
    exact hinv.inTime _ now hmem hingest (hinv.stored c row hrow)

/-- A rule switches the pump on from a reading and the board answers at once; then a person does
from the dashboard, and the answer is quicker than the insert. -/
def quickAnswers : List Event :=
  [.dispatch .ingest "tenant" "pump" "c1", .await .ingest, .arrive ⟨"tenant", "pump", "c1"⟩,
    .await .ingest, .await .ingest, .handle 1,
    .dispatch .outOfBand "tenant" "pump" "c2", .await .outOfBand,
    .arrive ⟨"tenant", "pump", "c2"⟩, .await .outOfBand, .handle 2, .await .outOfBand]

def quickState : State := (run step {} quickAnswers).getD {}

/-- The rule's command is acked, the person's is not, and both were answered. -/
theorem acked_iff_quick :
    (((some 1 : Option Datetime).isSome = true ↔
        ∃ now, .handled ⟨"tenant", "pump", "c1"⟩ now ∈ quickState.history) ∧
      ¬ Answered quickState.history ⟨"tenant", "pump", "c2"⟩) := by
  have hrun : run step {} quickAnswers = some quickState := rfl
  have hreach : Reaches step Always {} quickState := .of_run hrun
  have hrow : quickState.rows.get "c1" = some ⟨"tenant", "pump", some 1⟩ := rfl
  have hrow' : quickState.rows.get "c2" = some ⟨"tenant", "pump", none⟩ := rfl
  have hfirst := acked_iff hreach hrow
  have hsecond := acked_iff hreach hrow'
  refine ⟨hfirst.2 (by decide), fun h => ?_⟩
  cases hsecond.1.mpr h

end IotSaas.Commands.Acks
