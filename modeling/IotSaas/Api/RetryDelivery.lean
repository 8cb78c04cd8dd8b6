import IotSaas.Lib.Reach
import IotSaas.Lib.ReadCommitted
import IotSaas.Worker.Dispatch

/-!
# `Api/RetryDelivery.lean` — `retry_failed_action`, request against request

A failed delivery is re-sent by request. The request reads the row, reads the rule as it is now,
writes `retried_at` and commits; the delivery is spawned by what is registered behind the commit.
The check that nobody has retried before is made on what the first statement saw, and the UPDATE is
by primary key alone: it waits for a lock on the row, and then goes ahead whatever the other
transaction has left there.

`retriedOnce_iff`: a run retries every row once exactly if no request commits whose UPDATE came upon
a row that was retried by then.
-/

set_option autoImplicit false

namespace IotSaas.Api.Retry

open Lib Rules Worker.Dispatch

variable {F : Type}

/-- A row of `action_executions`, with what the join reads of its execution. -/
structure ActionExecution where
  tenantId : Uuid
  ruleId : Uuid
  edge : Edge
  actionType : String
  actionIndex : Option Int
  status : Status
  retriedAt : Option Datetime
  deriving DecidableEq

/-- Why a request is refused. -/
inductive Refusal where
  | notFound
  | alreadyRetried
  | notRetryable
  | ruleChanged
  deriving DecidableEq

/-- The path of a request and the tenant it is made in. -/
structure Request where
  tenantId : Uuid
  actionId : Uuid
  deriving DecidableEq

/-- The first statement and the two checks on what it answers. -/
def checkRow (request : Request) (row : Option ActionExecution) :
    Except Refusal ActionExecution :=
  match row with
  | none => .error .notFound
  | some row =>
      if row.tenantId = request.tenantId ∧ row.status = .failed then
        if row.retriedAt ≠ none then .error .alreadyRetried
        else if row.actionType = "webhook" ∨ row.actionType = "email" then .ok row
        else .error .notRetryable
      else .error .notFound

/-- `actions[index] if index is not None and 0 <= index < len(actions) else None`. -/
def actionAt (actions : List (StoredAction F)) (index : Option Int) :
    Option (Nat × StoredAction F) :=
  match index with
  | none => none
  | some index =>
      if 0 ≤ index then (actions[index.toNat]?).map fun action => (index.toNat, action) else none

/-- The action of the rule as it is now, if it is still of the type that failed. -/
def descriptor (row : ActionExecution) (rule : DispatchedRule F) : Option (DeferredAction F) :=
  let actions := match row.edge with
    | .fire => rule.actions
    | .clear => rule.clearActions
  match actionAt actions row.actionIndex with
  | none => none
  | some (index, .known (.webhook config)) =>
      if row.actionType = "webhook" then some ⟨index, .webhook config⟩ else none
  | some (index, .known (.email recipients subject body)) =>
      if row.actionType = "email" then some ⟨index, .email recipients subject body⟩ else none
  | some (index, .known (.notification message channels)) =>
      if row.actionType = "email" ∧ .email ∈ channels then
        some ⟨index, .alert message rule.name row.edge⟩
      else none
  | some _ => none

/-- `select(Rule).where(Rule.tenant_id == tenant_id, Rule.id == execution.rule_id)`. -/
def ruleOf (request : Request) (row : ActionExecution) (rules : Uuid → Option (DispatchedRule F)) :
    Option (DispatchedRule F) :=
  (rules row.ruleId).filter fun rule => rule.tenantId = request.tenantId

/-- How far a request is. `before` is what its UPDATE found in `retried_at`, which the code does not
look at. -/
inductive Phase (F : Type) where
  | idle
  | found (row : ActionExecution)
  | described (deferred : DeferredAction F)
  | written (before : Option Datetime) (deferred : DeferredAction F)
  /-- Committed, and the delivery spawned by the callback behind the commit. -/
  | accepted (deferred : DeferredAction F)
  | refused (why : Refusal)
  /-- Rolled back by something else. -/
  | failed

abbrev RequestId := Nat

structure State (F : Type) where
  table : Table Uuid ActionExecution RequestId
  phase : RequestId → Phase F

/-- The next statement of a request. The rule is whatever has been committed by then. -/
inductive Event (F : Type) where
  | select (i : RequestId)
  | selectRule (i : RequestId) (rules : Uuid → Option (DispatchedRule F))
  | update (i : RequestId) (now : Datetime)
  | commit (i : RequestId)
  | abort (i : RequestId)

def State.go (s : State F) (i : RequestId) (phase : Phase F) : State F :=
  { s with phase := fun j => if j = i then phase else s.phase j }

def State.withTable (s : State F) (table : Table Uuid ActionExecution RequestId) : State F :=
  { s with table := table }

/-- `none` is a statement that is not the request's next one, or that has to wait for a lock. -/
def step (requests : RequestId → Request) (s : State F) (event : Event F) : Option (State F) :=
  match event with
  | .select i =>
      match s.phase i with
      | .idle =>
          match checkRow (requests i) (s.table.view i (requests i).actionId) with
          | .error why => some (s.go i (.refused why))
          | .ok row => some (s.go i (.found row))
      | _ => none
  | .selectRule i rules =>
      match s.phase i with
      | .found row =>
          match (ruleOf (requests i) row rules).bind (descriptor row) with
          | none => some (s.go i (.refused .ruleChanged))
          | some deferred => some (s.go i (.described deferred))
      | _ => none
  | .update i now =>
      match s.phase i with
      | .described deferred =>
          if s.table.free i (requests i).actionId then
            match s.table.view i (requests i).actionId with
            -- no row is updated, and the flush raises
            | none => some (s.go i .failed)
            | some row =>
                some ((s.withTable (s.table.write i (requests i).actionId
                  (some { row with retriedAt := some now }))).go i
                    (.written row.retriedAt deferred))
          else none
      | _ => none
  | .commit i =>
      match s.phase i with
      | .written _ deferred => some ((s.withTable (s.table.commit i)).go i (.accepted deferred))
      | _ => none
  | .abort i =>
      match s.phase i with
      | .found _ | .described _ | .written _ _ =>
          some ((s.withTable (s.table.abort i)).go i .failed)
      | _ => none

/-- Rows as they are stored, and nobody has asked for anything. -/
def start (rows : List (Uuid × ActionExecution)) : State F :=
  { table := .ofRows rows
    phase := fun _ => .idle }

/-- The request has been accepted, and has spawned its delivery. -/
def State.Accepted (s : State F) (i : RequestId) : Prop :=
  ∃ deferred, s.phase i = .accepted deferred

/-- **One request for a row is accepted at most.** -/
def RetriedOnce (requests : RequestId → Request) (s : State F) : Prop :=
  ∀ i j, s.Accepted i → s.Accepted j → (requests i).actionId = (requests j).actionId → i = j

/-- A commit is fit if the row was not retried when the request's UPDATE came upon it. -/
def Fit (s : State F) (event : Event F) : Prop :=
  ∀ i before deferred, event = .commit i → s.phase i = .written before deferred → before = none

/-! ## What a statement does -/

section

variable {requests : RequestId → Request} {s s' : State F} {event : Event F} {i j : RequestId}

/-- Past the first statement, and not at an end. -/
def Phase.Underway (phase : Phase F) : Prop :=
  match phase with
  | .found _ | .described _ | .written _ _ => True
  | _ => False

/-- What a statement can have done. -/
inductive Move (requests : RequestId → Request) (s : State F) : Event F → State F → Prop
  | refuse (event : Event F) (i : RequestId) (why : Refusal)
      (hphase : s.phase i = .idle ∨ ∃ row, s.phase i = .found row)
      (hevent : ∀ j, event ≠ .commit j) : Move requests s event (s.go i (.refused why))
  | find (i : RequestId) (row : ActionExecution) (hphase : s.phase i = .idle)
      (hrow : checkRow (requests i) (s.table.view i (requests i).actionId) = .ok row) :
      Move requests s (.select i) (s.go i (.found row))
  | describe (i : RequestId) (rules : Uuid → Option (DispatchedRule F)) (row : ActionExecution)
      (deferred : DeferredAction F) (hphase : s.phase i = .found row) :
      Move requests s (.selectRule i rules) (s.go i (.described deferred))
  | lose (i : RequestId) (now : Datetime) (deferred : DeferredAction F)
      (hphase : s.phase i = .described deferred) :
      Move requests s (.update i now) (s.go i .failed)
  | write (i : RequestId) (now : Datetime) (deferred : DeferredAction F) (row : ActionExecution)
      (hphase : s.phase i = .described deferred)
      (hfree : s.table.free i (requests i).actionId = true)
      (hrow : s.table.view i (requests i).actionId = some row) :
      Move requests s (.update i now)
        ((s.withTable (s.table.write i (requests i).actionId
          (some { row with retriedAt := some now }))).go i (.written row.retriedAt deferred))
  | commit (i : RequestId) (before : Option Datetime) (deferred : DeferredAction F)
      (hphase : s.phase i = .written before deferred) :
      Move requests s (.commit i) ((s.withTable (s.table.commit i)).go i (.accepted deferred))
  | abort (i : RequestId) (hphase : (s.phase i).Underway) :
      Move requests s (.abort i) ((s.withTable (s.table.abort i)).go i .failed)

theorem Move.of_step (h : step requests s event = some s') : Move requests s event s' := by
  cases event with
  | select i =>
    simp only [step] at h
    split at h
    · rename_i hphase
      split at h
      · cases h
        exact .refuse _ i _ (.inl hphase) fun _ hevent => by cases hevent
      · rename_i row hrow
        cases h
        exact .find i row hphase hrow
    · cases h
  | selectRule i rules =>
    simp only [step] at h
    split at h
    · rename_i row hphase
      split at h
      · cases h
        exact .refuse _ i _ (.inr ⟨row, hphase⟩) fun _ hevent => by cases hevent
      · cases h
        exact .describe i rules row _ hphase
    · cases h
  | update i now =>
    simp only [step] at h
    split at h
    · rename_i deferred hphase
      split at h
      · rename_i hfree
        split at h
        · cases h
          exact .lose i now deferred hphase
        · rename_i row hrow
          cases h
          exact .write i now deferred row hphase hfree hrow
      · cases h
    · cases h
  | commit i =>
    simp only [step] at h
    split at h
    · rename_i before deferred hphase
      cases h
      exact .commit i before deferred hphase
    · cases h
  | abort i =>
    simp only [step] at h
    split at h
    · rename_i row hphase
      cases h
      exact .abort i (by rw [hphase]; trivial)
    · rename_i deferred hphase
      cases h
      exact .abort i (by rw [hphase]; trivial)
    · rename_i before deferred hphase
      cases h
      exact .abort i (by rw [hphase]; trivial)
    · cases h

@[simp] theorem go_table (phase : Phase F) : (s.go i phase).table = s.table := rfl

@[simp] theorem go_phase_self (phase : Phase F) : (s.go i phase).phase i = phase := if_pos rfl

theorem go_phase_ne {phase : Phase F} (h : j ≠ i) : (s.go i phase).phase j = s.phase j := if_neg h

@[simp] theorem withTable_table (table : Table Uuid ActionExecution RequestId) :
    (s.withTable table).table = table := rfl

@[simp] theorem withTable_phase (table : Table Uuid ActionExecution RequestId) :
    (s.withTable table).phase = s.phase := rfl

/-! ## The invariant -/

/-- The committed row under a key has been retried. -/
def State.Retried (s : State F) (k : Uuid) : Prop :=
  ∃ row, s.table.committed.get k = some row ∧ row.retriedAt ≠ none

/-- What holds of every state a run comes to: who has a lock is between its UPDATE and its end, a
row is retried once a request for it is accepted, and while a request that has read the row is on
its way, only then. -/
structure Inv (requests : RequestId → Request) (s : State F) : Prop where
  locks : ∀ k i version, s.table.pending.get k = some (i, version) →
    k = (requests i).actionId ∧ (∃ before deferred, s.phase i = .written before deferred) ∧
      ∃ row, version = some row ∧ row.retriedAt ≠ none
  holds : ∀ i before deferred, s.phase i = .written before deferred →
    ∃ version, s.table.pending.get (requests i).actionId = some (i, version)
  accepted : ∀ i, s.Accepted i → s.Retried (requests i).actionId
  underway : ∀ i, (s.phase i).Underway → s.Retried (requests i).actionId →
    ∃ j, s.Accepted j ∧ (requests j).actionId = (requests i).actionId
  fresh : ∀ i deferred, s.phase i = .written none deferred → ¬ s.Retried (requests i).actionId
  stale : ∀ i time deferred, s.phase i = .written (some time) deferred →
    ∃ j, s.Accepted j ∧ (requests j).actionId = (requests i).actionId

theorem Inv.start (rows : List (Uuid × ActionExecution)) :
    Inv requests (start rows : State F) := by
  refine ⟨?_, ?_, ?_, ?_, ?_, ?_⟩
  · intro k i version hlock
    cases hlock
  · intro i before deferred hphase
    cases hphase
  · rintro i ⟨deferred, hphase⟩
    cases hphase
  · intro i hunderway
    cases hunderway
  · intro i deferred hphase
    cases hphase
  · intro i time deferred hphase
    cases hphase

theorem accepted_go {phase : Phase F} (hold : ∀ deferred, s.phase i ≠ .accepted deferred)
    (hnew : ∀ deferred, phase ≠ .accepted deferred) :
    (s.go i phase).Accepted j ↔ s.Accepted j := by
  unfold State.Accepted
  by_cases heq : j = i
  · subst heq
    rw [go_phase_self]
    exact ⟨fun ⟨deferred, h⟩ => absurd h (hnew deferred), fun ⟨deferred, h⟩ =>
      absurd h (hold deferred)⟩
  · rw [go_phase_ne heq]

/-- A request that has no lock moves to a phase without one. -/
theorem Inv.go {phase : Phase F} (h : Inv requests s)
    (hold : ∀ deferred, s.phase i ≠ .accepted deferred)
    (hunwritten : ∀ before deferred, s.phase i ≠ .written before deferred)
    (hnew : ∀ deferred, phase ≠ .accepted deferred)
    (hnewUnwritten : ∀ before deferred, phase ≠ .written before deferred)
    (hunderway : phase.Underway → (s.phase i).Underway ∨ ¬ s.Retried (requests i).actionId) :
    Inv requests (s.go i phase) := by
  refine ⟨?_, ?_, ?_, ?_, ?_, ?_⟩
  · intro k t version hlock
    obtain ⟨hkey, ⟨before, deferred, hphase⟩, hrow⟩ := h.locks k t version hlock
    have hne : t ≠ i := fun heq => hunwritten before deferred (heq ▸ hphase)
    exact ⟨hkey, ⟨before, deferred, by rw [go_phase_ne hne]; exact hphase⟩, hrow⟩
  · intro t before deferred hphase
    by_cases heq : t = i
    · subst heq
      rw [go_phase_self] at hphase
      exact absurd hphase (hnewUnwritten before deferred)
    · rw [go_phase_ne heq] at hphase
      exact h.holds t before deferred hphase
  · intro t haccepted
    exact h.accepted t ((accepted_go hold hnew).mp haccepted)
  · intro t ht hretried
    by_cases heq : t = i
    · subst heq
      rw [go_phase_self] at ht
      cases hunderway ht with
      | inl hold' =>
        obtain ⟨j, hj, hkey⟩ := h.underway t hold' hretried
        exact ⟨j, (accepted_go hold hnew).mpr hj, hkey⟩
      | inr hnot => exact absurd hretried hnot
    · rw [go_phase_ne heq] at ht
      obtain ⟨j, hj, hkey⟩ := h.underway t ht hretried
      exact ⟨j, (accepted_go hold hnew).mpr hj, hkey⟩
  · intro t deferred hphase
    by_cases heq : t = i
    · subst heq
      rw [go_phase_self] at hphase
      exact absurd hphase (hnewUnwritten none deferred)
    · rw [go_phase_ne heq] at hphase
      exact h.fresh t deferred hphase
  · intro t time deferred hphase
    by_cases heq : t = i
    · subst heq
      rw [go_phase_self] at hphase
      exact absurd hphase (hnewUnwritten (some time) deferred)
    · rw [go_phase_ne heq] at hphase
      obtain ⟨j, hj, hkey⟩ := h.stale t time deferred hphase
      exact ⟨j, (accepted_go hold hnew).mpr hj, hkey⟩

/-- A request without a lock sees what is committed. -/
theorem Inv.view_committed (h : Inv requests s)
    (hphase : ∀ before deferred, s.phase i ≠ .written before deferred) (k : Uuid) :
    s.table.view i k = s.table.committed.get k := by
  apply Table.view_eq_committed
  intro version hlock
  obtain ⟨-, ⟨before, deferred, hwritten⟩, -⟩ := h.locks k i version hlock
  exact hphase before deferred hwritten

/-- A row that passes the checks has not been retried. -/
theorem checkRow_ok {request : Request} {found : Option ActionExecution} {row : ActionExecution}
    (h : checkRow request found = .ok row) : found = some row ∧ row.retriedAt = none := by
  unfold checkRow at h
  split at h
  · cases h
  · split at h
    · split at h
      · cases h
      · rename_i hnone
        split at h
        · cases h
          exact ⟨rfl, not_not.mp hnone⟩
        · cases h
    · cases h

theorem Inv.find (h : Inv requests s) {row : ActionExecution} (hphase : s.phase i = .idle)
    (hrow : checkRow (requests i) (s.table.view i (requests i).actionId) = .ok row) :
    Inv requests (s.go i (.found row)) := by
  refine h.go ?_ ?_ nofun nofun fun _ => .inr ?_
  · rw [hphase]
    exact nofun
  · rw [hphase]
    exact nofun
  · rintro ⟨row', hrow', hretried⟩
    obtain ⟨hview, hnone⟩ := checkRow_ok hrow
    rw [h.view_committed (by rw [hphase]; exact nofun), hrow'] at hview
    cases hview
    exact hretried hnone

variable {deferred : DeferredAction F}

/-- The UPDATE of a request: nothing is committed, and the row is its own until it ends. -/
theorem Inv.write (h : Inv requests s) {now : Datetime} {row : ActionExecution}
    (hphase : s.phase i = .described deferred) (hfree : s.table.free i (requests i).actionId = true)
    (hrow : s.table.view i (requests i).actionId = some row) :
    Inv requests ((s.withTable (s.table.write i (requests i).actionId
      (some { row with retriedAt := some now }))).go i (.written row.retriedAt deferred)) := by
  -- It held no lock before, so it reads the committed row.
  have hunwritten : ∀ before deferred, s.phase i ≠ .written before deferred := by
    rw [hphase]
    exact nofun
  have hcommitted : s.table.committed.get (requests i).actionId = some row :=
    (h.view_committed hunwritten _).symm.trans hrow
  have haccepted : ∀ j, State.Accepted ((s.withTable (s.table.write i (requests i).actionId
      (some { row with retriedAt := some now }))).go i (.written row.retriedAt deferred)) j ↔
      s.Accepted j := by
    intro j
    exact accepted_go (by rw [withTable_phase, hphase]; exact nofun) nofun
  refine ⟨?_, ?_, ?_, ?_, ?_, ?_⟩
  · intro k t version hlock
    rw [go_table, withTable_table, Table.write_pending] at hlock
    split at hlock
    · rename_i hk
      cases hlock
      exact ⟨hk, ⟨_, _, go_phase_self _⟩, _, rfl, Option.some_ne_none _⟩
    · obtain ⟨hkey, ⟨before, deferred', hwritten⟩, hrow'⟩ := h.locks k t version hlock
      have hne : t ≠ i := fun heq => hunwritten before deferred' (heq ▸ hwritten)
      exact ⟨hkey, ⟨before, deferred', by rw [go_phase_ne hne]; exact hwritten⟩, hrow'⟩
  · intro t before deferred' hwritten
    by_cases heq : t = i
    · subst heq
      exact ⟨_, Table.write_pending_self⟩
    · rw [go_phase_ne heq] at hwritten
      obtain ⟨version, hlock⟩ := h.holds t before deferred' hwritten
      -- Another that has written holds the lock of another row, or this one had to wait.
      have hkey : (requests t).actionId ≠ (requests i).actionId := by
        intro hkey
        rw [hkey] at hlock
        exact heq (Table.free_iff.mp hfree t version hlock)
      exact ⟨version, (Table.write_pending_ne hkey).trans hlock⟩
  · intro t ht
    exact h.accepted t ((haccepted t).mp ht)
  · intro t ht hretried
    have hunderway : (s.phase t).Underway := by
      by_cases heq : t = i
      · subst heq
        rw [hphase]
        trivial
      · rw [go_phase_ne heq] at ht
        exact ht
    obtain ⟨j, hj, hkey⟩ := h.underway t hunderway hretried
    exact ⟨j, (haccepted j).mpr hj, hkey⟩
  · intro t deferred' hwritten
    by_cases heq : t = i
    · subst heq
      rw [go_phase_self] at hwritten
      rintro ⟨row', hrow', hretried⟩
      rw [go_table, withTable_table, Table.write_committed, hcommitted] at hrow'
      cases hrow'
      injection hwritten with hnone
      exact hretried hnone
    · rw [go_phase_ne heq] at hwritten
      exact h.fresh t deferred' hwritten
  · intro t time deferred' hwritten
    by_cases heq : t = i
    · subst heq
      rw [go_phase_self] at hwritten
      injection hwritten with hsome
      -- The stamp it read was committed, so an earlier request was accepted.
      have hretried : s.Retried (requests t).actionId :=
        ⟨row, hcommitted, by rw [hsome]; exact Option.some_ne_none _⟩
      obtain ⟨j, hj, hkey⟩ := h.underway t (by rw [hphase]; trivial) hretried
      exact ⟨j, (haccepted j).mpr hj, hkey⟩
    · rw [go_phase_ne heq] at hwritten
      obtain ⟨j, hj, hkey⟩ := h.stale t time deferred' hwritten
      exact ⟨j, (haccepted j).mpr hj, hkey⟩

/-- A request that ends without a commit. -/
theorem Inv.abort (h : Inv requests s) (hphase : (s.phase i).Underway) :
    Inv requests ((s.withTable (s.table.abort i)).go i .failed) := by
  have hold : ∀ deferred, s.phase i ≠ .accepted deferred := by
    intro deferred heq
    rw [heq] at hphase
    exact hphase
  have haccepted : ∀ j, State.Accepted ((s.withTable (s.table.abort i)).go i .failed) j ↔
      s.Accepted j := fun j => accepted_go hold nofun
  have hne : ∀ t, (((s.withTable (s.table.abort i)).go i .failed).phase t).Underway → t ≠ i := by
    intro t ht heq
    subst heq
    rw [go_phase_self] at ht
    exact ht
  refine ⟨?_, ?_, ?_, ?_, ?_, ?_⟩
  · intro k t version hlock
    obtain ⟨hlock, hti⟩ := Table.abort_pending.mp hlock
    obtain ⟨hkey, ⟨before, deferred, hwritten⟩, hrow⟩ := h.locks k t version hlock
    exact ⟨hkey, ⟨before, deferred, by rw [go_phase_ne hti]; exact hwritten⟩, hrow⟩
  · intro t before deferred hwritten
    have hti := hne t (by rw [hwritten]; trivial)
    rw [go_phase_ne hti] at hwritten
    obtain ⟨version, hlock⟩ := h.holds t before deferred hwritten
    exact ⟨version, Table.abort_pending.mpr ⟨hlock, hti⟩⟩
  · intro t ht
    exact h.accepted t ((haccepted t).mp ht)
  · intro t ht hretried
    have hti := hne t ht
    rw [go_phase_ne hti] at ht
    obtain ⟨j, hj, hkey⟩ := h.underway t ht hretried
    exact ⟨j, (haccepted j).mpr hj, hkey⟩
  · intro t deferred hwritten
    have hti := hne t (by rw [hwritten]; trivial)
    rw [go_phase_ne hti] at hwritten
    exact h.fresh t deferred hwritten
  · intro t time deferred hwritten
    have hti := hne t (by rw [hwritten]; trivial)
    rw [go_phase_ne hti] at hwritten
    obtain ⟨j, hj, hkey⟩ := h.stale t time deferred hwritten
    exact ⟨j, (haccepted j).mpr hj, hkey⟩

theorem accepted_commit :
    State.Accepted ((s.withTable (s.table.commit i)).go i (.accepted deferred)) j ↔
      j = i ∨ s.Accepted j := by
  unfold State.Accepted
  by_cases heq : j = i
  · subst heq
    rw [go_phase_self]
    exact ⟨fun _ => .inl rfl, fun _ => ⟨deferred, rfl⟩⟩
  · rw [go_phase_ne heq, withTable_phase]
    exact ⟨.inr, fun hor => hor.resolve_left heq⟩

/-- What a commit retries: its own row, beside what had been retried. -/
theorem Inv.retried_commit (h : Inv requests s) {before : Option Datetime}
    (hphase : s.phase i = .written before deferred) (k : Uuid) :
    State.Retried ((s.withTable (s.table.commit i)).go i (.accepted deferred)) k ↔
      k = (requests i).actionId ∨ s.Retried k := by
  unfold State.Retried
  rw [go_table, withTable_table]
  by_cases hk : k = (requests i).actionId
  · subst hk
    obtain ⟨version, hlock⟩ := h.holds i before deferred hphase
    obtain ⟨-, -, row, hversion, hretried⟩ := h.locks _ i version hlock
    refine ⟨fun _ => .inl rfl, fun _ => ⟨row, ?_, hretried⟩⟩
    rw [Table.commit_committed, Table.view_of_pending hlock, hversion]
  · have hunlocked : ∀ version, s.table.pending.get k ≠ some (i, version) :=
      fun version hlock => hk (h.locks k i version hlock).1
    rw [Table.commit_of_not_pending hunlocked]
    exact ⟨.inr, fun hor => hor.resolve_left hk⟩

theorem Inv.commit (h : Inv requests s) {before : Option Datetime}
    (hphase : s.phase i = .written before deferred) :
    Inv requests ((s.withTable (s.table.commit i)).go i (.accepted deferred)) := by
  have hne : ∀ t,
      (((s.withTable (s.table.commit i)).go i (.accepted deferred)).phase t).Underway → t ≠ i := by
    intro t ht heq
    subst heq
    rw [go_phase_self] at ht
    exact ht
  refine ⟨?_, ?_, ?_, ?_, ?_, ?_⟩
  · intro k t version hlock
    obtain ⟨hlock, hti⟩ := Table.commit_pending.mp hlock
    obtain ⟨hkey, ⟨before, deferred, hwritten⟩, hrow⟩ := h.locks k t version hlock
    exact ⟨hkey, ⟨before, deferred, by rw [go_phase_ne hti]; exact hwritten⟩, hrow⟩
  · intro t before' deferred' hwritten
    have hti := hne t (by rw [hwritten]; trivial)
    rw [go_phase_ne hti] at hwritten
    obtain ⟨version, hlock⟩ := h.holds t before' deferred' hwritten
    exact ⟨version, Table.commit_pending.mpr ⟨hlock, hti⟩⟩
  · intro t ht
    rw [h.retried_commit hphase]
    cases accepted_commit.mp ht with
    | inl heq => exact .inl (heq ▸ rfl)
    | inr ht => exact .inr (h.accepted t ht)
  · intro t ht hretried
    have hti := hne t ht
    rw [go_phase_ne hti] at ht
    cases (h.retried_commit hphase _).mp hretried with
    | inl hkey => exact ⟨i, accepted_commit.mpr (.inl rfl), hkey.symm⟩
    | inr hretried =>
      obtain ⟨j, hj, hkey⟩ := h.underway t ht hretried
      exact ⟨j, accepted_commit.mpr (.inr hj), hkey⟩
  · intro t deferred' hwritten
    have hti := hne t (by rw [hwritten]; trivial)
    rw [go_phase_ne hti] at hwritten
    rw [h.retried_commit hphase, not_or]
    refine ⟨?_, h.fresh t deferred' hwritten⟩
    -- two locks on one row
    intro hkey
    obtain ⟨version, hlock⟩ := h.holds t none deferred' hwritten
    obtain ⟨version', hlock'⟩ := h.holds i before deferred hphase
    rw [hkey, hlock'] at hlock
    cases hlock
    exact hti rfl
  · intro t time deferred' hwritten
    have hti := hne t (by rw [hwritten]; trivial)
    rw [go_phase_ne hti] at hwritten
    obtain ⟨j, hj, hkey⟩ := h.stale t time deferred' hwritten
    exact ⟨j, accepted_commit.mpr (.inr hj), hkey⟩

/-- **Every statement keeps the invariant.** -/
theorem Inv.move (h : Inv requests s) (hmove : Move requests s event s') : Inv requests s' := by
  cases hmove with
  | refuse _ i why hphase _ =>
    refine h.go ?_ ?_ nofun nofun nofun
    · rcases hphase with hphase | ⟨row, hphase⟩ <;> rw [hphase] <;> exact nofun
    · rcases hphase with hphase | ⟨row, hphase⟩ <;> rw [hphase] <;> exact nofun
  | find i row hphase hrow => exact h.find hphase hrow
  | describe i rules row deferred hphase =>
    refine h.go ?_ ?_ nofun nofun fun _ => .inl ?_
    · rw [hphase]
      exact nofun
    · rw [hphase]
      exact nofun
    · rw [hphase]
      trivial
  | lose i now deferred hphase =>
    refine h.go ?_ ?_ nofun nofun nofun
    · rw [hphase]
      exact nofun
    · rw [hphase]
      exact nofun
  | write i now deferred row hphase hfree hrow => exact h.write hphase hfree hrow
  | commit i before deferred hphase => exact h.commit hphase
  | abort i hphase => exact h.abort hphase

/-! ## Who is accepted -/

/-- Nobody is accepted by a statement that is not a commit. -/
theorem accepted_go_iff {phase : Phase F} (hold : ∀ deferred, s.phase i ≠ .accepted deferred)
    (hnew : ∀ deferred, phase ≠ .accepted deferred) (hevent : event ≠ .commit j) :
    (s.go i phase).Accepted j ↔ event = .commit j ∨ s.Accepted j := by
  rw [accepted_go hold hnew]
  exact ⟨.inr, fun hor => hor.resolve_left hevent⟩

/-- A request is accepted by its commit and by nothing else, and stays accepted. -/
theorem Move.accepted_iff (hmove : Move requests s event s') :
    s'.Accepted j ↔ event = .commit j ∨ s.Accepted j := by
  cases hmove with
  | refuse _ i why hphase hevent =>
    refine accepted_go_iff ?_ nofun (hevent j)
    rcases hphase with hphase | ⟨row, hphase⟩ <;> rw [hphase] <;> exact nofun
  | find i row hphase hrow =>
    refine accepted_go_iff ?_ nofun nofun
    rw [hphase]
    exact nofun
  | describe i rules row deferred hphase =>
    refine accepted_go_iff ?_ nofun nofun
    rw [hphase]
    exact nofun
  | lose i now deferred hphase =>
    refine accepted_go_iff ?_ nofun nofun
    rw [hphase]
    exact nofun
  | write i now deferred row hphase hfree hrow =>
    refine accepted_go_iff (s := s.withTable _) ?_ nofun nofun
    rw [withTable_phase, hphase]
    exact nofun
  | commit i before deferred hphase =>
    rw [accepted_commit]
    constructor
    · rintro (rfl | haccepted)
      · exact .inl rfl
      · exact .inr haccepted
    · rintro (heq | haccepted)
      · cases heq
        exact .inl rfl
      · exact .inr haccepted
  | abort i hphase =>
    refine accepted_go_iff (s := s.withTable _) ?_ nofun nofun
    intro deferred heq
    rw [withTable_phase] at heq
    rw [heq] at hphase
    exact hphase

/-- What has been retried twice stays so. -/
theorem RetriedOnce.of_move (hmove : Move requests s event s') (h : RetriedOnce requests s') :
    RetriedOnce requests s := fun i j hi hj =>
  h i j (hmove.accepted_iff.mpr (.inr hi)) (hmove.accepted_iff.mpr (.inr hj))

/-- A fit commit finds nobody accepted for its row. -/
theorem RetriedOnce.move (hinv : Inv requests s) (h : RetriedOnce requests s) (hfit : Fit s event)
    (hmove : Move requests s event s') : RetriedOnce requests s' := by
  have halone : ∀ i j, event = .commit i → s.Accepted j →
      (requests i).actionId ≠ (requests j).actionId := by
    rintro i j rfl hj hkey
    cases hmove with
    | refuse _ _ _ _ hevent => exact hevent i rfl
    | commit _ before deferred hphase =>
      cases hfit i before deferred rfl hphase
      exact hinv.fresh i deferred hphase (hkey ▸ hinv.accepted j hj)
  intro i j hi hj hkey
  cases hmove.accepted_iff.mp hi with
  | inl hcommit =>
    cases hmove.accepted_iff.mp hj with
    | inl hcommit' =>
      rw [hcommit] at hcommit'
      cases hcommit'
      rfl
    | inr hj => exact absurd hkey (halone i j hcommit hj)
  | inr hi =>
    cases hmove.accepted_iff.mp hj with
    | inl hcommit => exact absurd hkey.symm (halone j i hcommit hi)
    | inr hj => exact h i j hi hj hkey

/-- A commit that is not fit is the second one for its row. -/
theorem Inv.unfit (hinv : Inv requests s) (hfit : ¬ Fit s event)
    (hmove : Move requests s event s') : ¬ RetriedOnce requests s' := by
  unfold Fit at hfit
  push Not at hfit
  obtain ⟨i, before, deferred, rfl, hphase, hbefore⟩ := hfit
  obtain ⟨time, rfl⟩ := Option.ne_none_iff_exists'.mp hbefore
  obtain ⟨j, ⟨deferred', hj⟩, hkey⟩ := hinv.stale i time deferred hphase
  intro honce
  have heq : j = i := honce j i (hmove.accepted_iff.mpr (.inr ⟨deferred', hj⟩))
    (hmove.accepted_iff.mpr (.inl rfl)) hkey
  rw [heq, hphase] at hj
  cases hj

end

/-- **A failed delivery is retried once** exactly if no request commits whose UPDATE came upon a row
that had been retried by then. This is about every run, whatever the requests, the stored rows and
the order of the statements. -/
theorem retriedOnce_iff (requests : RequestId → Request) (rows : List (Uuid × ActionExecution))
    (events : List (Event F)) (s : State F)
    (h : run (step requests) (start rows) events = some s) :
    RetriedOnce requests s ↔ RunMeets (step requests) Fit (start rows) events := by
  rw [← not_bad_iff_runMeets (Inv requests) (fun s => ¬ RetriedOnce requests s) ?_ ?_ ?_
    ?_ (Inv.start rows) ?_ h, not_not]
  · intro s event s' hinv hstep
    exact hinv.move (.of_step hstep)
  · intro s event s' hbad hstep honce
    exact hbad (honce.of_move (.of_step hstep))
  · intro s event s' hinv hgood hfit hstep hbad
    exact hbad ((not_not.mp hgood).move hinv hfit (.of_step hstep))
  · intro s event s' hinv hfit hstep
    exact hinv.unfit hfit (.of_step hstep)
  · intro hbad
    apply hbad
    rintro i j ⟨deferred, hphase⟩
    cases hphase

/-! ## A double click -/

/-- A webhook that has failed. -/
def failedWebhook : ActionExecution :=
  { tenantId := "tenant"
    ruleId := "rule"
    edge := .fire
    actionType := "webhook"
    actionIndex := some 0
    status := .failed
    retriedAt := none }

def webhookRule : DispatchedRule Int :=
  { id := "rule"
    tenantId := "tenant"
    name := "Overheating"
    strategy := .edge
    actions := [.known (.webhook { url := "https://example.com/alarm" })]
    clearActions := [] }

def theRule (id : Uuid) : Option (DispatchedRule Int) :=
  if id = "rule" then some webhookRule else none

/-- Everybody asks for the same row. -/
def sameRow (_ : RequestId) : Request := ⟨"tenant", "row"⟩

/-- One request after the other. -/
def oneAfterTheOther : List (Event Int) :=
  [.select 0, .selectRule 0 theRule, .update 0 10, .commit 0, .select 1]

/-- Both have read before the first one writes. -/
def doubleClick : List (Event Int) :=
  [.select 0, .select 1, .selectRule 0 theRule, .selectRule 1 theRule, .update 0 10, .commit 0,
    .update 1 11, .commit 1]

/-- The state a list of events comes to. -/
def after (events : List (Event Int)) : Option (State Int) :=
  run (step sameRow) (start [("row", failedWebhook)]) events

/-- The second one is refused. -/
theorem retriedOnce_oneAfterTheOther : ∃ s, after oneAfterTheOther = some s ∧
    RetriedOnce sameRow s := by
  refine ⟨_, rfl, (retriedOnce_iff sameRow [("row", failedWebhook)] oneAfterTheOther _ rfl).mpr ?_⟩
  refine ⟨nofun, fun s hs => ?_⟩
  cases hs
  refine ⟨nofun, fun s hs => ?_⟩
  cases hs
  refine ⟨nofun, fun s hs => ?_⟩
  cases hs
  refine ⟨?_, fun s hs => ?_⟩
  · intro i before deferred hevent hphase
    cases hevent
    cases hphase
    rfl
  · cases hs
    exact ⟨nofun, fun s hs => trivial⟩

/-- **A double click sends the webhook twice.** -/
theorem doubleClick_sends_twice : ∃ s, after doubleClick = some s ∧
    ¬ RetriedOnce sameRow s := by
  refine ⟨_, rfl, ?_⟩
  intro honce
  exact absurd (honce 0 1 ⟨_, rfl⟩ ⟨_, rfl⟩ rfl) (by decide)

end IotSaas.Api.Retry
