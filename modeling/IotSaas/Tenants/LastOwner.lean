import IotSaas.Lib.Reach
import IotSaas.Lib.ReadCommitted
import IotSaas.Tenants.Roles

/-!
# `Tenants/LastOwner.lean` — the last owner, under concurrent requests

Every request that touches a membership is a transaction at READ COMMITTED: it reads the actor's
role, then the target's row, then (for an owner) the number of owners, then writes one row, then
commits. Any number of them run at once, and their statements interleave in any order; a write waits
for another one on the same row, and for nothing else.

What a request counted need not hold when it commits. `last_owner_lost` is two owners who leave at
the same moment: each counts two. `last_owner_kept` says when that is all: a request that takes the
owner role away keeps an owner behind as long as, since it read its target, no other request has
taken an owner's role in that tenant, nor made the target an owner (`Undisturbed`).
-/

set_option autoImplicit false

namespace IotSaas.Tenants

open Lib Rules

/-! ## Requests in flight -/

/-- A membership's key: its tenant and its user, unique together. -/
abbrev MemberKey := Uuid × Uuid

abbrev TxnId := Nat

abbrev Memberships := Table MemberKey Membership TxnId

/-- The requests that write memberships, by the ids they have resolved. What is known of an
invitation is what its row says, whatever that is. -/
inductive MemberRequest where
  | createTenant (user tenant : Uuid)
  | addMember (actor tenant user : Uuid) (role : TenantRole)
  | changeRole (actor tenant user : Uuid) (role : TenantRole)
  | removeMember (actor tenant user : Uuid)
  | leave (actor tenant : Uuid)
  | acceptInvitation (user tenant : Uuid) (role : TenantRole)
  deriving DecidableEq

namespace MemberRequest

/-- The row it is about. -/
def target : MemberRequest → MemberKey
  | createTenant user tenant => (tenant, user)
  | addMember _ tenant user _ => (tenant, user)
  | changeRole _ tenant user _ => (tenant, user)
  | removeMember _ tenant user => (tenant, user)
  | leave actor tenant => (tenant, actor)
  | acceptInvitation user tenant _ => (tenant, user)

end MemberRequest

/-- How far a request has come. -/
inductive Phase where
  | begun
  /-- The actor's role has been read, and suffices. -/
  | admitted (actorRole : TenantRole)
  /-- The target is an owner who would not stay one: the owners are to be counted. -/
  | found (row : Membership)
  /-- Nothing stands against the write. -/
  | cleared (row : Membership)
  /-- There is no row, and there is to be one. -/
  | absent (role : TenantRole)
  /-- Everything is written. -/
  | written
  deriving DecidableEq

structure Txn where
  request : MemberRequest
  phase : Phase := .begun
  /-- Since it read its target, another commit has taken an owner's role in its tenant, or has made
  its target an owner. Nothing in the code knows this. -/
  overtaken : Bool := false

structure MemberState where
  memberships : Memberships := {}
  tenants : List Uuid := []
  inflight : Dict TxnId Txn := .empty

namespace MemberState

/-- The transaction goes on. -/
def goOn (s : MemberState) (t : TxnId) (txn : Txn) (phase : Phase) : MemberState :=
  { s with inflight := s.inflight.set t { txn with phase := phase } }

/-- The target has been read: from here on it counts what others commit. -/
def readTarget (s : MemberState) (t : TxnId) (txn : Txn) (phase : Phase) : MemberState :=
  { s with inflight := s.inflight.set t { txn with phase := phase, overtaken := false } }

/-- It raises, and is rolled back. -/
def rollback (s : MemberState) (t : TxnId) : MemberState :=
  { s with memberships := s.memberships.abort t, inflight := s.inflight.erase t }

/-- A write, when the row's lock is free. -/
def writeRow (s : MemberState) (t : TxnId) (txn : Txn) (version : Option Membership) :
    Option MemberState :=
  let key := txn.request.target
  if s.memberships.free t key then
    some { s with
      memberships := s.memberships.write t key version
      inflight := s.inflight.set t { txn with phase := .written } }
  else none

end MemberState

open MemberState

/-! ## The statements -/

/-- `INSERT INTO tenant_memberships`: waits for whoever writes the key, and fails on a row that is
there then. -/
def insertRow (s : MemberState) (t : TxnId) (txn : Txn) (rowId : Uuid) (role : TenantRole) :
    Option MemberState :=
  if s.memberships.free t txn.request.target then
    match s.memberships.view t txn.request.target with
    | some _ => some (s.rollback t)
    | none => s.writeRow t txn (some ⟨rowId, role⟩)
  else none

/-- `UPDATE tenant_memberships SET role = … WHERE id = …`: an update that finds no row is an
error. -/
def updateRow (s : MemberState) (t : TxnId) (txn : Txn) (row : Membership) (role : TenantRole) :
    Option MemberState :=
  if s.memberships.free t txn.request.target then
    match s.memberships.view t txn.request.target with
    | some current =>
        if current.id = row.id then s.writeRow t txn (some { current with role := role })
        else some (s.rollback t)
    | none => some (s.rollback t)
  else none

/-- `DELETE FROM tenant_memberships WHERE id = …`: a row that is gone already is none to delete. -/
def deleteRow (s : MemberState) (t : TxnId) (txn : Txn) (row : Membership) : Option MemberState :=
  if s.memberships.free t txn.request.target then
    match s.memberships.view t txn.request.target with
    | some current =>
        if current.id = row.id then s.writeRow t txn none else some (s.goOn t txn .written)
    | none => some (s.goOn t txn .written)
  else none

/-- A gate that reads nothing: what it refuses is rolled back. -/
def gate {α : Type} (s : MemberState) (t : TxnId) (check : Except TenantError α)
    (next : α → MemberState) : MemberState :=
  match check with
  | .error _ => s.rollback t
  | .ok a => next a

/-- The role the actor has, and what its route wants of it. -/
def admitActor (request : MemberRequest) (role : Option TenantRole) : Except TenantError TenantRole :=
  match requireTenantContext role with
  | .error e => .error e
  | .ok role =>
      match request with
      | .addMember _ _ _ granted =>
          match requireRole .admin role with
          | .error e => .error e
          | .ok () => (assertCanAssign role granted).map fun _ => role
      | .changeRole .. | .removeMember .. => (requireRole .admin role).map fun _ => role
      | _ => .ok role

/-- The first statement. -/
def begunStatement (s : MemberState) (t : TxnId) (txn : Txn) (rowId : Uuid) :
    Option MemberState :=
  match txn.request with
  | .createTenant _ tenant =>
      if tenant ∈ s.tenants then some (s.rollback t) else insertRow s t txn rowId .owner
  | .acceptInvitation user tenant role =>
      -- an existing member stays what it is
      match s.memberships.view t (tenant, user) with
      | some _ => some (s.goOn t txn .written)
      | none => some (s.goOn t txn (.absent role))
  | .addMember actor tenant .. | .changeRole actor tenant .. | .removeMember actor tenant _
  | .leave actor tenant =>
      let role := (s.memberships.view t (tenant, actor)).map Membership.role
      some (gate s t (admitActor txn.request role) fun role => s.goOn t txn (.admitted role))

/-- The statement that reads the target. -/
def targetStatement (s : MemberState) (t : TxnId) (txn : Txn) (actorRole : TenantRole) :
    MemberState :=
  let row := s.memberships.view t txn.request.target
  match txn.request, row with
  | .addMember _ _ _ _, some _ => s.rollback t
  | .addMember _ _ _ role, none => s.goOn t txn (.absent role)
  | .changeRole _ _ _ role, some row =>
      gate s t (checkChange actorRole row.role role) fun counts =>
        s.readTarget t txn (if counts then .found row else .cleared row)
  | .removeMember _ _ _, some row | .leave _ _, some row =>
      gate s t (checkRemove actorRole row.role) fun counts =>
        s.readTarget t txn (if counts then .found row else .cleared row)
  | _, _ => s.rollback t

/-- `_owner_count`. -/
def ownerCount (s : MemberState) (t : TxnId) (tenant : Uuid) : Nat :=
  (s.memberships.snapshot t fun key m => decide (key.1 = tenant ∧ m.role = .owner)).length

/-- The next statement of a transaction; `none` while it waits for a lock, or has none left. -/
def statement (s : MemberState) (t : TxnId) (txn : Txn) (rowId : Uuid) : Option MemberState :=
  match txn.phase with
  | .begun => begunStatement s t txn rowId
  | .admitted actorRole => some (targetStatement s t txn actorRole)
  | .found row =>
      some (gate s t (checkOwnerCount (ownerCount s t txn.request.target.1)) fun _ =>
        s.goOn t txn (.cleared row))
  | .cleared row =>
      match txn.request with
      | .changeRole _ _ _ role =>
          -- an attribute set to the value it was read with is no change
          if role = row.role then some (s.goOn t txn .written) else updateRow s t txn row role
      | .removeMember .. | .leave .. => deleteRow s t txn row
      | _ => some (s.rollback t)
  | .absent role =>
      if txn.request.target.1 ∈ s.tenants then insertRow s t txn rowId role
      else some (s.rollback t)
  | .written => none

/-! ## Commits -/

def isOwner (row : Option Membership) : Bool := row.any fun m => m.role = .owner

/-- Committing `t` takes the owner's role from the member under `key`. -/
def takesOwner (s : MemberState) (t : TxnId) (key : MemberKey) : Bool :=
  isOwner (s.memberships.committed.get key) && !isOwner (s.memberships.view t key)

/-- Committing `t` makes the member under `key` an owner. -/
def givesOwner (s : MemberState) (t : TxnId) (key : MemberKey) : Bool :=
  !isOwner (s.memberships.committed.get key) && isOwner (s.memberships.view t key)

/-- What the commit of `t`, a write of the row under `key`, is to another request. -/
def overtake (s : MemberState) (t : TxnId) (key : MemberKey) (other : Txn) : Txn :=
  { other with
    overtaken := other.overtaken ||
      (decide (other.request.target.1 = key.1) && takesOwner s t key) ||
      (decide (other.request.target = key) && givesOwner s t key) }

def commit (s : MemberState) (t : TxnId) (txn : Txn) : MemberState :=
  let key := txn.request.target
  { memberships := s.memberships.commit t
    tenants :=
      match txn.request with
      | .createTenant _ tenant => s.tenants ++ [tenant]
      | _ => s.tenants
    inflight := (s.inflight.erase t).mapValues (overtake s t key) }

inductive MemberEvent where
  | begin (t : TxnId) (request : MemberRequest)
  /-- The next statement of `t`; `rowId` is the `uuid4` of a row it inserts. -/
  | statement (t : TxnId) (rowId : Uuid)
  | commit (t : TxnId)
  /-- A connection is lost, or anything else raises. -/
  | fail (t : TxnId)

def memberStep (s : MemberState) : MemberEvent → Option MemberState
  | .begin t request =>
      match s.inflight.get t with
      | some _ => none
      | none => some { s with inflight := s.inflight.set t { request := request } }
  | .statement t rowId =>
      match s.inflight.get t with
      | none => none
      | some txn => statement s t txn rowId
  | .commit t =>
      match s.inflight.get t with
      | none => none
      | some txn => if txn.phase = .written then some (commit s t txn) else none
  | .fail t =>
      match s.inflight.get t with
      | none => none
      | some _ => some (s.rollback t)

/-- The commit takes an owner's role, and was overtaken. -/
def disturbed (s : MemberState) : MemberEvent → Bool
  | .commit t =>
      (s.inflight.get t).any fun txn => takesOwner s t txn.request.target && txn.overtaken
  | _ => false

/-- No request takes an owner's role on the strength of what has changed since it read it. -/
abbrev Undisturbed (s : MemberState) (e : MemberEvent) : Prop := disturbed s e = false

/-- Every tenant has an owner. -/
def Owned (s : MemberState) : Prop :=
  ∀ tenant ∈ s.tenants, ∃ user, isOwner (s.memberships.committed.get (tenant, user)) = true

/-! ## What a statement leaves alone -/

/-- `s'` is `s` but for what `t` has done, uncommitted. -/
structure Local (t : TxnId) (s s' : MemberState) : Prop where
  committed : s'.memberships.committed = s.memberships.committed
  tenants : s'.tenants = s.tenants
  others : ∀ u, u ≠ t → s'.inflight.get u = s.inflight.get u
  locks : ∀ k u version, u ≠ t →
    (s'.memberships.pending.get k = some (u, version) ↔
      s.memberships.pending.get k = some (u, version))

section

variable {s s' : MemberState} {t u : TxnId} {txn : Txn} {phase : Phase}

theorem goOn_local : Local t s (s.goOn t txn phase) :=
  ⟨rfl, rfl, fun _ h => Dict.get_set_ne _ _ h, fun _ _ _ _ => Iff.rfl⟩

theorem readTarget_local : Local t s (s.readTarget t txn phase) :=
  ⟨rfl, rfl, fun _ h => Dict.get_set_ne _ _ h, fun _ _ _ _ => Iff.rfl⟩

theorem rollback_local : Local t s (s.rollback t) := by
  refine ⟨rfl, rfl, fun u hu => ?_, fun k u version hu => ?_⟩
  · exact Dict.get_erase_ne _ hu
  · exact Table.abort_pending.trans ⟨And.left, fun h => ⟨h, hu⟩⟩

theorem writeRow_local {version : Option Membership} (h : s.writeRow t txn version = some s') :
    Local t s s' := by
  obtain ⟨hfree, h⟩ := Option.ite_none_right_eq_some.mp h
  cases h
  refine ⟨rfl, rfl, fun u hu => Dict.get_set_ne _ _ hu, fun k u version hu => ?_⟩
  by_cases hk : k = txn.request.target
  · subst hk
    constructor
    · intro hlock
      rw [Table.write_pending_self] at hlock
      cases hlock
      exact absurd rfl hu
    · intro hlock
      exact absurd (Table.free_iff.mp hfree u version hlock) hu
  · dsimp only
    rw [Table.write_pending_ne hk]

end

/-! ## What a request may rely on -/

/-- Somebody else in the tenant is an owner. -/
def OtherOwner (s : MemberState) (key : MemberKey) : Prop :=
  ∃ user, (key.1, user) ≠ key ∧ isOwner (s.memberships.committed.get (key.1, user)) = true

/-- The request leaves its target an owner. -/
def keepsOwner : MemberRequest → Bool
  | .changeRole _ _ _ role => decide (role = .owner)
  | _ => false

/-- What a request has made sure of, if nothing has overtaken it: its target is no owner, or stays
one, or is not the only one. -/
def Sound (s : MemberState) (t : TxnId) (txn : Txn) : Prop :=
  let key := txn.request.target
  match txn.phase with
  | .cleared _ =>
      txn.overtaken = false → isOwner (s.memberships.committed.get key) = true →
        keepsOwner txn.request = true ∨ OtherOwner s key
  | .written =>
      (txn.overtaken = false → takesOwner s t key = true → OtherOwner s key) ∧
        ∀ user tenant, txn.request = .createTenant user tenant →
          ∃ row, s.memberships.pending.get key = some (t, row) ∧ isOwner row = true
  | .absent _ => ∀ user tenant, txn.request ≠ .createTenant user tenant
  | _ => True

/-- The transaction holds no lock but the one on what it has written, and is sound. -/
structure Own (s : MemberState) (t : TxnId) : Prop where
  locks : ∀ k version, s.memberships.pending.get k = some (t, version) →
    ∃ txn, s.inflight.get t = some txn ∧ txn.phase = .written ∧ txn.request.target = k
  sound : ∀ txn, s.inflight.get t = some txn → Sound s t txn

/-- `s'` is `s` after a statement of `t`. -/
abbrev Fine (t : TxnId) (s s' : MemberState) : Prop := Local t s s' ∧ Own s' t

section

variable {s s' : MemberState} {t : TxnId} {txn : Txn} {phase : Phase}

/-- Before it writes, a transaction holds no lock. -/
theorem Own.idle (h : Own s t) (htxn : s.inflight.get t = some txn) (hphase : txn.phase ≠ .written)
    (k : MemberKey) (version : Option Membership) :
    s.memberships.pending.get k ≠ some (t, version) := by
  intro hlock
  obtain ⟨txn', htxn', hwritten, _⟩ := h.locks k version hlock
  rw [htxn] at htxn'
  cases htxn'
  exact hphase hwritten

theorem rollback_fine : Fine t s (s.rollback t) := by
  refine ⟨rollback_local, ⟨fun k version hlock => ?_, fun txn htxn => ?_⟩⟩
  · exact absurd rfl (Table.abort_pending.mp hlock).2
  · have hnone : (s.rollback t).inflight.get t = none := Dict.get_erase_self _ _
    rw [hnone] at htxn
    cases htxn

variable (hidle : ∀ k version, s.memberships.pending.get k ≠ some (t, version))
include hidle

theorem goOn_fine (hsound : Sound s t { txn with phase := phase }) :
    Fine t s (s.goOn t txn phase) := by
  refine ⟨goOn_local, ⟨fun k version hlock => absurd hlock (hidle k version), fun txn' htxn => ?_⟩⟩
  have hset : (s.goOn t txn phase).inflight.get t = some { txn with phase := phase } :=
    Dict.get_set_self _ _ _
  rw [hset] at htxn
  cases htxn
  exact hsound

theorem readTarget_fine (hsound : Sound s t { txn with phase := phase, overtaken := false }) :
    Fine t s (s.readTarget t txn phase) := by
  refine ⟨readTarget_local,
    ⟨fun k version hlock => absurd hlock (hidle k version), fun txn' htxn => ?_⟩⟩
  have hset : (s.readTarget t txn phase).inflight.get t =
      some { txn with phase := phase, overtaken := false } := Dict.get_set_self _ _ _
  rw [hset] at htxn
  cases htxn
  exact hsound

/-- Nothing to write: the row is seen as it is committed. -/
theorem written_fine (hcreate : ∀ user tenant, txn.request ≠ .createTenant user tenant) :
    Fine t s (s.goOn t txn .written) := by
  refine goOn_fine hidle ⟨fun _ htakes => ?_, fun user tenant h => absurd h (hcreate user tenant)⟩
  unfold takesOwner at htakes
  rw [Table.view_eq_committed (hidle _)] at htakes
  simp at htakes

theorem writeRow_fine {version : Option Membership}
    (hother : txn.overtaken = false →
      isOwner (s.memberships.committed.get txn.request.target) = true →
      isOwner version = false → OtherOwner s txn.request.target)
    (hcreate : ∀ user tenant, txn.request = .createTenant user tenant → isOwner version = true)
    (h : s.writeRow t txn version = some s') : Fine t s s' := by
  refine ⟨writeRow_local h, ?_⟩
  obtain ⟨-, h⟩ := Option.ite_none_right_eq_some.mp h
  cases h
  refine ⟨fun k version' hlock => ?_, fun txn' htxn => ?_⟩
  · by_cases hk : k = txn.request.target
    · exact ⟨_, Dict.get_set_self _ _ _, rfl, hk.symm⟩
    · rw [Table.write_pending_ne hk] at hlock
      exact absurd hlock (hidle k version')
  · rw [Dict.get_set_self] at htxn
    cases htxn
    refine ⟨fun hover htakes => ?_, fun user tenant hreq => ?_⟩
    · unfold takesOwner at htakes
      dsimp only at htakes
      rw [Table.view_write_self, Table.write_committed, Bool.and_eq_true] at htakes
      exact hother hover htakes.1 (by simpa using htakes.2)
    · exact ⟨version, Table.write_pending_self, hcreate user tenant hreq⟩

/-- Where a row is inserted there was none. -/
theorem insertRow_fine {rowId : Uuid} {role : TenantRole}
    (hcreate : ∀ user tenant, txn.request = .createTenant user tenant → role = .owner)
    (h : insertRow s t txn rowId role = some s') : Fine t s s' := by
  obtain ⟨-, h⟩ := Option.ite_none_right_eq_some.mp h
  cases hview : s.memberships.view t txn.request.target with
  | some row =>
    simp only [hview] at h
    cases h
    exact rollback_fine
  | none =>
    simp only [hview] at h
    rw [Table.view_eq_committed (hidle _)] at hview
    refine writeRow_fine hidle (fun _ howner _ => ?_) (fun user tenant hreq => ?_) h
    · rw [hview] at howner
      cases howner
    · simp [isOwner, hcreate user tenant hreq]

theorem updateRow_fine {row : Membership} {role : TenantRole}
    (hother : txn.overtaken = false →
      isOwner (s.memberships.committed.get txn.request.target) = true →
      role = .owner ∨ OtherOwner s txn.request.target)
    (hcreate : ∀ user tenant, txn.request ≠ .createTenant user tenant)
    (h : updateRow s t txn row role = some s') : Fine t s s' := by
  obtain ⟨-, h⟩ := Option.ite_none_right_eq_some.mp h
  split at h
  · split at h
    · refine writeRow_fine hidle (fun hover howner hlost => ?_)
        (fun user tenant hreq => absurd hreq (hcreate user tenant)) h
      rcases hother hover howner with hrole | hother
      · simp [isOwner, hrole] at hlost
      · exact hother
    · cases h
      exact rollback_fine
  · cases h
    exact rollback_fine

theorem deleteRow_fine {row : Membership}
    (hother : txn.overtaken = false →
      isOwner (s.memberships.committed.get txn.request.target) = true →
      OtherOwner s txn.request.target)
    (hcreate : ∀ user tenant, txn.request ≠ .createTenant user tenant)
    (h : deleteRow s t txn row = some s') : Fine t s s' := by
  obtain ⟨-, h⟩ := Option.ite_none_right_eq_some.mp h
  split at h
  · split at h
    · exact writeRow_fine hidle (fun hover howner _ => hother hover howner)
        (fun user tenant hreq => absurd hreq (hcreate user tenant)) h
    · cases h
      exact written_fine hidle hcreate
  · cases h
    exact written_fine hidle hcreate

omit hidle in
theorem gate_fine {α : Type} {check : Except TenantError α} {next : α → MemberState}
    (h : ∀ a, check = .ok a → Fine t s (next a)) : Fine t s (gate s t check next) := by
  unfold gate
  split
  · exact rollback_fine
  · rename_i a
    exact h a rfl

theorem begunStatement_fine {rowId : Uuid} (h : begunStatement s t txn rowId = some s') :
    Fine t s s' := by
  unfold begunStatement at h
  split at h
  · split at h
    · cases h
      exact rollback_fine
    · exact insertRow_fine hidle (fun _ _ _ => rfl) h
  · rename_i hreq
    split at h
    · cases h
      exact written_fine hidle fun _ _ hcreate => by rw [hreq] at hcreate; cases hcreate
    · cases h
      exact goOn_fine hidle fun _ _ hcreate => by rw [hreq] at hcreate; cases hcreate
  all_goals
    cases h
    exact gate_fine fun role _ => goOn_fine hidle trivial

/-- The target as it was read: not an owner, or one whose loss was counted, or will be. -/
theorem readTarget_cleared {row : Membership} {counts : Bool}
    (hrow : s.memberships.view t txn.request.target = some row)
    (hcounts : row.role = .owner → keepsOwner txn.request = true ∨ counts = true) :
    Fine t s (s.readTarget t txn (if counts then .found row else .cleared row)) := by
  refine readTarget_fine hidle ?_
  cases counts with
  | true => exact trivial
  | false =>
    intro _ howner
    have howner' : isOwner (s.memberships.committed.get txn.request.target) = true := howner
    rw [← Table.view_eq_committed (hidle _), hrow] at howner'
    rcases hcounts (by simpa [isOwner] using howner') with hkeeps | hfalse
    · exact .inl hkeeps
    · cases hfalse

theorem targetStatement_fine {actorRole : TenantRole} :
    Fine t s (targetStatement s t txn actorRole) := by
  unfold targetStatement
  dsimp only
  split
  · exact rollback_fine
  · rename_i hreq _
    exact goOn_fine hidle fun _ _ hcreate => by rw [hreq] at hcreate; cases hcreate
  · rename_i role row hreq hrow
    refine gate_fine fun counts hcheck => readTarget_cleared hidle hrow fun howner => ?_
    obtain ⟨_, _, rfl⟩ := checkChange_ok hcheck
    by_cases hrole : role = .owner
    · exact .inl (by simp [hreq, keepsOwner, hrole])
    · exact .inr (by simp [howner, hrole])
  · rename_i row hreq hrow
    refine gate_fine fun counts hcheck => readTarget_cleared hidle hrow fun howner => ?_
    obtain ⟨_, rfl⟩ := checkRemove_ok hcheck
    exact .inr (by simp [howner])
  · rename_i row hreq hrow
    refine gate_fine fun counts hcheck => readTarget_cleared hidle hrow fun howner => ?_
    obtain ⟨_, rfl⟩ := checkRemove_ok hcheck
    exact .inr (by simp [howner])
  · exact rollback_fine

/-- Of two owners counted, one is somebody else. -/
theorem otherOwner_of_count {key : MemberKey} (h : 1 < ownerCount s t key.1) :
    OtherOwner s key := by
  obtain ⟨key', m, hne, hview, hp⟩ := Table.exists_ne_of_snapshot h key
  obtain ⟨htenant, howner⟩ := of_decide_eq_true hp
  rw [Table.view_eq_committed (hidle _)] at hview
  have hkey : (key.1, key'.2) = key' := Prod.ext htenant.symm rfl
  refine ⟨key'.2, ?_, ?_⟩
  · rw [hkey]
    exact hne
  · rw [hkey, hview]
    simp [isOwner, howner]

end

/-- **What a statement does:** it leaves the others alone, and the transaction sound. -/
theorem statement_fine {s s' : MemberState} {t : TxnId} {txn : Txn} {rowId : Uuid}
    (hown : Own s t) (htxn : s.inflight.get t = some txn)
    (h : statement s t txn rowId = some s') : Fine t s s' := by
  have hsound := hown.sound txn htxn
  unfold Sound at hsound
  unfold statement at h
  cases hphase : txn.phase with
  | begun =>
    rw [hphase] at h
    exact begunStatement_fine (hown.idle htxn (by simp [hphase])) h
  | admitted actorRole =>
    rw [hphase] at h
    cases h
    exact targetStatement_fine (hown.idle htxn (by simp [hphase]))
  | found row =>
    rw [hphase] at h
    cases h
    have hidle := hown.idle htxn (by simp [hphase])
    -- The count saw another owner, among the rows committed by then.
    refine gate_fine fun _ hcount => goOn_fine hidle fun _ _ => ?_
    exact .inr (otherOwner_of_count hidle (checkOwnerCount_ok.mp hcount))
  | cleared row =>
    rw [hphase] at h hsound
    dsimp only at h hsound
    have hidle := hown.idle htxn (by simp [hphase])
    split at h
    · rename_i role hreq
      have hcreate : ∀ user tenant, txn.request ≠ .createTenant user tenant :=
        fun _ _ hcreate => by rw [hreq] at hcreate; cases hcreate
      split at h
      · cases h
        exact written_fine hidle hcreate
      -- An owner's row written over: it stays an owner's, or the count has let it go.
      · refine updateRow_fine hidle (fun hover howner => ?_) hcreate h
        exact (hsound hover howner).imp_left fun hkeeps => by simpa [hreq, keepsOwner] using hkeeps
    · rename_i hreq
      refine deleteRow_fine hidle (fun hover howner => ?_)
        (fun _ _ hcreate => by rw [hreq] at hcreate; cases hcreate) h
      exact (hsound hover howner).resolve_left (by simp [hreq, keepsOwner])
    · rename_i hreq
      refine deleteRow_fine hidle (fun hover howner => ?_)
        (fun _ _ hcreate => by rw [hreq] at hcreate; cases hcreate) h
      exact (hsound hover howner).resolve_left (by simp [hreq, keepsOwner])
    · cases h
      exact rollback_fine
  | absent role =>
    rw [hphase] at h hsound
    dsimp only at h hsound
    split at h
    · exact insertRow_fine (hown.idle htxn (by simp [hphase]))
        (fun user tenant hreq => absurd hreq (hsound user tenant)) h
    · cases h
      exact rollback_fine
  | written =>
    rw [hphase] at h
    cases h

/-! ## The invariant -/

/-- Every tenant has an owner, and every request is sound. -/
structure Tended (s : MemberState) : Prop where
  owned : Owned s
  own : ∀ t, Own s t

section

variable {s s' : MemberState} {t u : TxnId}

variable {txn : Txn}

theorem sound_congr (hc : s'.memberships.committed = s.memberships.committed)
    (hp : ∀ k version, s'.memberships.pending.get k = some (t, version) ↔
      s.memberships.pending.get k = some (t, version))
    (h : Sound s t txn) : Sound s' t txn := by
  have hv : s'.memberships.view t txn.request.target = s.memberships.view t txn.request.target :=
    Table.view_congr (by rw [hc]) (hp _)
  unfold Sound at h ⊢
  unfold OtherOwner takesOwner at *
  simp only [hc, hv, hp]
  exact h

/-- A statement of `t` is nothing to the others. -/
theorem Local.own (h : Local t s s') (hu : u ≠ t) (hown : Own s u) : Own s' u where
  locks := by
    intro k version hlock
    rw [h.others u hu]
    exact hown.locks k version ((h.locks k u version hu).mp hlock)
  sound := by
    intro txn htxn
    rw [h.others u hu] at htxn
    exact sound_congr h.committed (fun k version => h.locks k u version hu) (hown.sound txn htxn)

theorem Tended.of_fine (hs : Tended s) (h : Fine t s s') : Tended s' where
  owned := by
    intro tenant htenant
    rw [h.1.tenants] at htenant
    rw [h.1.committed]
    exact hs.owned tenant htenant
  own := by
    intro u
    by_cases hu : u = t
    · subst hu
      exact h.2
    · exact h.1.own hu (hs.own u)

/-- A row that `t` is not about stays as it is when `t` commits. -/
theorem commit_get_ne {k : MemberKey} (hown : Own s t) (htxn : s.inflight.get t = some txn)
    (hk : k ≠ txn.request.target) :
    (commit s t txn).memberships.committed.get k = s.memberships.committed.get k := by
  refine Table.commit_of_not_pending fun version hlock => ?_
  obtain ⟨txn', htxn', _, htarget⟩ := hown.locks k version hlock
  rw [htxn] at htxn'
  cases htxn'
  exact hk htarget.symm

/-- An owner stays one, unless the commit takes the role. -/
theorem commit_isOwner {k : MemberKey} (hown : Own s t) (htxn : s.inflight.get t = some txn)
    (howner : isOwner (s.memberships.committed.get k) = true)
    (hkeeps : k = txn.request.target → takesOwner s t k = false) :
    isOwner ((commit s t txn).memberships.committed.get k) = true := by
  by_cases hk : k = txn.request.target
  · have htakes := hkeeps hk
    unfold takesOwner at htakes
    rw [howner, Bool.true_and, Bool.not_eq_false'] at htakes
    exact htakes
  · rw [commit_get_ne hown htxn hk]
    exact howner

theorem overtake_false {key : MemberKey} {other : Txn}
    (h : (overtake s t key other).overtaken = false) :
    other.overtaken = false ∧ (other.request.target.1 = key.1 → takesOwner s t key = false) ∧
      (other.request.target = key → givesOwner s t key = false) := by
  simp only [overtake, Bool.or_eq_false_iff, Bool.and_eq_false_iff, decide_eq_false_iff_not] at h
  obtain ⟨⟨hover, htakes⟩, hgives⟩ := h
  exact ⟨hover, fun heq => htakes.resolve_left (not_not_intro heq),
    fun heq => hgives.resolve_left (not_not_intro heq)⟩

/-- An owner that the commit of `t` finds was one before, unless the commit makes it one. -/
theorem isOwner_of_commit {k : MemberKey} (hown : Own s t) (htxn : s.inflight.get t = some txn)
    (hgives : k = txn.request.target → givesOwner s t k = false)
    (h : isOwner ((commit s t txn).memberships.committed.get k) = true) :
    isOwner (s.memberships.committed.get k) = true := by
  by_cases hk : k = txn.request.target
  · have hnot := hgives hk
    have hview : isOwner (s.memberships.view t k) = true := h
    unfold givesOwner at hnot
    rw [hview, Bool.and_true, Bool.not_eq_false'] at hnot
    exact hnot
  · rwa [commit_get_ne hown htxn hk] at h

theorem OtherOwner.commit {key : MemberKey} (h : OtherOwner s key) (hown : Own s t)
    (htxn : s.inflight.get t = some txn)
    (htakes : key.1 = txn.request.target.1 → takesOwner s t txn.request.target = false) :
    OtherOwner (commit s t txn) key := by
  obtain ⟨user, hne, howner⟩ := h
  refine ⟨user, hne, commit_isOwner hown htxn howner fun heq => ?_⟩
  rw [heq]
  exact htakes (by rw [← heq])

/-- Somebody else's request at the commit of `t`: not overtaken, it is as sound as before. -/
theorem commit_own (hu : u ≠ t) (hownt : Own s t) (hown : Own s u)
    (htxn : s.inflight.get t = some txn) : Own (commit s t txn) u := by
  have hinflight : (commit s t txn).inflight.get u =
      (s.inflight.get u).map (overtake s t txn.request.target) := by
    show ((s.inflight.erase t).get u).map _ = _
    rw [Dict.get_erase_ne _ hu]
  refine ⟨fun k version hlock => ?_, fun other hother => ?_⟩
  · obtain ⟨other, hother, hphase, htarget⟩ :=
      hown.locks k version (Table.commit_pending.mp hlock).1
    exact ⟨overtake s t txn.request.target other, by rw [hinflight, hother, Option.map_some],
      hphase, htarget⟩
  · rw [hinflight] at hother
    obtain ⟨before, hbefore, rfl⟩ := Option.map_eq_some_iff.mp hother
    have hsound := hown.sound before hbefore
    have hkey : (overtake s t txn.request.target before).request.target = before.request.target :=
      rfl
    unfold Sound at hsound ⊢
    dsimp only at hsound ⊢
    rw [hkey]
    have hphase : (overtake s t txn.request.target before).phase = before.phase := rfl
    rw [hphase]
    cases hcase : before.phase with
    | begun => exact trivial
    | admitted actorRole => exact trivial
    | found row => exact trivial
    | absent role =>
      rw [hcase] at hsound
      exact hsound
    | cleared row =>
      rw [hcase] at hsound
      intro hover howner
      obtain ⟨hnot, htakes, hgives⟩ := overtake_false hover
      have hbefore := isOwner_of_commit hownt htxn (fun heq => by rw [heq]; exact hgives heq) howner
      exact (hsound hnot hbefore).imp_right fun h => h.commit hownt htxn htakes
    | written =>
      rw [hcase] at hsound
      refine ⟨fun hover htaken => ?_, fun user tenant hreq => ?_⟩
      · obtain ⟨hnot, htakes, hgives⟩ := overtake_false hover
        unfold takesOwner at htaken
        rw [Bool.and_eq_true, Bool.not_eq_true'] at htaken
        obtain ⟨howner, hlost⟩ := htaken
        have hcommitted :=
          isOwner_of_commit hownt htxn (fun heq => by rw [heq]; exact hgives heq) howner
        refine (hsound.1 hnot ?_).commit hownt htxn htakes
        unfold takesOwner
        rw [hcommitted, Bool.true_and, Bool.not_eq_true']
        -- what it sees of its target is its own version, or else what is committed there
        by_cases hlock : ∃ version,
            s.memberships.pending.get before.request.target = some (u, version)
        · obtain ⟨version, hlock⟩ := hlock
          have hlock' := Table.commit_pending.mpr ⟨hlock, hu⟩
          rw [Table.view_of_pending hlock]
          have hview : (commit s t txn).memberships.view u before.request.target = version :=
            Table.view_of_pending hlock'
          rwa [hview] at hlost
        · have hview : (commit s t txn).memberships.view u before.request.target =
              (commit s t txn).memberships.committed.get before.request.target :=
            Table.view_eq_committed fun version h =>
              hlock ⟨version, (Table.commit_pending.mp h).1⟩
          rw [hview, howner] at hlost
          cases hlost
      · obtain ⟨row, hlock, howner⟩ := hsound.2 user tenant hreq
        exact ⟨row, Table.commit_pending.mpr ⟨hlock, hu⟩, howner⟩

/-- The tenants of a commit: those there were, and the one it creates. -/
theorem mem_commit_tenants {tenant : Uuid} (h : tenant ∈ (commit s t txn).tenants) :
    tenant ∈ s.tenants ∨ ∃ user, txn.request = .createTenant user tenant := by
  unfold commit at h
  dsimp only at h
  split at h
  · rename_i user created hreq
    rcases List.mem_append.mp h with h | h
    · exact .inl h
    · obtain rfl := List.mem_singleton.mp h
      exact .inr ⟨user, hreq⟩
  · exact .inl h

/-- **A commit that is not disturbed leaves every tenant an owner.** -/
theorem commit_tended (hs : Tended s) (htxn : s.inflight.get t = some txn)
    (hphase : txn.phase = .written)
    (hok : takesOwner s t txn.request.target = true → txn.overtaken = false) :
    Tended (commit s t txn) := by
  have hownt := hs.own t
  have hsound := hownt.sound txn htxn
  unfold Sound at hsound
  rw [hphase] at hsound
  refine ⟨fun tenant htenant => ?_, fun u => ?_⟩
  · rcases mem_commit_tenants htenant with hold | ⟨user, hreq⟩
    · obtain ⟨user, howner⟩ := hs.owned tenant hold
      by_cases htakes : takesOwner s t txn.request.target = true ∧
          (tenant, user) = txn.request.target
      · -- the owner there was is the one that goes
        obtain ⟨htakes, hkey⟩ := htakes
        obtain ⟨other, hne, hother⟩ := hsound.1 (hok htakes) htakes
        have htenant : txn.request.target.1 = tenant := by rw [← hkey]
        rw [htenant] at hne hother
        refine ⟨other, ?_⟩
        rw [commit_get_ne hownt htxn hne]
        exact hother
      · refine ⟨user, commit_isOwner hownt htxn howner fun hkey => ?_⟩
        rw [Bool.eq_false_iff]
        intro htaken
        rw [hkey] at htaken
        exact htakes ⟨htaken, hkey⟩
    · obtain ⟨row, hlock, howner⟩ := hsound.2 user tenant hreq
      have htarget : txn.request.target = (tenant, user) := by rw [hreq]; rfl
      rw [htarget] at hlock
      refine ⟨user, ?_⟩
      show isOwner (s.memberships.view t (tenant, user)) = true
      rw [Table.view_of_pending hlock]
      exact howner
  · by_cases hu : u = t
    · subst hu
      refine ⟨fun k version hlock => absurd rfl (Table.commit_pending.mp hlock).2,
        fun txn' htxn' => ?_⟩
      have hnone : (commit s u txn).inflight.get u = none := by
        show ((s.inflight.erase u).get u).map _ = none
        rw [Dict.get_erase_self, Option.map_none]
      rw [hnone] at htxn'
      cases htxn'
    · exact commit_own hu hownt (hs.own u) htxn

/-- **One step**, one case for each kind. -/
theorem tended_step {e : MemberEvent} (hs : Tended s) (hok : Undisturbed s e)
    (h : memberStep s e = some s') : Tended s' := by
  cases e with
  | begin t request =>
    unfold memberStep at h
    dsimp only at h
    cases htxn : s.inflight.get t with
    | some txn => simp [htxn] at h
    | none =>
      rw [htxn] at h
      cases h
      refine hs.of_fine (t := t) ⟨⟨rfl, rfl, fun u hu => Dict.get_set_ne _ _ hu,
        fun _ _ _ _ => Iff.rfl⟩, ⟨fun k version hlock => ?_, fun txn htxn' => ?_⟩⟩
      · obtain ⟨txn, hsome, _⟩ := (hs.own t).locks k version hlock
        rw [htxn] at hsome
        cases hsome
      · rw [Dict.get_set_self] at htxn'
        cases htxn'
        exact trivial
  | statement t rowId =>
    unfold memberStep at h
    dsimp only at h
    cases htxn : s.inflight.get t with
    | none => simp [htxn] at h
    | some txn =>
      rw [htxn] at h
      exact hs.of_fine (statement_fine (hs.own t) htxn h)
  | commit t =>
    unfold memberStep at h
    dsimp only at h
    cases htxn : s.inflight.get t with
    | none => simp [htxn] at h
    | some txn =>
      rw [htxn] at h
      obtain ⟨hphase, h⟩ := Option.ite_none_right_eq_some.mp h
      cases h
      refine commit_tended hs htxn hphase fun htakes => ?_
      simpa [Undisturbed, disturbed, htxn, htakes] using hok
  | fail t =>
    unfold memberStep at h
    dsimp only at h
    cases htxn : s.inflight.get t with
    | none => simp [htxn] at h
    | some txn =>
      rw [htxn] at h
      cases h
      exact hs.of_fine rollback_fine

end

/-- **The last owner stays**, whatever interleaves, while no request that takes an owner's role is
overtaken by another one. -/
theorem last_owner_kept {s : MemberState} (h : Reaches memberStep Undisturbed {} s) : Owned s := by
  have hstart : Tended ({} : MemberState) :=
    ⟨fun tenant htenant => (by cases htenant),
      fun t => ⟨fun k version hlock => (by cases hlock), fun txn htxn => (by cases htxn)⟩⟩
  exact (h.invariant hstart fun _ _ _ ih ok hstep => tended_step ih ok hstep).owned

/-! ## Two owners -/

/-- A workspace of two owners, each made by the requests. -/
def twoOwners : List MemberEvent :=
  [.begin 0 (.createTenant "ann" "acme"), .statement 0 "m1", .commit 0,
    .begin 1 (.addMember "ann" "acme" "bob" .owner), .statement 1 "", .statement 1 "",
    .statement 1 "m2", .commit 1]

/-- One leaves. -/
def oneLeaves : List MemberEvent :=
  [.begin 2 (.leave "ann" "acme"), .statement 2 "", .statement 2 "", .statement 2 "",
    .statement 2 "", .commit 2]

/-- Both leave, each counting before the other commits. -/
def bothLeave : List MemberEvent :=
  [.begin 2 (.leave "ann" "acme"), .begin 3 (.leave "bob" "acme"), .statement 2 "",
    .statement 3 "", .statement 2 "", .statement 3 "", .statement 2 "", .statement 3 "",
    .statement 2 "", .statement 3 "", .commit 2, .commit 3]

/-- One after the other: the second may not. -/
theorem last_owner_kept_acme :
    ∃ s, run (guarded memberStep Undisturbed) {} (twoOwners ++ oneLeaves) = some s ∧
      s.tenants = ["acme"] ∧ Owned s := by
  obtain ⟨s, hs⟩ : ∃ s, run (guarded memberStep Undisturbed) {} (twoOwners ++ oneLeaves) = some s :=
    Option.isSome_iff_exists.mp (by decide +kernel)
  have htenants : (run (guarded memberStep Undisturbed) {} (twoOwners ++ oneLeaves)).map
      MemberState.tenants = some ["acme"] := by decide +kernel
  rw [hs] at htenants
  exact ⟨s, hs, Option.some.inj htenants, last_owner_kept (.of_run_guarded hs)⟩

/-- **Two owners who leave at once leave nobody.** -/
theorem last_owner_lost : ¬ ∀ s, Reaches memberStep Always {} s → Owned s := by
  intro h
  have hrun : (run memberStep {} (twoOwners ++ bothLeave)).map (fun s =>
      (s.tenants, s.memberships.keys, isOwner (s.memberships.committed.get ("acme", "ann")),
        isOwner (s.memberships.committed.get ("acme", "bob")))) =
      some (["acme"], [("acme", "ann"), ("acme", "bob")], false, false) := by decide +kernel
  obtain ⟨s, hs, hparts⟩ := Option.map_eq_some_iff.mp hrun
  simp only [Prod.mk.injEq] at hparts
  obtain ⟨htenants, hkeys, hann, hbob⟩ := hparts
  obtain ⟨user, howner⟩ := h s (.of_run hs) "acme" (by simp [htenants])
  have hmem : ("acme", user) ∈ s.memberships.keys := by
    refine s.memberships.known _ (.inl fun hnone => ?_)
    rw [hnone] at howner
    cases howner
  rw [hkeys] at hmem
  simp only [List.mem_cons, Prod.mk.injEq, true_and, List.not_mem_nil, or_false] at hmem
  rcases hmem with rfl | rfl
  · rw [hann] at howner
    cases howner
  · rw [hbob] at howner
    cases howner

end IotSaas.Tenants
