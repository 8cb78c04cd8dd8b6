import IotSaas.Rules.Model

/-!
# `Tenants/Roles.lean` — who may do what to whose membership

The checks that stand between a request and the `tenant_memberships` table, as functions of what was
read: the role of the acting member, the row of the member it acts on, the number of owners. Routes
and services put them together in their own order; nothing here reads or writes.
-/

set_option autoImplicit false

namespace IotSaas.Tenants

open Rules

inductive TenantRole where
  | viewer | admin | owner
  deriving DecidableEq

/-- `_RANK` and `_ROLE_RANK`. -/
def TenantRole.rank : TenantRole → Nat
  | .viewer => 0
  | .admin => 1
  | .owner => 2

/-- A row of `tenant_memberships`, less its key. -/
structure Membership where
  id : Uuid
  role : TenantRole
  deriving DecidableEq

/-- Why a request is refused. -/
inductive TenantError where
  | notInTenant
  | insufficientRole
  | escalation
  | lastOwner
  | unknownUser
  | alreadyAMember
  | notAMember
  | alreadyMemberInvited
  | alreadyInvited
  | invitationNotFound
  | invitationExpired
  | invitationRevoked
  | invitationUsed
  | otherEmail (email : String)
  | passwordMissing
  | accountExists
  | emailRegistered
  | internal
  deriving DecidableEq

/-- `require_tenant_context`, of the role that `verify_membership` returned. -/
def requireTenantContext (role : Option TenantRole) : Except TenantError TenantRole :=
  match role with
  | none => .error .notInTenant
  | some role => .ok role

/-- `require_role`, of a signed-in person. -/
def requireRole (minimum role : TenantRole) : Except TenantError Unit :=
  if role.rank < minimum.rank then .error .insufficientRole else .ok ()

/-- `assert_can_assign`. -/
def assertCanAssign (actorRole role : TenantRole) : Except TenantError Unit :=
  if actorRole.rank < role.rank then .error .escalation else .ok ()

/-- `change_role` up to its count: whether the owners have to be counted. -/
def checkChange (actorRole target role : TenantRole) : Except TenantError Bool :=
  if target = .owner ∧ actorRole ≠ .owner then .error .escalation
  else
    match assertCanAssign actorRole role with
    | .error e => .error e
    | .ok () => .ok (decide (target = .owner ∧ role ≠ .owner))

/-- `remove_member` up to its count. -/
def checkRemove (actorRole target : TenantRole) : Except TenantError Bool :=
  if target = .owner then
    if actorRole ≠ .owner then .error .escalation else .ok true
  else .ok false

/-- `_owner_count(…) <= 1`. -/
def checkOwnerCount (count : Nat) : Except TenantError Unit :=
  if count ≤ 1 then .error .lastOwner else .ok ()

/-- The count, where there is one to make. -/
def checkOwnersLeft (counts : Bool) (count : Nat) : Except TenantError Unit :=
  if counts then checkOwnerCount count else .ok ()

/-! ## What they let through -/

theorem requireRole_ok {minimum role : TenantRole} :
    requireRole minimum role = .ok () ↔ minimum.rank ≤ role.rank := by
  unfold requireRole
  split
  · rename_i h
    simp [Nat.not_le.mpr h]
  · rename_i h
    simp [Nat.not_lt.mp h]

theorem assertCanAssign_ok {actorRole role : TenantRole} :
    assertCanAssign actorRole role = .ok () ↔ role.rank ≤ actorRole.rank := by
  unfold assertCanAssign
  split
  · rename_i h
    simp [Nat.not_le.mpr h]
  · rename_i h
    simp [Nat.not_lt.mp h]

theorem checkOwnerCount_ok {count : Nat} : checkOwnerCount count = .ok () ↔ 1 < count := by
  unfold checkOwnerCount
  split
  · rename_i h
    simp [Nat.not_lt.mpr h]
  · rename_i h
    simp [Nat.not_le.mp h]

/-- A change that is let through grants no more than the actor has, and touches an owner only when
the actor is one. -/
theorem checkChange_ok {actorRole target role : TenantRole} {counts : Bool}
    (h : checkChange actorRole target role = .ok counts) :
    role.rank ≤ actorRole.rank ∧ (target = .owner → actorRole = .owner) ∧
      counts = decide (target = .owner ∧ role ≠ .owner) := by
  unfold checkChange at h
  split at h
  · cases h
  · rename_i hguard
    cases hassign : assertCanAssign actorRole role with
    | error e => simp [hassign] at h
    | ok u =>
      rw [hassign] at h
      cases h
      refine ⟨assertCanAssign_ok.mp hassign, fun htarget => ?_, rfl⟩
      by_contra hactor
      exact hguard ⟨htarget, hactor⟩

theorem checkRemove_ok {actorRole target : TenantRole} {counts : Bool}
    (h : checkRemove actorRole target = .ok counts) :
    (target = .owner → actorRole = .owner) ∧ counts = decide (target = .owner) := by
  unfold checkRemove at h
  split at h
  · rename_i htarget
    split at h
    · cases h
    · rename_i hactor
      cases h
      exact ⟨fun _ => by simpa using hactor, by simp [htarget]⟩
  · rename_i htarget
    cases h
    exact ⟨fun h => absurd h htarget, by simp [htarget]⟩

/-- Who may touch an admin's or a viewer's membership at all is not below it. -/
theorem rank_le_of_admin {actorRole target : TenantRole}
    (hadmin : TenantRole.admin.rank ≤ actorRole.rank) (h : target = .owner → actorRole = .owner) :
    target.rank ≤ actorRole.rank := by
  cases target with
  | viewer => exact Nat.zero_le _
  | admin => exact hadmin
  | owner => simp [h rfl]

end IotSaas.Tenants
