import IotSaas.Catalog.Keys
import IotSaas.Tenants.Roles

/-!
# `Tenants/Service.lean` — memberships and invitations, one request at a time

The routes of `tenants/router.py` and the two of `auth/router.py` that make members, each from its
dependencies to its commit. What a request is refused for leaves the database as it was; the
`uuid4`s and tokens that a request draws come with it.

Whether an email or a password is well formed is for the schemas, which only ever refuse.
-/

set_option autoImplicit false

namespace IotSaas.Tenants

open Rules Catalog

/-! ## Rows -/

structure User where
  id : Uuid
  email : String

/-- A row of `tenant_memberships` with its key. -/
structure Member where
  id : Uuid
  tenantId : Uuid
  userId : Uuid
  role : TenantRole

structure Invitation where
  id : Uuid
  tenantId : Uuid
  email : String
  role : TenantRole
  tokenHash : String
  invitedBy : Uuid
  expiresAt : Datetime
  acceptedAt : Option Datetime := none
  revokedAt : Option Datetime := none

structure Db where
  users : List User := []
  tenants : List Uuid := []
  members : List Member := []
  invitations : List Invitation := []

/-- What is not in the repository: `str.lower()` and SHA-256. -/
structure Platform where
  folding : CaseFolding
  sha256 : String → String

/-- `INVITE_TTL`. -/
def inviteTtl : Datetime := seconds (7 * 24 * 60 * 60)

variable (platform : Platform)

/-- `email.strip().lower()`. -/
def normalizeEmail (email : String) : String := platform.folding.lower (strip email)

/-! ## Reading -/

/-- The row of a user in a tenant. -/
def memberOf (db : Db) (tenant user : Uuid) : Option Member :=
  db.members.find? fun m => m.tenantId = tenant ∧ m.userId = user

/-- `verify_membership`. -/
def roleOf (db : Db) (tenant user : Uuid) : Option TenantRole := (memberOf db tenant user).map (·.role)

/-- `_membership`. -/
def membership (db : Db) (tenant user : Uuid) : Except TenantError Member :=
  match memberOf db tenant user with
  | none => .error .notAMember
  | some m => .ok m

/-- `_owner_count`. -/
def ownersIn (db : Db) (tenant : Uuid) : Nat :=
  (db.members.filter fun m => m.tenantId = tenant ∧ m.role = .owner).length

/-- `get_user_by_email`. -/
def getUserByEmail (db : Db) (email : String) : Option User :=
  db.users.find? fun u => u.email = normalizeEmail platform email

/-- `lookup_invitation`: a link that can still be used. -/
def lookupInvitation (db : Db) (token : String) (now : Datetime) :
    Except TenantError Invitation :=
  match db.invitations.find? fun i => i.tokenHash = platform.sha256 token with
  | none => .error .invitationNotFound
  | some i =>
      if i.revokedAt.isSome then .error .invitationRevoked
      else if i.acceptedAt.isSome then .error .invitationUsed
      else if i.expiresAt ≤ now then .error .invitationExpired
      else .ok i

/-- `get_invitation`: one that is pending in the tenant. -/
def getInvitation (db : Db) (tenant id : Uuid) : Except TenantError Invitation :=
  match db.invitations.find? fun i => i.tenantId = tenant ∧ i.id = id with
  | none => .error .invitationNotFound
  | some i =>
      if i.acceptedAt.isSome || i.revokedAt.isSome then .error .invitationNotFound else .ok i

/-! ## Writing -/

namespace Db

def insertMember (db : Db) (m : Member) : Db := { db with members := db.members ++ [m] }

/-- `membership.role = …`. -/
def setRole (db : Db) (tenant user : Uuid) (role : TenantRole) : Db :=
  { db with
    members := db.members.map fun m =>
      if m.tenantId = tenant ∧ m.userId = user then { m with role := role } else m }

/-- `session.delete(membership)`. -/
def deleteMember (db : Db) (tenant user : Uuid) : Db :=
  { db with members := db.members.filter fun m => ¬ (m.tenantId = tenant ∧ m.userId = user) }

/-- The invitation's row changed by `f`. -/
def setInvitation (db : Db) (id : Uuid) (f : Invitation → Invitation) : Db :=
  { db with invitations := db.invitations.map fun i => if i.id = id then f i else i }

end Db

/-- `create_user`; its answers are the error of the route it is called from. -/
def createUser (db : Db) (email : String) (id : Uuid) (taken : TenantError) :
    Except TenantError Db :=
  if db.users.any fun u => u.email = normalizeEmail platform email then .error taken
  else if id ∈ db.users.map (·.id) then .error .internal
  else .ok { db with users := db.users ++ [⟨id, normalizeEmail platform email⟩] }

/-- `create_tenant_with_owner`. -/
def createTenantWithOwner (db : Db) (user tenant rowId : Uuid) : Except TenantError Db :=
  if tenant ∈ db.tenants then .error .internal
  else .ok ({ db with tenants := db.tenants ++ [tenant] }.insertMember ⟨rowId, tenant, user, .owner⟩)

/-- `add_member` of the service. -/
def insertNewMember (db : Db) (tenant user rowId : Uuid) (role : TenantRole) :
    Except TenantError Db :=
  match memberOf db tenant user with
  | some _ => .error .alreadyAMember
  | none => .ok (db.insertMember ⟨rowId, tenant, user, role⟩)

/-- `accept_invitation` of the service: an existing member stays what it is. -/
def joinTenant (db : Db) (invitation : Invitation) (user rowId : Uuid) (now : Datetime) : Db :=
  let db :=
    match memberOf db invitation.tenantId user with
    | some _ => db
    | none => db.insertMember ⟨rowId, invitation.tenantId, user, invitation.role⟩
  db.setInvitation invitation.id fun i => { i with acceptedAt := some now }

/-- The person behind an acceptance: the signed-in invitee, or a new account with the invited
email. -/
def invitee (db : Db) (invitation : Invitation) (signedIn : Option Uuid) (password : String)
    (userId : Uuid) : Except TenantError (Uuid × Db) :=
  match signedIn with
  | some user =>
      let email := ((db.users.find? fun u => u.id = user).map (·.email)).getD ""
      if platform.folding.lower email ≠ platform.folding.lower invitation.email then
        .error (.otherEmail invitation.email)
      else .ok (user, db)
  | none =>
      if password = "" then .error .passwordMissing
      else do
        let db ← createUser platform db invitation.email userId .accountExists
        .ok (userId, db)

/-! ## The routes -/

/-- Who the request is from, in the tenant it names, with a role that is high enough. -/
def admitted (db : Db) (minimum : TenantRole) (actor tenant : Uuid) :
    Except TenantError TenantRole := do
  let role ← requireTenantContext (roleOf db tenant actor)
  requireRole minimum role
  return role

/-- `POST /auth/register`. -/
def register (db : Db) (email : String) (userId tenant rowId : Uuid) : Except TenantError Db := do
  let db ← createUser platform db email userId .emailRegistered
  createTenantWithOwner db userId tenant rowId

/-- `POST /tenants/members`. -/
def addMember (db : Db) (actor tenant : Uuid) (email : String) (role : TenantRole)
    (rowId : Uuid) : Except TenantError Db := do
  let actorRole ← admitted db .admin actor tenant
  assertCanAssign actorRole role
  match getUserByEmail platform db email with
  | none => .error .unknownUser
  | some user => insertNewMember db tenant user.id rowId role

/-- `PATCH /tenants/members/{user_id}`. -/
def changeRole (db : Db) (actor tenant user : Uuid) (role : TenantRole) :
    Except TenantError Db := do
  let actorRole ← admitted db .admin actor tenant
  let target ← membership db tenant user
  let counts ← checkChange actorRole target.role role
  checkOwnersLeft counts (ownersIn db tenant)
  return db.setRole tenant user role

/-- `remove_member` of the service. -/
def removeFrom (db : Db) (actorRole : TenantRole) (tenant user : Uuid) : Except TenantError Db := do
  let target ← membership db tenant user
  let counts ← checkRemove actorRole target.role
  checkOwnersLeft counts (ownersIn db tenant)
  return db.deleteMember tenant user

/-- `DELETE /tenants/members/{user_id}`. -/
def removeMember (db : Db) (actor tenant user : Uuid) : Except TenantError Db := do
  let actorRole ← admitted db .admin actor tenant
  removeFrom db actorRole tenant user

/-- `POST /tenants/leave`. -/
def leaveTenant (db : Db) (actor tenant : Uuid) : Except TenantError Db := do
  let actorRole ← requireTenantContext (roleOf db tenant actor)
  removeFrom db actorRole tenant actor

/-- `POST /tenants/invitations`. -/
def createInvitation (db : Db) (actor tenant : Uuid) (email : String) (role : TenantRole)
    (id : Uuid) (token : String) (now : Datetime) : Except TenantError Db := do
  let actorRole ← admitted db .admin actor tenant
  assertCanAssign actorRole role
  let known := (getUserByEmail platform db email).any fun u => (memberOf db tenant u.id).isSome
  let normalized := normalizeEmail platform email
  let pending := db.invitations.any fun i =>
    i.tenantId = tenant ∧ platform.folding.lower i.email = normalized ∧ i.acceptedAt.isNone ∧
      i.revokedAt.isNone ∧ now < i.expiresAt
  if known then .error .alreadyMemberInvited
  else if pending then .error .alreadyInvited
  else if id ∈ db.invitations.map (·.id) then .error .internal
  else if platform.sha256 token ∈ db.invitations.map (·.tokenHash) then .error .internal
  else
    let invitation : Invitation :=
      { id := id, tenantId := tenant, email := normalized, role := role,
        tokenHash := platform.sha256 token, invitedBy := actor, expiresAt := now + inviteTtl }
    return { db with invitations := db.invitations ++ [invitation] }

/-- `POST /tenants/invitations/{invitation_id}/resend`. -/
def resendInvitation (db : Db) (actor tenant id : Uuid) (token : String) (now : Datetime) :
    Except TenantError Db := do
  let _ ← admitted db .admin actor tenant
  let invitation ← getInvitation db tenant id
  return db.setInvitation invitation.id fun i =>
    { i with tokenHash := platform.sha256 token, expiresAt := now + inviteTtl }

/-- `DELETE /tenants/invitations/{invitation_id}`. -/
def cancelInvitation (db : Db) (actor tenant id : Uuid) (now : Datetime) :
    Except TenantError Db := do
  let _ ← admitted db .admin actor tenant
  let invitation ← getInvitation db tenant id
  return db.setInvitation invitation.id fun i => { i with revokedAt := some now }

/-- `POST /auth/invitations/{token}/accept`. -/
def acceptInvitation (db : Db) (token : String) (signedIn : Option Uuid) (password : String)
    (userId rowId : Uuid) (now : Datetime) : Except TenantError Db := do
  let invitation ← lookupInvitation platform db token now
  let (user, db) ← invitee platform db invitation signedIn password userId
  return joinTenant db invitation user rowId now

inductive Request where
  | register (email : String) (userId tenant rowId : Uuid)
  | createTenant (actor tenant rowId : Uuid)
  | addMember (actor tenant : Uuid) (email : String) (role : TenantRole) (rowId : Uuid)
  | changeRole (actor tenant user : Uuid) (role : TenantRole)
  | removeMember (actor tenant user : Uuid)
  | leave (actor tenant : Uuid)
  | createInvitation (actor tenant : Uuid) (email : String) (role : TenantRole) (id : Uuid)
      (token : String) (now : Datetime)
  | resendInvitation (actor tenant id : Uuid) (token : String) (now : Datetime)
  | cancelInvitation (actor tenant id : Uuid) (now : Datetime)
  | acceptInvitation (token : String) (signedIn : Option Uuid) (password : String)
      (userId rowId : Uuid) (now : Datetime)

def handle (db : Db) : Request → Except TenantError Db
  | .register email userId tenant rowId => register platform db email userId tenant rowId
  | .createTenant actor tenant rowId => createTenantWithOwner db actor tenant rowId
  | .addMember actor tenant email role rowId => addMember platform db actor tenant email role rowId
  | .changeRole actor tenant user role => changeRole db actor tenant user role
  | .removeMember actor tenant user => removeMember db actor tenant user
  | .leave actor tenant => leaveTenant db actor tenant
  | .createInvitation actor tenant email role id token now =>
      createInvitation platform db actor tenant email role id token now
  | .resendInvitation actor tenant id token now =>
      resendInvitation platform db actor tenant id token now
  | .cancelInvitation actor tenant id now => cancelInvitation db actor tenant id now
  | .acceptInvitation token signedIn password userId rowId now =>
      acceptInvitation platform db token signedIn password userId rowId now

/-- A request and its transaction: committed when it succeeds, else rolled back. -/
def serve (db : Db) (request : Request) : Except TenantError Unit × Db :=
  match handle platform db request with
  | .error e => (.error e, db)
  | .ok db' => (.ok (), db')

end IotSaas.Tenants
