import IotSaas.Lib.Reach
import IotSaas.Lib.ReadCommitted
import IotSaas.Rules.Model

/-!
# `Auth/Sessions.lean` — logins, rotations, logouts and resets, statement by statement

Every request is a transaction at READ COMMITTED. `rotate_refresh_token` reads the presented row,
then marks it revoked, then inserts the next token of its family, then commits; `reset_password`
reads the link and the user, writes both, then revokes by one bulk UPDATE. Between any two
statements of one request any number of statements of others may run.

The machine keeps what no row does: what has been rotated, which families a replay has revoked, the
passwords that were set, and the password behind each session (`rotated`, `replayed`, `changes`,
`origin`). No statement reads these; they are what the two properties are about.
-/

set_option autoImplicit false

namespace IotSaas.Auth

open Lib Rules

/-! ## Rows and requests -/

structure User where
  email : String
  passwordHash : String
  deriving DecidableEq

/-- A row of `password_reset_tokens`, less its key: the SHA-256 of the token, unique. -/
structure PasswordResetToken where
  userId : Uuid
  expiresAt : Nat
  usedAt : Option Nat := none
  deriving DecidableEq

structure RefreshToken where
  userId : Uuid
  tokenHash : String
  familyId : Uuid
  expiresAt : Nat
  revokedAt : Option Nat := none
  deriving DecidableEq

abbrev TxnId := Nat

/-- argon2id, salted: a hash is verified by the password it was made from and by no other. The
tokens of the links are hashed without a salt, by SHA-256. -/
structure Hasher where
  hash (raw salt : String) : String
  verify (raw hashed : String) : Bool
  verify_hash : ∀ raw raw' salt, verify raw (hash raw' salt) = decide (raw = raw')
  sha256 : String → String
  /-- `settings.refresh_token_expire_days`. -/
  refreshTtl : Nat

/-- A hasher to evaluate with: it keeps what it is given. -/
def plainHasher : Hasher where
  hash := fun raw _ => raw
  verify := fun raw hashed => decide (raw = hashed)
  verify_hash := fun _ _ _ => rfl
  sha256 := id
  refreshTtl := 30

/-- The requests, with what they present. An email comes stripped and lowered, a refresh token
parsed: one that does not parse never gets to a statement. -/
inductive AuthRequest where
  | login (email password : String)
  | refresh (tokenId : Uuid) (secret : String)
  | logout (tokenId : Uuid) (secret : String)
  | resetPassword (token newPassword : String)
  deriving DecidableEq

/-- What a bulk UPDATE of refresh tokens ranges over. -/
inductive Scope where
  | family (familyId : Uuid)
  | user (userId : Uuid)
  deriving DecidableEq

namespace Scope

def covers : Scope → RefreshToken → Bool
  | family familyId, row => decide (row.familyId = familyId)
  | user userId, row => decide (row.userId = userId)

/-- The rows the UPDATE is for. -/
def qualifies (scope : Scope) (row : RefreshToken) : Bool :=
  scope.covers row && row.revokedAt.isNone

end Scope

/-- How far a request has come. -/
inductive Phase where
  | begun
  /-- A login: the password is right. -/
  | verified (userId : Uuid)
  /-- The token is known and unrevoked. -/
  | presented (row : RefreshToken)
  /-- A refresh: the presented token is marked, the next one to be issued. -/
  | rotated (row : RefreshToken)
  /-- A refresh: the token had been revoked, and so will be its family. -/
  | reused (familyId : Uuid)
  /-- A reset: the link is good. -/
  | found (record : PasswordResetToken)
  /-- A reset: the user is read; which of the two rows has been flushed. -/
  | flushing (userId : Uuid) (userDone linkDone : Bool)
  /-- In a bulk UPDATE: the rows it has picked and not come to. -/
  | revoking (scope : Scope) (remaining : List Uuid)
  /-- Everything is written, a token issued or not. -/
  | written (issued : Option Uuid)
  deriving DecidableEq

structure Txn where
  request : AuthRequest
  phase : Phase := .begun
  /-- The `now` its function has read. -/
  now : Nat
  /-- How many resets had changed a password when it began. -/
  began : Nat
  deriving DecidableEq

/-- A password that was set. -/
structure Change where
  userId : Uuid
  password : String
  /-- The link it was set from. -/
  token : String
  deriving DecidableEq

structure AuthState where
  users : Table Uuid User TxnId
  resets : Table String PasswordResetToken TxnId
  tokens : Table Uuid RefreshToken TxnId := {}
  /-- Every family id that was drawn. -/
  families : List Uuid := []
  inflight : Dict TxnId Txn := .empty
  now : Nat := 0
  /-- The tokens a refresh has taken and answered with another. -/
  rotated : List Uuid := []
  /-- The families revoked because a token of theirs came twice. -/
  replayed : List Uuid := []
  /-- The resets that changed a password, the last one first. -/
  changes : List Change := []
  /-- The password that was presented at the login behind a token. -/
  origin : Dict Uuid String := .empty

/-- The accounts and the reset links there are, and no session. -/
def start (users : List (Uuid × User)) (resets : List (String × PasswordResetToken)) : AuthState :=
  { users := .ofRows users, resets := .ofRows resets }

namespace AuthState

/-- The transaction goes on. -/
def goOn (s : AuthState) (t : TxnId) (txn : Txn) (phase : Phase) : AuthState :=
  { s with inflight := s.inflight.set t { txn with phase := phase } }

/-- It raises, and is rolled back. -/
def rollback (s : AuthState) (t : TxnId) : AuthState :=
  { s with
    users := s.users.abort t
    resets := s.resets.abort t
    tokens := s.tokens.abort t
    inflight := s.inflight.erase t }

/-- A row of `refresh_tokens` is marked revoked. -/
def revokeRow (s : AuthState) (t : TxnId) (txn : Txn) (tokenId : Uuid) (current : RefreshToken)
    (next : Phase) : AuthState :=
  { s with
    tokens := s.tokens.write t tokenId (some { current with revokedAt := some txn.now })
    inflight := s.inflight.set t { txn with phase := next } }

/-- A row of `refresh_tokens` is inserted, for the session of the login with `password`. -/
def insertRow (s : AuthState) (t : TxnId) (txn : Txn) (tokenId : Uuid) (row : RefreshToken)
    (password : String) : AuthState :=
  { s with
    tokens := s.tokens.write t tokenId (some row)
    families := row.familyId :: s.families
    inflight := s.inflight.set t { txn with phase := .written (some tokenId) }
    origin := s.origin.set tokenId password }

/-- The user's row gets a new hash. -/
def setPassword (s : AuthState) (t : TxnId) (txn : Txn) (userId : Uuid) (current : User)
    (passwordHash : String) (linkDone : Bool) : AuthState :=
  { s with
    users := s.users.write t userId (some { current with passwordHash := passwordHash })
    inflight := s.inflight.set t { txn with phase := .flushing userId true linkDone } }

/-- The link is marked used. -/
def spendLink (s : AuthState) (t : TxnId) (txn : Txn) (key : String)
    (current : PasswordResetToken) (userId : Uuid) (userDone : Bool) : AuthState :=
  { s with
    resets := s.resets.write t key (some { current with usedAt := some txn.now })
    inflight := s.inflight.set t { txn with phase := .flushing userId userDone true } }

section

variable {s : AuthState} {t : TxnId} {txn : Txn} {k : Uuid} {phase : Phase} {row : RefreshToken}

@[simp] theorem goOn_inflight :
    (s.goOn t txn phase).inflight.get t = some { txn with phase := phase } :=
  Dict.get_set_self _ _ _

@[simp] theorem rollback_inflight : (s.rollback t).inflight.get t = none :=
  Dict.get_erase_self _ _

@[simp] theorem revokeRow_inflight :
    (s.revokeRow t txn k row phase).inflight.get t = some { txn with phase := phase } :=
  Dict.get_set_self _ _ _

@[simp] theorem revokeRow_pending : (s.revokeRow t txn k row phase).tokens.pending.get k =
    some (t, some { row with revokedAt := some txn.now }) :=
  Table.write_pending_self

@[simp] theorem insertRow_inflight {password : String} :
    (s.insertRow t txn k row password).inflight.get t =
      some { txn with phase := .written (some k) } :=
  Dict.get_set_self _ _ _

@[simp] theorem insertRow_pending {password : String} :
    (s.insertRow t txn k row password).tokens.pending.get k = some (t, some row) :=
  Table.write_pending_self

@[simp] theorem setPassword_inflight {user : User} {passwordHash : String} {linkDone : Bool} :
    (s.setPassword t txn k user passwordHash linkDone).inflight.get t =
      some { txn with phase := .flushing k true linkDone } :=
  Dict.get_set_self _ _ _

@[simp] theorem spendLink_inflight {key : String} {record : PasswordResetToken}
    {userDone : Bool} : (s.spendLink t txn key record k userDone).inflight.get t =
      some { txn with phase := .flushing k userDone true } :=
  Dict.get_set_self _ _ _

end

end AuthState

open AuthState

/-! ## The statements -/

/-- What a statement draws: a `uuid4` for a token and one for a family, a secret, a salt, and which
of two dirty rows the session flushes first. -/
structure Drawn where
  tokenId : Uuid := ""
  familyId : Uuid := ""
  secret : String := ""
  salt : String := ""
  userFirst : Bool := true

section

variable (P : Hasher)

/-- `SELECT … FROM users WHERE email = …`. -/
def selectUser (s : AuthState) (t : TxnId) (email : String) : Option Uuid :=
  s.users.keys.find? fun id => (s.users.view t id).any fun user => user.email = email

/-- `SELECT … FROM refresh_tokens WHERE id = …`: the row, if its secret is the presented one. -/
def selectToken (s : AuthState) (t : TxnId) (tokenId : Uuid) (secret : String) :
    Option RefreshToken :=
  (s.tokens.view t tokenId).filter fun row => P.verify secret row.tokenHash

/-- The first statement, and what is made of its result. -/
def select (s : AuthState) (t : TxnId) (txn : Txn) : AuthState :=
  match txn.request with
  | .login email password =>
      match selectUser s t email with
      | none => s.rollback t
      | some userId =>
          if (s.users.view t userId).any fun user => P.verify password user.passwordHash then
            s.goOn t txn (.verified userId)
          else s.rollback t
  | .refresh tokenId secret =>
      match selectToken P s t tokenId secret with
      | none => s.rollback t
      | some row =>
          let txn := { txn with now := s.now }
          if row.expiresAt < s.now then s.rollback t
          else if row.revokedAt ≠ none then s.goOn t txn (.reused row.familyId)
          else s.goOn t txn (.presented row)
  | .logout tokenId secret =>
      match selectToken P s t tokenId secret with
      | none => s.goOn t txn (.written none)
      | some row =>
          if row.revokedAt ≠ none then s.goOn t txn (.written none)
          else s.goOn t { txn with now := s.now } (.presented row)
  | .resetPassword token _ =>
      match s.resets.view t (P.sha256 token) with
      | none => s.rollback t
      | some record =>
          if record.usedAt ≠ none ∨ record.expiresAt ≤ txn.now then s.rollback t
          else s.goOn t txn (.found record)

/-- `UPDATE refresh_tokens SET revoked_at = … WHERE id = …`: waits for whoever writes the row, and
then writes it. -/
def revokeToken (s : AuthState) (t : TxnId) (txn : Txn) (tokenId : Uuid) (next : Phase) :
    Option AuthState :=
  if s.tokens.free t tokenId then
    match s.tokens.view t tokenId with
    | none => some (s.rollback t)
    | some current => some (s.revokeRow t txn tokenId current next)
  else none

/-- `INSERT INTO refresh_tokens`, under an id that no row has had. -/
def issueRefreshToken (s : AuthState) (t : TxnId) (txn : Txn) (drawn : Drawn)
    (userId familyId : Uuid) (password : String) : Option AuthState :=
  let row : RefreshToken :=
    { userId := userId
      tokenHash := P.hash drawn.secret drawn.salt
      familyId := familyId
      expiresAt := s.now + P.refreshTtl }
  if drawn.tokenId ∈ s.tokens.keys then none
  else some (s.insertRow t txn drawn.tokenId row password)

/-- `UPDATE users SET password_hash = … WHERE id = …`. -/
def updateUser (s : AuthState) (t : TxnId) (txn : Txn) (userId : Uuid) (passwordHash : String)
    (linkDone : Bool) : Option AuthState :=
  if s.users.free t userId then
    match s.users.view t userId with
    | none => some (s.rollback t)
    | some current => some (s.setPassword t txn userId current passwordHash linkDone)
  else none

/-- `UPDATE password_reset_tokens SET used_at = … WHERE id = …`. -/
def updateLink (s : AuthState) (t : TxnId) (txn : Txn) (key : String) (userId : Uuid)
    (userDone : Bool) : Option AuthState :=
  if s.resets.free t key then
    match s.resets.view t key with
    | none => some (s.rollback t)
    | some current => some (s.spendLink t txn key current userId userDone)
  else none

/-- `UPDATE refresh_tokens SET revoked_at = … WHERE … AND revoked_at IS NULL` begins: it picks the
rows that qualify now. -/
def beginRevoking (s : AuthState) (t : TxnId) (txn : Txn) (scope : Scope) : AuthState :=
  s.goOn t txn (.revoking scope (s.tokens.snapshot t fun _ row => scope.qualifies row))

/-- The next statement of a transaction; `none` while it waits for a lock, or has none left. -/
def statement (s : AuthState) (t : TxnId) (txn : Txn) (drawn : Drawn) : Option AuthState :=
  match txn.phase, txn.request with
  | .begun, _ => some (select P s t txn)
  | .verified userId, .login _ password =>
      if drawn.familyId ∈ s.families then none
      else issueRefreshToken P s t txn drawn userId drawn.familyId password
  | .presented row, .refresh tokenId _ => revokeToken s t txn tokenId (.rotated row)
  | .presented _, .logout tokenId _ => revokeToken s t txn tokenId (.written none)
  | .rotated row, .refresh tokenId _ =>
      issueRefreshToken P s t txn drawn row.userId row.familyId (s.origin.getD tokenId "")
  | .reused familyId, _ => some (beginRevoking s t txn (.family familyId))
  | .found record, _ =>
      match s.users.view t record.userId with
      | none => some (s.rollback t)
      | some _ => some (s.goOn t txn (.flushing record.userId false false))
  | .flushing userId userDone linkDone, .resetPassword token newPassword =>
      if userDone && linkDone then some (beginRevoking s t txn (.user userId))
      else if linkDone || (!userDone && drawn.userFirst) then
        updateUser s t txn userId (P.hash newPassword drawn.salt) linkDone
      else updateLink s t txn (P.sha256 token) userId userDone
  | _, _ => none

/-- A bulk UPDATE comes to a row it has picked: it waits for whoever writes it, and revokes it if it
still qualifies. -/
def visit (s : AuthState) (t : TxnId) (txn : Txn) (tokenId : Uuid) : Option AuthState :=
  match txn.phase with
  | .revoking scope remaining =>
      if tokenId ∈ remaining ∧ s.tokens.free t tokenId = true then
        let next := .revoking scope (remaining.erase tokenId)
        match (s.tokens.view t tokenId).filter scope.qualifies with
        | none => some (s.goOn t txn next)
        | some current => some (s.revokeRow t txn tokenId current next)
      else none
  | _ => none

/-! ## Commits -/

def Phase.done : Phase → Bool
  | .written _ => true
  | .revoking _ remaining => remaining.isEmpty
  | _ => false

/-- The commit of `t`. A family's revocation is a transaction of its own, and commits although the
request it belongs to raises. -/
def commit (s : AuthState) (t : TxnId) (txn : Txn) : AuthState :=
  { s with
    users := s.users.commit t
    resets := s.resets.commit t
    tokens := s.tokens.commit t
    inflight := s.inflight.erase t
    rotated :=
      match txn.phase, txn.request with
      | .written (some _), .refresh tokenId _ => tokenId :: s.rotated
      | _, _ => s.rotated
    replayed :=
      match txn.phase with
      | .revoking (.family familyId) _ => familyId :: s.replayed
      | _ => s.replayed
    changes :=
      match txn.phase, txn.request with
      | .revoking (.user userId) _, .resetPassword token newPassword =>
          ⟨userId, newPassword, token⟩ :: s.changes
      | _, _ => s.changes }

inductive AuthEvent where
  | begin (t : TxnId) (request : AuthRequest)
  | statement (t : TxnId) (drawn : Drawn)
  | visit (t : TxnId) (tokenId : Uuid)
  | commit (t : TxnId)
  /-- A connection is lost, a deadlock is broken, or anything else raises. -/
  | fail (t : TxnId)
  | tick (seconds : Nat)

/-- The transaction it is of. -/
def AuthEvent.txn : AuthEvent → Option TxnId
  | .begin t _ | .statement t _ | .visit t _ | .commit t | .fail t => some t
  | .tick _ => none

def authStep (s : AuthState) : AuthEvent → Option AuthState
  | .begin t request =>
      match s.inflight.get t with
      | some _ => none
      | none =>
          let txn : Txn := { request := request, now := s.now, began := s.changes.length }
          some { s with inflight := s.inflight.set t txn }
  | .statement t drawn => (s.inflight.get t).bind fun txn => statement P s t txn drawn
  | .visit t tokenId => (s.inflight.get t).bind fun txn => visit s t txn tokenId
  | .commit t =>
      (s.inflight.get t).bind fun txn => if txn.phase.done then some (commit s t txn) else none
  | .fail t => (s.inflight.get t).map fun _ => s.rollback t
  | .tick seconds => some { s with now := s.now + seconds }

end

end IotSaas.Auth
