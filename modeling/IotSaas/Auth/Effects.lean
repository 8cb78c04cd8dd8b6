import IotSaas.Auth.Sessions

/-!
# `Auth/Effects.lean` — what a statement can do

`Effect` lists the states that the next statement of a transaction can lead to, with what was read
on the way; every invariant of this machine is a case analysis on it. `Local` is what a statement
has no part in: what is committed, and everything of the other transactions.
-/

set_option autoImplicit false

namespace IotSaas.Auth

open Lib Rules AuthState

/-! ## What a statement can do -/

/-- The refresh token a request presents. -/
def AuthRequest.presents : AuthRequest → Option Uuid
  | .refresh tokenId _ | .logout tokenId _ => some tokenId
  | _ => none

/-- The states a statement of `t` can lead to. -/
inductive Effect (P : Hasher) (s : AuthState) (t : TxnId) (txn : Txn) : AuthState → Prop
  | rollback : Effect P s t txn (s.rollback t)
  | verified {email password : String} {userId : Uuid} {user : User} (hphase : txn.phase = .begun)
      (hreq : txn.request = .login email password) (hrow : s.users.view t userId = some user)
      (hverify : P.verify password user.passwordHash = true) :
      Effect P s t txn (s.goOn t txn (.verified userId))
  | presented {tokenId : Uuid} {row : RefreshToken} {now : Nat} (hphase : txn.phase = .begun)
      (hreq : txn.request.presents = some tokenId) (hrow : s.tokens.view t tokenId = some row)
      (hlive : row.revokedAt = none) :
      Effect P s t txn (s.goOn t { txn with now := now } (.presented row))
  | reused {tokenId : Uuid} {row : RefreshToken} {now : Nat} (hphase : txn.phase = .begun)
      (hrow : s.tokens.view t tokenId = some row) :
      Effect P s t txn (s.goOn t { txn with now := now } (.reused row.familyId))
  | nothing (hphase : txn.phase = .begun) : Effect P s t txn (s.goOn t txn (.written none))
  | found {token password : String} {record : PasswordResetToken} (hphase : txn.phase = .begun)
      (hreq : txn.request = .resetPassword token password)
      (hrow : s.resets.view t (P.sha256 token) = some record) (hunused : record.usedAt = none) :
      Effect P s t txn (s.goOn t txn (.found record))
  | user {record : PasswordResetToken} {user : User} (hphase : txn.phase = .found record)
      (hrow : s.users.view t record.userId = some user) :
      Effect P s t txn (s.goOn t txn (.flushing record.userId false false))
  | revoked {tokenId : Uuid} {secret : String} {row current : RefreshToken}
      (hphase : txn.phase = .presented row) (hreq : txn.request = .refresh tokenId secret)
      (hfree : s.tokens.free t tokenId = true) (hrow : s.tokens.view t tokenId = some current) :
      Effect P s t txn (s.revokeRow t txn tokenId current (.rotated row))
  | loggedOut {tokenId : Uuid} {secret : String} {row current : RefreshToken}
      (hphase : txn.phase = .presented row) (hreq : txn.request = .logout tokenId secret)
      (hfree : s.tokens.free t tokenId = true) (hrow : s.tokens.view t tokenId = some current) :
      Effect P s t txn (s.revokeRow t txn tokenId current (.written none))
  | issued {tokenId newId : Uuid} {secret : String} {row new : RefreshToken}
      (hphase : txn.phase = .rotated row) (hreq : txn.request = .refresh tokenId secret)
      (hfresh : newId ∉ s.tokens.keys) (huser : new.userId = row.userId)
      (hfamily : new.familyId = row.familyId) (hlive : new.revokedAt = none) :
      Effect P s t txn (s.insertRow t txn newId new (s.origin.getD tokenId ""))
  | loggedIn {email password : String} {userId newId : Uuid} {new : RefreshToken}
      (hphase : txn.phase = .verified userId) (hreq : txn.request = .login email password)
      (hfresh : newId ∉ s.tokens.keys) (huser : new.userId = userId)
      (hfamily : new.familyId ∉ s.families) (hlive : new.revokedAt = none) :
      Effect P s t txn (s.insertRow t txn newId new password)
  | familyPicked {familyId : Uuid} (hphase : txn.phase = .reused familyId) :
      Effect P s t txn (beginRevoking s t txn (.family familyId))
  | userPicked {token password : String} {userId : Uuid}
      (hphase : txn.phase = .flushing userId true true)
      (hreq : txn.request = .resetPassword token password) :
      Effect P s t txn (beginRevoking s t txn (.user userId))
  | password {token password salt : String} {userId : Uuid} {user : User} {linkDone : Bool}
      (hphase : txn.phase = .flushing userId false linkDone)
      (hreq : txn.request = .resetPassword token password) (hfree : s.users.free t userId = true)
      (hrow : s.users.view t userId = some user) :
      Effect P s t txn (s.setPassword t txn userId user (P.hash password salt) linkDone)
  | link {token password : String} {userId : Uuid} {record : PasswordResetToken} {userDone : Bool}
      (hphase : txn.phase = .flushing userId userDone false)
      (hreq : txn.request = .resetPassword token password)
      (hfree : s.resets.free t (P.sha256 token) = true)
      (hrow : s.resets.view t (P.sha256 token) = some record) :
      Effect P s t txn (s.spendLink t txn (P.sha256 token) record userId userDone)

section

variable {P : Hasher} {s s' : AuthState} {t u : TxnId} {txn : Txn} {drawn : Drawn}

theorem selectToken_some {tokenId : Uuid} {secret : String} {row : RefreshToken}
    (h : selectToken P s t tokenId secret = some row) : s.tokens.view t tokenId = some row :=
  (Option.filter_eq_some_iff.mp h).1

theorem select_effect (hphase : txn.phase = .begun) : Effect P s t txn (select P s t txn) := by
  unfold select
  split
  · rename_i email password hreq
    split
    · exact .rollback
    · rename_i userId _
      split
      · rename_i hverify
        obtain ⟨user, hrow, hverify⟩ := Option.any_eq_true _ _ |>.mp hverify
        exact .verified hphase hreq hrow hverify
      · exact .rollback
  · rename_i tokenId secret hreq
    split
    · exact .rollback
    · rename_i row hrow
      dsimp only
      split
      · exact .rollback
      · split
        · exact .reused hphase (selectToken_some hrow)
        · rename_i hlive
          exact .presented hphase (by rw [hreq]; rfl) (selectToken_some hrow) (not_not.mp hlive)
  · rename_i tokenId secret hreq
    split
    · exact .nothing hphase
    · rename_i row hrow
      split
      · exact .nothing hphase
      · rename_i hlive
        exact .presented hphase (by rw [hreq]; rfl) (selectToken_some hrow) (not_not.mp hlive)
  · rename_i token password hreq
    split
    · exact .rollback
    · rename_i record hrow
      split
      · exact .rollback
      · rename_i hgood
        rw [not_or] at hgood
        exact .found hphase hreq hrow (not_not.mp hgood.1)

theorem revokeToken_effect {tokenId : Uuid} {next : Phase}
    (hcase : ∀ current, s.tokens.free t tokenId = true → s.tokens.view t tokenId = some current →
      Effect P s t txn (s.revokeRow t txn tokenId current next))
    (h : revokeToken s t txn tokenId next = some s') : Effect P s t txn s' := by
  obtain ⟨hfree, h⟩ := Option.ite_none_right_eq_some.mp h
  split at h
  · cases h
    exact .rollback
  · rename_i current hrow
    cases h
    exact hcase current hfree hrow

theorem issueRefreshToken_some {userId familyId : Uuid} {password : String}
    (h : issueRefreshToken P s t txn drawn userId familyId password = some s') :
    ∃ new : RefreshToken, drawn.tokenId ∉ s.tokens.keys ∧ new.userId = userId ∧
      new.familyId = familyId ∧ new.revokedAt = none ∧
      s' = s.insertRow t txn drawn.tokenId new password := by
  obtain ⟨hfresh, h⟩ := Option.ite_none_left_eq_some.mp h
  cases h
  exact ⟨_, hfresh, rfl, rfl, rfl, rfl⟩

theorem flushing_effect {userId : Uuid} {userDone linkDone : Bool} {token newPassword : String}
    (hphase : txn.phase = .flushing userId userDone linkDone)
    (hreq : txn.request = .resetPassword token newPassword)
    (h : statement P s t txn drawn = some s') : Effect P s t txn s' := by
  unfold statement at h
  rw [hphase, hreq] at h
  dsimp only at h
  split at h
  · rename_i hdone
    rw [Bool.and_eq_true] at hdone
    obtain ⟨rfl, rfl⟩ := hdone
    cases h
    exact .userPicked hphase hreq
  · rename_i hdone
    split at h
    · rename_i hfirst
      have hnot : userDone = false := by
        cases userDone <;> simp_all
      subst hnot
      obtain ⟨hfree, h⟩ := Option.ite_none_right_eq_some.mp h
      split at h
      · cases h
        exact .rollback
      · rename_i hrow
        cases h
        exact .password hphase hreq hfree hrow
    · rename_i hfirst
      have hnot : linkDone = false := by
        cases linkDone <;> simp_all
      subst hnot
      obtain ⟨hfree, h⟩ := Option.ite_none_right_eq_some.mp h
      split at h
      · cases h
        exact .rollback
      · rename_i hrow
        cases h
        exact .link hphase hreq hfree hrow

/-- **What a statement can do.** -/
theorem statement_effect (h : statement P s t txn drawn = some s') : Effect P s t txn s' := by
  unfold statement at h
  split at h
  · rename_i hphase
    cases h
    exact select_effect hphase
  · rename_i hphase hreq
    obtain ⟨hfamily, h⟩ := Option.ite_none_left_eq_some.mp h
    obtain ⟨new, hfresh, huser, hnew, hlive, rfl⟩ := issueRefreshToken_some h
    exact .loggedIn hphase hreq hfresh huser (by rw [hnew]; exact hfamily) hlive
  · rename_i hphase hreq
    exact revokeToken_effect (fun _ hfree hrow => .revoked hphase hreq hfree hrow) h
  · rename_i hphase hreq
    exact revokeToken_effect (fun _ hfree hrow => .loggedOut hphase hreq hfree hrow) h
  · rename_i hphase hreq
    obtain ⟨new, hfresh, huser, hnew, hlive, rfl⟩ := issueRefreshToken_some h
    exact .issued hphase hreq hfresh huser hnew hlive
  · rename_i hphase
    cases h
    exact .familyPicked hphase
  · rename_i hphase
    split at h
    · cases h
      exact .rollback
    · rename_i hrow
      cases h
      exact .user hphase hrow
  · rename_i hphase hreq
    refine flushing_effect hphase hreq (?_ : statement P s t txn drawn = some s')
    unfold statement
    rw [hphase, hreq]
    exact h
  · cases h

end

/-! ## What it leaves alone -/

/-- `s'` is `s` but for what `t` has done, uncommitted. -/
structure Local (t : TxnId) (s s' : AuthState) : Prop where
  users : Table.Local t s.users s'.users
  resets : Table.Local t s.resets s'.resets
  tokens : Table.Local t s.tokens s'.tokens
  others : ∀ u, u ≠ t → s'.inflight.get u = s.inflight.get u
  origin : ∀ k ∈ s.tokens.keys, s'.origin.get k = s.origin.get k
  families : ∀ familyId ∈ s.families, familyId ∈ s'.families
  rotated : s'.rotated = s.rotated
  replayed : s'.replayed = s.replayed
  changes : s'.changes = s.changes

section

variable {P : Hasher} {s s' : AuthState} {t u : TxnId} {txn : Txn} {phase : Phase}

theorem goOn_local : Local t s (s.goOn t txn phase) where
  users := .refl t s.users
  resets := .refl t s.resets
  tokens := .refl t s.tokens
  others := fun _ hu => Dict.get_set_ne _ _ hu
  origin := fun _ _ => rfl
  families := fun _ h => h
  rotated := rfl
  replayed := rfl
  changes := rfl

theorem rollback_local : Local t s (s.rollback t) where
  users := .abort t s.users
  resets := .abort t s.resets
  tokens := .abort t s.tokens
  others := fun _ hu => Dict.get_erase_ne _ hu
  origin := fun _ _ => rfl
  families := fun _ h => h
  rotated := rfl
  replayed := rfl
  changes := rfl

variable {tokenId : Uuid}

theorem revokeRow_local {current : RefreshToken} (hfree : s.tokens.free t tokenId = true) :
    Local t s (s.revokeRow t txn tokenId current phase) where
  users := .refl t s.users
  resets := .refl t s.resets
  tokens := .write hfree
  others := fun _ hu => Dict.get_set_ne _ _ hu
  origin := fun _ _ => rfl
  families := fun _ h => h
  rotated := rfl
  replayed := rfl
  changes := rfl

/-- A row that never was has no lock on it. -/
theorem free_of_fresh (hfresh : tokenId ∉ s.tokens.keys) :
    s.tokens.free t tokenId = true := by
  refine Table.free_iff.mpr fun w version hlock => absurd (s.tokens.known tokenId (.inr ?_)) hfresh
  rw [hlock]
  exact Option.some_ne_none _

theorem insertRow_local {tokenId : Uuid} {row : RefreshToken} {password : String}
    (hfresh : tokenId ∉ s.tokens.keys) : Local t s (s.insertRow t txn tokenId row password) where
  users := .refl t s.users
  resets := .refl t s.resets
  tokens := .write (free_of_fresh hfresh)
  others := fun _ hu => Dict.get_set_ne _ _ hu
  origin := fun _ hk => Dict.get_set_ne _ _ fun heq => hfresh (heq ▸ hk)
  families := fun _ h => List.mem_cons_of_mem _ h
  rotated := rfl
  replayed := rfl
  changes := rfl

theorem setPassword_local {userId : Uuid} {current : User} {passwordHash : String}
    {linkDone : Bool} (hfree : s.users.free t userId = true) :
    Local t s (s.setPassword t txn userId current passwordHash linkDone) where
  users := .write hfree
  resets := .refl t s.resets
  tokens := .refl t s.tokens
  others := fun _ hu => Dict.get_set_ne _ _ hu
  origin := fun _ _ => rfl
  families := fun _ h => h
  rotated := rfl
  replayed := rfl
  changes := rfl

theorem spendLink_local {key : String} {current : PasswordResetToken} {userId : Uuid}
    {userDone : Bool} (hfree : s.resets.free t key = true) :
    Local t s (s.spendLink t txn key current userId userDone) where
  users := .refl t s.users
  resets := .write hfree
  tokens := .refl t s.tokens
  others := fun _ hu => Dict.get_set_ne _ _ hu
  origin := fun _ _ => rfl
  families := fun _ h => h
  rotated := rfl
  replayed := rfl
  changes := rfl

theorem Effect.local (h : Effect P s t txn s') : Local t s s' := by
  cases h with
  | rollback => exact rollback_local
  | revoked _ _ hfree _ | loggedOut _ _ hfree _ => exact revokeRow_local hfree
  | issued _ _ hfresh | loggedIn _ _ hfresh => exact insertRow_local hfresh
  | password _ _ hfree _ => exact setPassword_local hfree
  | link _ _ hfree _ => exact spendLink_local hfree
  | _ => exact goOn_local

/-- A bulk UPDATE at a row: it is revoked, or it does not qualify any more. -/
theorem visit_some (h : visit s t txn tokenId = some s') :
    ∃ scope remaining, txn.phase = .revoking scope remaining ∧ tokenId ∈ remaining ∧
      s.tokens.free t tokenId = true ∧
      ((s' = s.goOn t txn (.revoking scope (remaining.erase tokenId)) ∧
          ∀ row, s.tokens.view t tokenId = some row → scope.qualifies row = false) ∨
        ∃ current, s.tokens.view t tokenId = some current ∧
          s' = s.revokeRow t txn tokenId current (.revoking scope (remaining.erase tokenId))) := by
  unfold visit at h
  split at h
  · rename_i scope remaining hphase
    obtain ⟨hready, h⟩ := Option.ite_none_right_eq_some.mp h
    refine ⟨scope, remaining, hphase, hready.1, hready.2, ?_⟩
    dsimp only at h
    split at h
    · rename_i hnone
      cases h
      refine .inl ⟨rfl, fun row hrow => ?_⟩
      rw [hrow, Option.filter_eq_none_iff] at hnone
      exact Bool.eq_false_iff.mpr (hnone row rfl)
    · rename_i current hsome
      cases h
      exact .inr ⟨current, (Option.filter_eq_some_iff.mp hsome).1, rfl⟩
  · cases h

theorem visit_local (h : visit s t txn tokenId = some s') : Local t s s' := by
  obtain ⟨_, _, _, _, hfree, ⟨rfl, _⟩ | ⟨_, _, rfl⟩⟩ := visit_some h
  · exact goOn_local
  · exact revokeRow_local hfree

/-! ## Whose events they are -/

theorem authStep_inflight {e : AuthEvent} (h : authStep P s e = some s') (ht : e.txn ≠ some t) :
    s'.inflight.get t = s.inflight.get t := by
  have hne : ∀ u, e.txn = some u → t ≠ u := fun u hu heq => ht (heq ▸ hu)
  cases e with
  | begin u request =>
    unfold authStep at h
    dsimp only at h
    split at h
    · cases h
    · cases h
      exact Dict.get_set_ne _ _ (hne u rfl)
  | statement u drawn =>
    obtain ⟨txn, _, h⟩ := Option.bind_eq_some_iff.mp h
    exact (statement_effect h).local.others t (hne u rfl)
  | visit u k =>
    obtain ⟨txn, _, h⟩ := Option.bind_eq_some_iff.mp h
    exact (visit_local h).others t (hne u rfl)
  | commit u =>
    obtain ⟨txn, _, h⟩ := Option.bind_eq_some_iff.mp h
    obtain ⟨-, h⟩ := Option.ite_none_right_eq_some.mp h
    cases h
    exact Dict.get_erase_ne _ (hne u rfl)
  | fail u =>
    obtain ⟨txn, _, rfl⟩ := Option.map_eq_some_iff.mp h
    exact Dict.get_erase_ne _ (hne u rfl)
  | tick seconds =>
    cases h
    rfl

/-- A transaction that no event is of is not in flight. -/
theorem inflight_of_run {users : List (Uuid × User)} {resets : List (String × PasswordResetToken)}
    {events : List AuthEvent} (h : run (authStep P) (start users resets) events = some s)
    (ht : ∀ e ∈ events, e.txn ≠ some t) : s.inflight.get t = none := by
  have hfrom : ∀ (events : List AuthEvent) (s₁ : AuthState), (∀ e ∈ events, e.txn ≠ some t) →
      run (authStep P) s₁ events = some s → s.inflight.get t = s₁.inflight.get t := by
    intro events
    induction events with
    | nil =>
      intro s₁ _ hrun
      cases hrun
      rfl
    | cons e rest ih =>
      intro s₁ ht hrun
      unfold run at hrun
      cases hstep : authStep P s₁ e with
      | none =>
        rw [hstep] at hrun
        cases hrun
      | some s₂ =>
        rw [hstep] at hrun
        rw [ih s₂ (fun e' he' => ht e' (List.mem_cons_of_mem _ he')) hrun,
          authStep_inflight hstep (ht e List.mem_cons_self)]
  exact hfrom events _ ht h

end

end IotSaas.Auth
