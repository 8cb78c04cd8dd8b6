import IotSaas.Auth.Revocation

/-!
# `Auth/ResetLocks.lean` — what a reset in flight may rely on

A reset writes two rows before it revokes: its user's, and its link's. From the first of the two on
nobody else can spend the link, because that takes the locks on both; from the bulk UPDATE on what it
has picked is all there is to revoke. `Resetting` is that, for each transaction; it needs the link to
be unused when the reset begins to write, which the code has read and does not read again.
-/

set_option autoImplicit false

namespace IotSaas.Auth

open Lib Rules AuthState

/-! ## Its locks -/

section

variable (P : Hasher)

/-- The user whose row a request in this phase has the lock on. -/
def Phase.holdsUser : Phase → Option Uuid
  | .flushing userId true _ => some userId
  | .revoking (.user userId) _ => some userId
  | _ => none

/-- A request in this phase has the lock on its link. -/
def Phase.holdsLink : Phase → Bool
  | .flushing _ _ true => true
  | .revoking (.user _) _ => true
  | _ => false

/-- A link of the user's, unused once the reset has begun to write. -/
def LinkOf (s : AuthState) (key : String) (userId : Uuid) (unused : Bool) : Prop :=
  ∃ record, s.resets.committed.get key = some record ∧ record.userId = userId ∧
    (unused = true → record.usedAt = none)

/-- What a reset may rely on, in the phase it is in. -/
def ResetSound (s : AuthState) (t : TxnId) (txn : Txn) : Prop :=
  match txn.phase, txn.request with
  | .found record, .resetPassword token _ => LinkOf s (P.sha256 token) record.userId false
  | .flushing userId userDone linkDone, .resetPassword token _ =>
      LinkOf s (P.sha256 token) userId (userDone || linkDone) ∧
        (userDone = true → ∃ version, s.users.pending.get userId = some (t, version)) ∧
        (linkDone = true → ∃ version, s.resets.pending.get (P.sha256 token) = some (t, version))
  | .revoking (.user userId) remaining, .resetPassword token _ =>
      LinkOf s (P.sha256 token) userId true ∧
        (∃ version, s.users.pending.get userId = some (t, version)) ∧
        (∃ version, s.resets.pending.get (P.sha256 token) = some (t, version)) ∧
        Covered s t txn.request (.user userId) remaining
  | _, _ => True

/-- A lock on a user's row is a reset's, which has written the hash of its password there. -/
def UserLock (s : AuthState) (t : TxnId) (userId : Uuid) (version : Option User) : Prop :=
  ∃ txn token newPassword user salt, s.inflight.get t = some txn ∧
    txn.request = .resetPassword token newPassword ∧ txn.phase.holdsUser = some userId ∧
    version = some user ∧ user.passwordHash = P.hash newPassword salt

/-- A lock on a link is a reset's, which has marked it used. -/
def LinkLock (s : AuthState) (t : TxnId) (key : String) (version : Option PasswordResetToken) :
    Prop :=
  ∃ txn token newPassword before time, s.inflight.get t = some txn ∧
    txn.request = .resetPassword token newPassword ∧ txn.phase.holdsLink = true ∧
    key = P.sha256 token ∧ s.resets.committed.get key = some before ∧
    version = some { before with usedAt := some time }

structure Resetting (s : AuthState) (t : TxnId) : Prop where
  userLocks : ∀ userId version, s.users.pending.get userId = some (t, version) →
    UserLock P s t userId version
  linkLocks : ∀ key version, s.resets.pending.get key = some (t, version) →
    LinkLock P s t key version
  sound : ∀ txn, s.inflight.get t = some txn → ResetSound P s t txn

end

section

variable {P : Hasher} {s s' : AuthState} {t u : TxnId} {txn : Txn} {userId k : Uuid}

theorem Resetting.no_userLock (h : Resetting P s t) (htxn : s.inflight.get t = some txn)
    (hphase : txn.phase.holdsUser ≠ some userId) (version : Option User) :
    s.users.pending.get userId ≠ some (t, version) := by
  intro hlock
  obtain ⟨txn', _, _, _, _, htxn', _, hholds, _⟩ := h.userLocks userId version hlock
  rw [htxn] at htxn'
  cases htxn'
  exact hphase hholds

theorem Resetting.no_linkLock {key : String} (h : Resetting P s t)
    (htxn : s.inflight.get t = some txn) (hphase : txn.phase.holdsLink = false)
    (version : Option PasswordResetToken) : s.resets.pending.get key ≠ some (t, version) := by
  intro hlock
  obtain ⟨txn', _, _, _, _, htxn', _, hholds, _⟩ := h.linkLocks key version hlock
  rw [htxn] at htxn'
  cases htxn'
  rw [hphase] at hholds
  cases hholds

theorem Resetting.of_rollback : Resetting P (s.rollback t) t where
  userLocks := fun _ _ hlock => absurd rfl (Table.abort_pending.mp hlock).2
  linkLocks := fun _ _ hlock => absurd rfl (Table.abort_pending.mp hlock).2
  sound := by
    intro txn htxn
    rw [rollback_inflight] at htxn
    cases htxn

/-- With the users and the links as they are, the next phase is to hold the locks the last one
held, and needs its own soundness. -/
theorem Resetting.goOn {next : Txn} (h : Resetting P s t) (htxn : s.inflight.get t = some txn)
    (hnext : s'.inflight.get t = some next) (hreq : next.request = txn.request)
    (husers : s'.users = s.users) (hresets : s'.resets = s.resets)
    (huser : ∀ userId, txn.phase.holdsUser = some userId → next.phase.holdsUser = some userId)
    (hlink : txn.phase.holdsLink = true → next.phase.holdsLink = true)
    (hsound : ResetSound P s' t next) : Resetting P s' t where
  userLocks := by
    intro userId version hlock
    rw [husers] at hlock
    obtain ⟨txn', token, newPassword, user, salt, htxn', hreq', hholds, hversion, hhash⟩ :=
      h.userLocks userId version hlock
    rw [htxn] at htxn'
    cases htxn'
    exact ⟨next, token, newPassword, user, salt, hnext, hreq.trans hreq', huser userId hholds,
      hversion, hhash⟩
  linkLocks := by
    intro key version hlock
    rw [hresets] at hlock
    obtain ⟨txn', token, newPassword, before, time, htxn', hreq', hholds, hkey, hbefore, hversion⟩ :=
      h.linkLocks key version hlock
    rw [htxn] at htxn'
    cases htxn'
    exact ⟨next, token, newPassword, before, time, hnext, hreq.trans hreq', hlink hholds, hkey,
      by rw [hresets, hbefore], hversion⟩
  sound := by
    intro txn' htxn'
    rw [hnext] at htxn'
    cases htxn'
    exact hsound

/-- **What a statement does to its own reset.** -/
theorem Effect.resetting (h : Effect P s t txn s') (hreset : Resetting P s t)
    (htxn : s.inflight.get t = some txn)
    (hspent : ∀ userId token newPassword, txn.phase = .flushing userId false false →
      txn.request = .resetPassword token newPassword → ∀ record,
        s.resets.committed.get (P.sha256 token) = some record → record.usedAt = none) :
    Resetting P s' t := by
  have hsound := hreset.sound txn htxn
  cases h with
  | rollback => exact .of_rollback
  -- No row is touched: the locks stay, and the phase reached says nothing of a link.
  | verified hread | presented hread | reused hread | nothing hread =>
    refine hreset.goOn htxn goOn_inflight rfl rfl rfl (by simp [hread, Phase.holdsUser])
      (by simp [hread, Phase.holdsLink]) ?_
    unfold ResetSound
    simp
  | revoked hread | loggedOut hread =>
    refine hreset.goOn htxn revokeRow_inflight rfl rfl rfl (by simp [hread, Phase.holdsUser])
      (by simp [hread, Phase.holdsLink]) ?_
    unfold ResetSound
    simp
  | issued hread | loggedIn hread =>
    refine hreset.goOn htxn insertRow_inflight rfl rfl rfl (by simp [hread, Phase.holdsUser])
      (by simp [hread, Phase.holdsLink]) ?_
    unfold ResetSound
    simp
  | familyPicked hread =>
    refine hreset.goOn htxn goOn_inflight rfl rfl rfl (by simp [hread, Phase.holdsUser])
      (by simp [hread, Phase.holdsLink]) ?_
    unfold ResetSound
    simp
  | @found token password record hread hreq hrow hunused =>
    refine hreset.goOn htxn goOn_inflight rfl rfl rfl (by simp [hread, Phase.holdsUser])
      (by simp [hread, Phase.holdsLink]) ?_
    -- It has written no link yet, so what it sees is what is committed.
    rw [Table.view_eq_committed (hreset.no_linkLock htxn (by simp [hread, Phase.holdsLink]))] at hrow
    unfold ResetSound
    simp only [hreq]
    exact ⟨record, hrow, rfl, fun h => by cases h⟩
  | @user record user hread hrow =>
    refine hreset.goOn htxn goOn_inflight rfl rfl rfl (by simp [hread, Phase.holdsUser])
      (by simp [hread, Phase.holdsLink]) ?_
    unfold ResetSound at hsound ⊢
    rw [hread] at hsound
    cases hreq : txn.request with
    | resetPassword token newPassword =>
      rw [hreq] at hsound
      exact ⟨hsound, fun h => (by cases h), fun h => (by cases h)⟩
    | _ => simp
  | @userPicked token password userId hread hreq =>
    refine hreset.goOn htxn goOn_inflight rfl rfl rfl (by simp [hread, Phase.holdsUser])
      (by simp [Phase.holdsLink]) ?_
    unfold ResetSound at hsound ⊢
    rw [hread, hreq] at hsound
    obtain ⟨hlink, huser, hspends⟩ := hsound
    simp only [hreq]
    exact ⟨hlink, huser rfl, hspends rfl, covered_beginRevoking⟩
  | @password token newPassword salt userId user linkDone hread hreq hfree hrow =>
    unfold ResetSound at hsound
    rw [hread, hreq] at hsound
    obtain ⟨⟨record, hrecord, howner, hunused⟩, _, hspends⟩ := hsound
    -- Password and link are flushed in either order; at the first the link is unspent.
    have hfresh : record.usedAt = none := by
      cases linkDone with
      | true => exact hunused rfl
      | false => exact hspent userId token newPassword hread hreq record hrecord
    refine ⟨fun userId' version hlock => ?_, fun key version hlock => ?_, fun txn' htxn' => ?_⟩
    · by_cases hsame : userId' = userId
      · subst hsame
        rw [show (s.setPassword t txn userId' user _ linkDone).users.pending.get userId' =
          some (t, some _) from Table.write_pending_self] at hlock
        cases hlock
        exact ⟨_, token, newPassword, _, salt, setPassword_inflight, hreq, rfl, rfl, rfl⟩
      · rw [show (s.setPassword t txn userId user _ linkDone).users.pending.get userId' =
          s.users.pending.get userId' from Table.write_pending_ne hsame] at hlock
        exact absurd hlock (hreset.no_userLock htxn (by simp [hread, Phase.holdsUser]) version)
    · obtain ⟨txn', token', newPassword', before, time, htxn', hreq', hholds, hrest⟩ :=
        hreset.linkLocks key version hlock
      rw [htxn] at htxn'
      cases htxn'
      refine ⟨_, token', newPassword', before, time, setPassword_inflight, hreq', ?_, hrest⟩
      rw [hread] at hholds
      cases linkDone with
      | true => rfl
      | false => cases hholds
    · rw [setPassword_inflight] at htxn'
      cases htxn'
      unfold ResetSound
      simp only [hreq]
      exact ⟨⟨record, hrecord, howner, fun _ => hfresh⟩, fun _ => ⟨_, Table.write_pending_self⟩,
        hspends⟩
  | @link token newPassword userId record userDone hread hreq hfree hrow =>
    unfold ResetSound at hsound
    rw [hread, hreq] at hsound
    obtain ⟨⟨before, hbefore, howner, hunused⟩, huser, _⟩ := hsound
    have hfresh : before.usedAt = none := by
      cases userDone with
      | true => exact hunused rfl
      | false => exact hspent userId token newPassword hread hreq before hbefore
    -- The link is not written yet, so what it sees is the committed one.
    have hidle : ∀ key version, s.resets.pending.get key ≠ some (t, version) := fun key version =>
      hreset.no_linkLock htxn (by rw [hread]; cases userDone <;> rfl) version
    rw [Table.view_eq_committed (hidle _), hbefore] at hrow
    cases hrow
    refine ⟨fun userId' version hlock => ?_, fun key version hlock => ?_, fun txn' htxn' => ?_⟩
    · obtain ⟨txn', token', newPassword', user, salt, htxn', hreq', hholds, hrest⟩ :=
        hreset.userLocks userId' version hlock
      rw [htxn] at htxn'
      cases htxn'
      refine ⟨_, token', newPassword', user, salt, spendLink_inflight, hreq', ?_, hrest⟩
      rw [hread] at hholds
      cases userDone with
      | true => exact hholds
      | false => cases hholds
    · by_cases hsame : key = P.sha256 token
      · subst hsame
        rw [show (s.spendLink t txn _ record userId userDone).resets.pending.get (P.sha256 token) =
          some (t, some _) from Table.write_pending_self] at hlock
        cases hlock
        exact ⟨_, token, newPassword, record, txn.now, spendLink_inflight, hreq, rfl, rfl, hbefore,
          rfl⟩
      · rw [show (s.spendLink t txn (P.sha256 token) record userId userDone).resets.pending.get key =
          s.resets.pending.get key from Table.write_pending_ne hsame] at hlock
        exact absurd hlock (hidle key version)
    · rw [spendLink_inflight] at htxn'
      cases htxn'
      unfold ResetSound
      simp only [hreq]
      exact ⟨⟨record, hbefore, howner, fun _ => hfresh⟩, huser, fun _ => ⟨_, Table.write_pending_self⟩⟩

/-! ## What the others do to it -/

/-- A reset stays sound while its locks are respected, its link is not spent under them, and what
its UPDATE has to come to is not taken away. -/
theorem ResetSound.congr (h : ResetSound P s t txn)
    (hlink : ∀ key userId, LinkOf s key userId false → LinkOf s' key userId false)
    (hunused : ∀ key userId, LinkOf s key userId true →
      (∃ version, s.users.pending.get userId = some (t, version)) ∨
        (∃ version, s.resets.pending.get key = some (t, version)) → LinkOf s' key userId true)
    (hu : ∀ userId, (∃ version, s.users.pending.get userId = some (t, version)) →
      ∃ version, s'.users.pending.get userId = some (t, version))
    (hr : ∀ key, (∃ version, s.resets.pending.get key = some (t, version)) →
      ∃ version, s'.resets.pending.get key = some (t, version))
    (hcovered : ∀ userId remaining token newPassword,
      txn.phase = .revoking (.user userId) remaining →
      txn.request = .resetPassword token newPassword →
      (∃ version, s.users.pending.get userId = some (t, version)) →
      Covered s t txn.request (.user userId) remaining →
      Covered s' t txn.request (.user userId) remaining) : ResetSound P s' t txn := by
  unfold ResetSound at h ⊢
  split
  · rename_i hphase hreq
    rw [hphase, hreq] at h
    exact hlink _ _ h
  · rename_i userId userDone linkDone token newPassword hphase hreq
    rw [hphase, hreq] at h
    obtain ⟨hlinkOf, huser, hspends⟩ := h
    refine ⟨?_, fun hdone => hu _ (huser hdone), fun hdone => hr _ (hspends hdone)⟩
    cases userDone with
    | true => exact hunused _ _ hlinkOf (.inl (huser rfl))
    | false =>
      cases linkDone with
      | true => exact hunused _ _ hlinkOf (.inr (hspends rfl))
      | false => exact hlink _ _ hlinkOf
  · rename_i userId remaining token newPassword hphase hreq
    have hcovered := hcovered userId remaining token newPassword hphase hreq
    rw [hphase, hreq] at h
    rw [hreq] at hcovered
    obtain ⟨hlinkOf, huser, hspends, hbefore⟩ := h
    rw [hreq]
    exact ⟨hunused _ _ hlinkOf (.inl huser), hu _ huser, hr _ hspends, hcovered huser hbefore⟩
  · trivial

theorem Local.resetting (h : Local t s s') (hu : u ≠ t) (hreset : Resetting P s u) :
    Resetting P s' u where
  userLocks := by
    intro userId version hlock
    obtain ⟨txn, token, newPassword, user, salt, htxn, hrest⟩ :=
      hreset.userLocks userId version ((h.users.locks userId u version hu).mp hlock)
    exact ⟨txn, token, newPassword, user, salt, by rw [h.others u hu, htxn], hrest⟩
  linkLocks := by
    intro key version hlock
    obtain ⟨txn, token, newPassword, before, time, htxn, hreq, hholds, hkey, hbefore, hversion⟩ :=
      hreset.linkLocks key version ((h.resets.locks key u version hu).mp hlock)
    exact ⟨txn, token, newPassword, before, time, by rw [h.others u hu, htxn], hreq, hholds, hkey,
      by rw [h.resets.committed, hbefore], hversion⟩
  sound := by
    intro txn htxn
    rw [h.others u hu] at htxn
    have hlink : ∀ key userId unused, LinkOf s key userId unused → LinkOf s' key userId unused := by
      intro key userId unused hlink
      unfold LinkOf
      rw [h.resets.committed]
      exact hlink
    refine (hreset.sound txn htxn).congr (fun key userId => hlink key userId false)
      (fun key userId hunused _ => hlink key userId true hunused) ?_ ?_
      fun _ _ _ _ _ _ _ hcovered => hcovered.local h hu
    · rintro userId ⟨version, hlock⟩
      exact ⟨version, (h.users.locks userId u version hu).mpr hlock⟩
    · rintro key ⟨version, hlock⟩
      exact ⟨version, (h.resets.locks key u version hu).mpr hlock⟩

theorem visit_resetting (h : visit s t txn k = some s') (hreset : Resetting P s t)
    (htxn : s.inflight.get t = some txn)
    (hmissed : ∀ userId remaining, txn.phase = .revoking (.user userId) remaining →
      missed s (.user userId) txn.request k = false) : Resetting P s' t := by
  have hsound := hreset.sound txn htxn
  obtain ⟨scope, remaining, hphase, _, _, hcase⟩ := visit_some h
  have hnext : s'.users = s.users ∧ s'.resets = s.resets ∧ s'.inflight.get t =
      some { txn with phase := .revoking scope (remaining.erase k) } := by
    rcases hcase with ⟨rfl, _⟩ | ⟨_, _, rfl⟩
    · exact ⟨rfl, rfl, goOn_inflight⟩
    · exact ⟨rfl, rfl, revokeRow_inflight⟩
  obtain ⟨husers, hresets, hnext⟩ := hnext
  have hholds : (Phase.revoking scope (remaining.erase k)).holdsUser = txn.phase.holdsUser ∧
      (Phase.revoking scope (remaining.erase k)).holdsLink = txn.phase.holdsLink := by
    rw [hphase]
    cases scope <;> exact ⟨rfl, rfl⟩
  refine hreset.goOn htxn hnext rfl husers hresets (fun userId h => hholds.1.trans h)
    (fun h => hholds.2.trans h) ?_
  unfold ResetSound at hsound ⊢
  rw [hphase] at hsound
  cases scope with
  | family familyId => simp
  | user userId =>
    cases hreq : txn.request with
    | resetPassword token newPassword =>
      rw [hreq] at hsound
      obtain ⟨⟨record, hrecord, hrest⟩, huser, hspends, hcovered⟩ := hsound
      rw [← hreq] at hcovered
      have hvisited := hcovered.visit hphase (hmissed userId remaining hphase) h
      rw [hreq] at hvisited
      simp only [husers, hresets]
      exact ⟨⟨record, by rw [hresets, hrecord], hrest⟩, huser, hspends, hvisited⟩
    | _ => simp

end

end IotSaas.Auth
