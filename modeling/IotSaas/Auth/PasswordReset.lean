import IotSaas.Auth.ResetLocks

/-!
# `Auth/PasswordReset.lean` — a reset signs out everywhere

After a reset no session is to go on but those begun with the new password (`SignedOut`), and a link
is to set a password once (`Single`).

The reset revokes what it finds. A rotation or a login that is in flight meanwhile puts its token
where the UPDATE does not look, and two resets with one link both find it unused before either has
marked it. `reset_broken` has a run for each. `reset_kept` says when that is all: both hold while a
rotation's UPDATE finds the token as it was read, a reset's comes to no row that was rotated after it
had started, a login commits with a password that is still right and that no reset is about to
replace, and a reset begins to write only while its link is unused.
-/

set_option autoImplicit false

namespace IotSaas.Auth

open Lib Rules AuthState

/-! ## What is to hold -/

/-- Once everything that began before a reset has ended, a session of the user that is not revoked
was begun with the password the reset has set, or with that of a later one. -/
def SignedOut (s : AuthState) : Prop :=
  ∀ newer change older, s.changes = newer ++ change :: older →
    (∀ t txn, s.inflight.get t = some txn → older.length < txn.began) →
    ∀ k row, s.tokens.committed.get k = some row → row.userId = change.userId →
      row.revokedAt = none → s.now ≤ row.expiresAt →
      ∃ change' ∈ newer ++ [change], change'.userId = change.userId ∧
        s.origin.get k = some change'.password

/-- A link has changed a password once at most. -/
def Single (s : AuthState) : Prop := (s.changes.map Change.token).Nodup

/-- A reset comes to a token that was rotated after it had started. -/
def missesSession (s : AuthState) : AuthEvent → Bool
  | .visit t tokenId => (s.inflight.get t).any fun txn =>
      match txn.phase with
      | .revoking (.user userId) _ => missed s (.user userId) txn.request tokenId
      | _ => false
  | _ => false

section

variable (P : Hasher)

/-- The user's row is being written by a reset that is revoking, and sets another password. -/
def beingReset (s : AuthState) (userId : Uuid) (password : String) : Bool :=
  (s.users.pending.get userId).any fun lock => (s.inflight.get lock.1).any fun other =>
    match other.phase, other.request with
    | .revoking (.user _) _, .resetPassword _ newPassword => decide (newPassword ≠ password)
    | _, _ => false

/-- A login commits with a password that is not the user's any more, or is about not to be. -/
def staleLogin (s : AuthState) : AuthEvent → Bool
  | .commit t => (s.inflight.get t).any fun txn =>
      match txn.phase, txn.request with
      | .written (some k), .login _ password => (s.tokens.view t k).any fun row =>
          !((s.users.committed.get row.userId).any fun user =>
            P.verify password user.passwordHash) || beingReset s row.userId password
      | _, _ => false
  | _ => false

/-- A reset begins to write although its link has been used. -/
def spentLink (s : AuthState) : AuthEvent → Bool
  | .statement t _ => (s.inflight.get t).any fun txn =>
      match txn.phase, txn.request with
      | .flushing _ false false, .resetPassword token _ =>
          (s.resets.committed.get (P.sha256 token)).any fun record => record.usedAt.isSome
      | _, _ => false
  | _ => false

/-- No request acts on what has changed since it read it. -/
abbrev Undisturbed (s : AuthState) (e : AuthEvent) : Prop :=
  (lateRotation s e || missesSession s e || staleLogin P s e || spentLink P s e) = false

end

/-! ## Commits -/

section

variable {P : Hasher} {s s' : AuthState} {t u : TxnId} {txn : Txn} {userId k : Uuid}

/-- The last password that was set for a user. -/
def lastChange (s : AuthState) (userId : Uuid) : Option Change :=
  s.changes.find? fun change => change.userId = userId

structure Current (P : Hasher) (s : AuthState) : Prop where
  own : ∀ t, Own s t
  reset : ∀ t, Resetting P s t
  /-- The hash in the user's row is that of the last password set. -/
  hashed : ∀ userId change, lastChange s userId = some change →
    ∃ user salt, s.users.committed.get userId = some user ∧
      user.passwordHash = P.hash change.password salt
  /-- A session of the user was begun with it. -/
  begun : ∀ k row change, s.tokens.committed.get k = some row → row.revokedAt = none →
    lastChange s row.userId = some change → s.origin.get k = some change.password
  spent : ∀ change ∈ s.changes, ∃ record,
    s.resets.committed.get (P.sha256 change.token) = some record ∧ record.usedAt ≠ none
  single : (s.changes.map fun change => P.sha256 change.token).Nodup

/-- At its end only a reset has locks on a user or a link. -/
theorem Phase.revoking_of_done {phase : Phase} (hdone : phase.done = true)
    (h : (∃ userId, phase.holdsUser = some userId) ∨ phase.holdsLink = true) :
    ∃ userId remaining, phase = .revoking (.user userId) remaining := by
  cases phase with
  | revoking scope remaining =>
    cases scope with
    | user userId => exact ⟨userId, remaining, rfl⟩
    | family familyId => rcases h with ⟨_, h⟩ | h <;> cases h
  | written issued => rcases h with ⟨_, h⟩ | h <;> cases h
  | _ => cases hdone

/-- The commit of `t` is a reset's. -/
structure Resets (txn : Txn) (userId : Uuid) (token newPassword : String) : Prop where
  phase : txn.phase = .revoking (.user userId) []
  request : txn.request = .resetPassword token newPassword

theorem resets_of_holds {token newPassword : String} (hdone : txn.phase.done = true)
    (hreq : txn.request = .resetPassword token newPassword)
    (h : (∃ userId, txn.phase.holdsUser = some userId) ∨ txn.phase.holdsLink = true) :
    ∃ userId, Resets txn userId token newPassword := by
  obtain ⟨userId, remaining, hphase⟩ := Phase.revoking_of_done hdone h
  rw [hphase] at hdone
  obtain rfl : remaining = [] := List.isEmpty_iff.mp hdone
  exact ⟨userId, hphase, hreq⟩

theorem commit_changes_of_resets {token newPassword : String}
    (h : Resets txn userId token newPassword) :
    (commit s t txn).changes = ⟨userId, newPassword, token⟩ :: s.changes := by
  unfold commit
  rw [h.phase, h.request]

theorem commit_changes (hdone : txn.phase.done = true)
    (hnot : ∀ userId token newPassword, ¬Resets txn userId token newPassword) :
    (commit s t txn).changes = s.changes := by
  unfold commit
  dsimp only
  split
  · rename_i userId remaining token newPassword hphase hreq
    rw [hphase] at hdone
    obtain rfl : remaining = [] := List.isEmpty_iff.mp hdone
    exact absurd ⟨hphase, hreq⟩ (hnot userId token newPassword)
  · rfl

/-- A commit writes the row of a user if it is the reset of that user, and no other. -/
theorem commit_user (userId : Uuid) (hreset : Resetting P s t) (htxn : s.inflight.get t = some txn)
    (hdone : txn.phase.done = true) :
    (commit s t txn).users.committed.get userId = s.users.committed.get userId ∨
      ∃ token newPassword user salt, Resets txn userId token newPassword ∧
        (commit s t txn).users.committed.get userId = some user ∧
        user.passwordHash = P.hash newPassword salt := by
  by_cases hlock : ∃ version, s.users.pending.get userId = some (t, version)
  · obtain ⟨version, hlock⟩ := hlock
    obtain ⟨txn', token, newPassword, user, salt, htxn', hreq, hholds, rfl, hhash⟩ :=
      hreset.userLocks userId version hlock
    rw [htxn] at htxn'
    cases htxn'
    obtain ⟨userId', hresets⟩ := resets_of_holds hdone hreq (.inl ⟨userId, hholds⟩)
    rw [hresets.phase] at hholds
    obtain rfl := Option.some.inj hholds
    exact .inr ⟨token, newPassword, user, salt, hresets, Table.view_of_pending hlock, hhash⟩
  · exact .inl (Table.commit_of_not_pending fun version h => hlock ⟨version, h⟩)

/-- A commit writes a link if it is the reset from that link, and marks it used. -/
theorem commit_link {key : String} {record : PasswordResetToken} (hreset : Resetting P s t)
    (htxn : s.inflight.get t = some txn) (hdone : txn.phase.done = true)
    (hrecord : s.resets.committed.get key = some record) :
    (commit s t txn).resets.committed.get key = some record ∨
      ∃ userId token newPassword time, Resets txn userId token newPassword ∧
        key = P.sha256 token ∧ (∃ version, s.resets.pending.get key = some (t, version)) ∧
        (commit s t txn).resets.committed.get key = some { record with usedAt := some time } := by
  by_cases hlock : ∃ version, s.resets.pending.get key = some (t, version)
  · obtain ⟨version, hlock⟩ := hlock
    obtain ⟨txn', token, newPassword, before, time, htxn', hreq, hholds, hkey, hbefore, rfl⟩ :=
      hreset.linkLocks key version hlock
    rw [htxn] at htxn'
    cases htxn'
    rw [hrecord] at hbefore
    cases hbefore
    obtain ⟨userId', hresets⟩ := resets_of_holds hdone hreq (.inr hholds)
    exact .inr ⟨userId', token, newPassword, time, hresets, hkey, ⟨_, hlock⟩,
      Table.view_of_pending hlock⟩
  · refine .inl ?_
    rw [← hrecord]
    exact Table.commit_of_not_pending fun version h => hlock ⟨version, h⟩

/-- **What a commit does to another reset.** The link of a reset that has begun to write is safe: who
would spend it needs both its locks. -/
theorem commit_resetting (hcurrent : Current P s) (hu : u ≠ t)
    (htxn : s.inflight.get t = some txn) (hdone : txn.phase.done = true)
    (hstale : ∀ email password k row, txn.request = .login email password →
      txn.phase = .written (some k) → Issued s t k row →
      beingReset s row.userId password = false) : Resetting P (commit s t txn) u := by
  have hreset := hcurrent.reset u
  have hresett := hcurrent.reset t
  have hinflight : (commit s t txn).inflight.get u = s.inflight.get u := Dict.get_erase_ne _ hu
  have hlink : ∀ key userId, LinkOf s key userId false →
      LinkOf (commit s t txn) key userId false := by
    rintro key userId ⟨record, hrecord, huser, _⟩
    rcases commit_link hresett htxn hdone hrecord with hsame | ⟨_, _, _, time, _, _, _, hused⟩
    · exact ⟨record, hsame, huser, fun h => by cases h⟩
    · exact ⟨_, hused, huser, fun h => by cases h⟩
  refine ⟨fun userId version hlock => ?_, fun key version hlock => ?_, fun other hother => ?_⟩
  · obtain ⟨hlock, _⟩ := Table.commit_pending.mp hlock
    obtain ⟨txn', token, newPassword, user, salt, htxn', hrest⟩ := hreset.userLocks userId version hlock
    exact ⟨txn', token, newPassword, user, salt, by rw [hinflight, htxn'], hrest⟩
  · obtain ⟨hlock, _⟩ := Table.commit_pending.mp hlock
    obtain ⟨txn', token, newPassword, before, time, htxn', hreq, hholds, hkey, hbefore, hversion⟩ :=
      hreset.linkLocks key version hlock
    refine ⟨txn', token, newPassword, before, time, by rw [hinflight, htxn'], hreq, hholds, hkey, ?_,
      hversion⟩
    rw [← hbefore]
    exact Table.view_of_pending_ne hlock hu
  · rw [hinflight] at hother
    refine (hreset.sound other hother).congr hlink ?_ ?_ ?_ ?_
    · rintro key userId ⟨record, hrecord, huser, hunused⟩ hlocked
      rcases commit_link hresett htxn hdone hrecord with
        hsame | ⟨userId', token, newPassword, _, hresets, hkey, ⟨version, hlock⟩, _⟩
      · exact ⟨record, hsame, huser, hunused⟩
      · -- the reset that commits has the locks on the link and on its user
        exfalso
        have hsound := hresett.sound txn htxn
        unfold ResetSound at hsound
        rw [hresets.phase, hresets.request] at hsound
        obtain ⟨⟨record', hrecord', huser', _⟩, ⟨version', hlock'⟩, _⟩ := hsound
        rw [← hkey, hrecord] at hrecord'
        cases hrecord'
        rcases hlocked with ⟨version'', hlock''⟩ | ⟨version'', hlock''⟩
        · rw [← huser, huser', hlock'] at hlock''
          cases hlock''
          exact hu rfl
        · rw [hlock] at hlock''
          cases hlock''
          exact hu rfl
    · rintro userId ⟨version, hlock⟩
      exact ⟨version, Table.commit_pending.mpr ⟨hlock, hu⟩⟩
    · rintro key ⟨version, hlock⟩
      exact ⟨version, Table.commit_pending.mpr ⟨hlock, hu⟩⟩
    · rintro userId remaining token newPassword hphase hreq ⟨version, hlock⟩ hcovered
      refine hcovered.commit (hcurrent.own t) htxn hu fun email password k row hlogin hwritten
        hissued hqualifies => ?_
      have hnot := hstale email password k row hlogin hwritten hissued
      have howner : row.userId = userId := by
        simp only [Scope.qualifies, Scope.covers, Bool.and_eq_true, decide_eq_true_eq] at hqualifies
        exact hqualifies.1
      have hsame : newPassword = password := by
        by_contra hne
        simp [beingReset, howner, hlock, hother, hphase, hreq, hne] at hnot
      have horigin := (hcurrent.own t).sound txn htxn
      unfold Sound at horigin
      rw [hwritten, hlogin] at horigin
      unfold exempt
      rw [hreq]
      simp only [decide_eq_true_eq]
      rw [horigin.2, hsame]

/-- What is committed and unrevoked was so before, or is a rotation of such a token of the same user,
or a login's. -/
theorem origin_of_commit {row : RefreshToken} {change : Change} (hcurrent : Current P s)
    (htxn : s.inflight.get t = some txn)
    (hstale : ∀ email password k row, txn.request = .login email password →
      txn.phase = .written (some k) → Issued s t k row →
      ∃ user, s.users.committed.get row.userId = some user ∧
        P.verify password user.passwordHash = true)
    (hrow : (commit s t txn).tokens.committed.get k = some row) (hlive : row.revokedAt = none)
    (hchange : lastChange s row.userId = some change) :
    s.origin.get k = some change.password := by
  have hown := hcurrent.own t
  rcases unrevoked_of_commit hown htxn hrow hlive with ⟨hbefore, _⟩ | ⟨hphase, hissued⟩
  · exact hcurrent.begun k row change hbefore hlive hchange
  · have hsound := hown.sound txn htxn
    unfold Sound at hsound
    rw [hphase] at hsound
    cases hreq : txn.request with
    | login email password =>
      rw [hreq] at hsound
      obtain ⟨user, huser, hverify⟩ := hstale email password k row hreq hphase hissued
      obtain ⟨user', salt, huser', hhash⟩ := hcurrent.hashed row.userId change hchange
      rw [huser] at huser'
      cases huser'
      rw [hhash, P.verify_hash, decide_eq_true_eq] at hverify
      rw [hsound.2, hverify]
    | refresh k' secret =>
      rw [hreq] at hsound
      obtain ⟨row', new, hheld, hissued', huser, _, horigin⟩ := hsound
      have hsame := hissued'.2.1
      rw [hissued.2.1] at hsame
      cases hsame
      rw [huser] at hchange
      have hfrom := hcurrent.begun k' row' change hheld.1 hheld.2.1 hchange
      rw [horigin, Dict.getD_of_get hfrom]
    | _ =>
      rw [hreq] at hsound
      exact hsound.elim

/-- **A commit keeps what is current**, if it is not a stale login's. -/
theorem commit_current (hcurrent : Current P s) (htxn : s.inflight.get t = some txn)
    (hdone : txn.phase.done = true)
    (hstale : ∀ email password k row, txn.request = .login email password →
      txn.phase = .written (some k) → Issued s t k row →
      (∃ user, s.users.committed.get row.userId = some user ∧
        P.verify password user.passwordHash = true) ∧ beingReset s row.userId password = false) :
    Current P (commit s t txn) := by
  have hown := hcurrent.own t
  have hreset := hcurrent.reset t
  have horigin := @origin_of_commit P s t txn
  have hresetting : ∀ u, Resetting P (commit s t txn) u := by
    intro u
    by_cases hu : u = t
    · subst hu
      refine ⟨fun userId version hlock => absurd rfl (Table.commit_pending.mp hlock).2,
        fun key version hlock => absurd rfl (Table.commit_pending.mp hlock).2,
        fun txn' htxn' => ?_⟩
      rw [show (commit s u txn).inflight.get u = none from Dict.get_erase_self _ _] at htxn'
      cases htxn'
    · exact commit_resetting hcurrent hu htxn hdone fun email password k row hreq hphase hissued =>
        (hstale email password k row hreq hphase hissued).2
  by_cases hresets : ∃ userId token newPassword, Resets txn userId token newPassword
  · obtain ⟨userId, token, newPassword, hresets⟩ := hresets
    have hchanges := commit_changes_of_resets (s := s) (t := t) hresets
    have hsound := hreset.sound txn htxn
    unfold ResetSound at hsound
    rw [hresets.phase, hresets.request] at hsound
    obtain ⟨⟨record, hrecord, howner, hunused⟩, ⟨userVersion, huserLock⟩, ⟨version, hlock⟩,
      hcovered⟩ := hsound
    refine ⟨commit_own hown hcurrent.own, hresetting, fun userId' change hchange => ?_,
      fun k row change hrow hlive hchange => ?_, fun change hmem => ?_, ?_⟩
    · unfold lastChange at hchange
      rw [hchanges, List.find?_cons] at hchange
      by_cases hsame : userId = userId'
      · subst hsame
        simp only [decide_true, Option.some.injEq] at hchange
        subst hchange
        obtain ⟨txn', _, _, user, salt, htxn', hreq', _, rfl, hhash⟩ :=
          hreset.userLocks userId userVersion huserLock
        rw [htxn] at htxn'
        cases htxn'
        rw [hresets.request] at hreq'
        cases hreq'
        exact ⟨user, salt, Table.view_of_pending huserLock, hhash⟩
      · simp only [hsame, decide_false] at hchange
        obtain ⟨user, salt, huser, hhash⟩ := hcurrent.hashed userId' change hchange
        rcases commit_user userId' hreset htxn hdone with
          hkeep | ⟨_, _, _, _, hresets', _⟩
        · exact ⟨user, salt, hkeep.trans huser, hhash⟩
        · have hphase := hresets'.phase
          rw [hresets.phase] at hphase
          cases hphase
          exact absurd rfl hsame
    · unfold lastChange at hchange
      rw [hchanges, List.find?_cons] at hchange
      by_cases hsame : userId = row.userId
      · simp only [hsame, decide_true, Option.some.injEq] at hchange
        subst hchange
        rw [← hresets.request] at hcovered
        have hexempt := hcovered.done hown htxn hresets.phase hrow
          (by simp [Scope.qualifies, Scope.covers, hsame, hlive])
        unfold exempt at hexempt
        rw [hresets.request] at hexempt
        exact of_decide_eq_true hexempt
      · simp only [hsame, decide_false] at hchange
        exact horigin hcurrent htxn (fun email password k row hreq hphase hissued =>
          (hstale email password k row hreq hphase hissued).1) hrow hlive hchange
    · rw [hchanges] at hmem
      rcases List.mem_cons.mp hmem with rfl | hmem
      · obtain ⟨txn', _, _, before, time, _, _, _, _, hbefore, rfl⟩ :=
          hreset.linkLocks (P.sha256 token) version hlock
        exact ⟨_, Table.view_of_pending hlock, by simp⟩
      · obtain ⟨record', hrecord', hused⟩ := hcurrent.spent change hmem
        rcases commit_link hreset htxn hdone hrecord' with hsame | ⟨_, _, _, time, _, _, _, hafter⟩
        · exact ⟨record', hsame, hused⟩
        · exact ⟨_, hafter, by simp⟩
    · rw [hchanges, List.map_cons]
      refine List.nodup_cons.mpr ⟨fun hmem => ?_, hcurrent.single⟩
      -- the link was unused until now
      obtain ⟨change, hchange, hkey⟩ := List.mem_map.mp hmem
      obtain ⟨record', hrecord', hused⟩ := hcurrent.spent change hchange
      rw [hkey, hrecord] at hrecord'
      cases hrecord'
      exact hused (hunused rfl)
  · have hnot : ∀ userId token newPassword, ¬Resets txn userId token newPassword :=
      fun userId token newPassword h => hresets ⟨userId, token, newPassword, h⟩
    have hchanges := commit_changes (s := s) (t := t) hdone hnot
    have hlast : ∀ userId, lastChange (commit s t txn) userId = lastChange s userId := by
      intro userId
      unfold lastChange
      rw [hchanges]
    refine ⟨commit_own hown hcurrent.own, hresetting, fun userId' change hchange => ?_,
      fun k row change hrow hlive hchange => ?_, fun change hmem => ?_, ?_⟩
    · rw [hlast] at hchange
      rcases commit_user userId' hreset htxn hdone with
        hkeep | ⟨_, _, _, _, hresets', _⟩
      · rw [hkeep]
        exact hcurrent.hashed userId' change hchange
      · exact absurd hresets' (hnot _ _ _)
    · rw [hlast] at hchange
      exact horigin hcurrent htxn (fun email password k row hreq hphase hissued =>
        (hstale email password k row hreq hphase hissued).1) hrow hlive hchange
    · rw [hchanges] at hmem
      obtain ⟨record', hrecord', hused⟩ := hcurrent.spent change hmem
      rcases commit_link hreset htxn hdone hrecord' with hsame | ⟨_, _, _, _, hresets', _⟩
      · exact ⟨record', hsame, hused⟩
      · exact absurd hresets' (hnot _ _ _)
    · rw [hchanges]
      exact hcurrent.single

/-- What a statement is to do, for the resets to be kept. -/
structure ResetFit (P : Hasher) (t : TxnId) (s s' : AuthState) : Prop where
  alone : Local t s s'
  own : Own s' t
  resetting : Resetting P s' t

theorem Current.of_fit (hcurrent : Current P s) (h : ResetFit P t s s') : Current P s' where
  own := by
    intro u
    by_cases hu : u = t
    · rw [hu]
      exact h.own
    · exact h.alone.own hu (hcurrent.own u)
  reset := by
    intro u
    by_cases hu : u = t
    · rw [hu]
      exact h.resetting
    · exact h.alone.resetting hu (hcurrent.reset u)
  hashed := by
    unfold lastChange
    rw [h.alone.users.committed, h.alone.changes]
    exact hcurrent.hashed
  begun := by
    intro k row change hrow hlive hchange
    unfold lastChange at hchange
    rw [h.alone.tokens.committed] at hrow
    rw [h.alone.changes] at hchange
    rw [h.alone.origin k (mem_keys_of_committed hrow)]
    exact hcurrent.begun k row change hrow hlive hchange
  spent := by
    rw [h.alone.changes, h.alone.resets.committed]
    exact hcurrent.spent
  single := by
    rw [h.alone.changes]
    exact hcurrent.single

/-- **One step**, one case for each kind. -/
theorem current_step {e : AuthEvent} (hcurrent : Current P s) (hok : Undisturbed P s e)
    (h : authStep P s e = some s') : Current P s' := by
  simp only [Undisturbed, Bool.or_eq_false_iff] at hok
  obtain ⟨⟨⟨hlate, hmisses⟩, hstale⟩, hspent⟩ := hok
  have hown := own_step hcurrent.own hlate h
  cases e with
  | begin t request =>
    unfold authStep at h
    dsimp only at h
    cases htxn : s.inflight.get t with
    | some txn => simp [htxn] at h
    | none =>
      rw [htxn] at h
      cases h
      have hreset := hcurrent.reset t
      -- A transaction that begins holds no lock.
      have hlocal : Local t s (s.goOn t ⟨request, .begun, s.now, s.changes.length⟩ .begun) :=
        goOn_local
      refine hcurrent.of_fit (t := t)
        ⟨hlocal, hown t,
          ⟨fun userId version hlock => ?_, fun key version hlock => ?_, fun txn htxn' => ?_⟩⟩
      · obtain ⟨txn, _, _, _, _, hsome, _⟩ := hreset.userLocks userId version hlock
        rw [htxn] at hsome
        cases hsome
      · obtain ⟨txn, _, _, _, _, hsome, _⟩ := hreset.linkLocks key version hlock
        rw [htxn] at hsome
        cases hsome
      · rw [Dict.get_set_self] at htxn'
        cases htxn'
        unfold ResetSound
        simp
  | statement t drawn =>
    unfold authStep at h
    obtain ⟨txn, htxn, h⟩ := Option.bind_eq_some_iff.mp h
    have heffect := statement_effect h
    refine hcurrent.of_fit ⟨heffect.local, hown t, heffect.resetting (hcurrent.reset t) htxn ?_⟩
    intro userId token newPassword hphase hreq record hrecord
    simpa [spentLink, htxn, hphase, hreq, hrecord] using hspent
  | visit t k =>
    unfold authStep at h
    obtain ⟨txn, htxn, h⟩ := Option.bind_eq_some_iff.mp h
    refine hcurrent.of_fit ⟨visit_local h, hown t,
      visit_resetting h (hcurrent.reset t) htxn fun userId remaining hphase => ?_⟩
    simpa [missesSession, htxn, hphase] using hmisses
  | commit t =>
    unfold authStep at h
    obtain ⟨txn, htxn, h⟩ := Option.bind_eq_some_iff.mp h
    split at h
    · rename_i hdone
      cases h
      -- By hypothesis a login that commits has checked the password the user still has.
      refine commit_current hcurrent htxn hdone fun email password k row hreq hphase hissued => ?_
      have hview : s.tokens.view t k = some row := Table.view_of_pending hissued.2.1
      simp only [staleLogin, htxn, hphase, hreq, hview, Option.any_some, Bool.or_eq_false_iff,
        Bool.not_eq_false'] at hstale
      obtain ⟨user, huser, hverify⟩ := Option.any_eq_true _ _ |>.mp hstale.1
      exact ⟨⟨user, huser, hverify⟩, hstale.2⟩
    · cases h
  | fail t =>
    unfold authStep at h
    obtain ⟨txn, htxn, rfl⟩ := Option.map_eq_some_iff.mp h
    exact hcurrent.of_fit ⟨rollback_local, hown t, .of_rollback⟩
  | tick seconds =>
    cases h
    exact ⟨hown, fun t => ⟨(hcurrent.reset t).userLocks, (hcurrent.reset t).linkLocks,
      (hcurrent.reset t).sound⟩, hcurrent.hashed, hcurrent.begun, hcurrent.spent, hcurrent.single⟩

/-- The last change of a user is not older than any other. -/
theorem lastChange_mem {newer older : List Change} {change : Change}
    (h : s.changes = newer ++ change :: older) :
    ∃ change' ∈ newer ++ [change], change'.userId = change.userId ∧
      lastChange s change.userId = some change' := by
  have hsplit : s.changes = (newer ++ [change]) ++ older := by simp [h]
  unfold lastChange
  rw [hsplit, List.find?_append]
  obtain ⟨change', hfind⟩ : ∃ change',
      (newer ++ [change]).find? (fun c => c.userId = change.userId) = some change' := by
    rw [← Option.isSome_iff_exists, List.find?_isSome]
    exact ⟨change, by simp, by simp⟩
  have huser := List.find?_some hfind
  refine ⟨change', List.mem_of_find?_eq_some hfind, of_decide_eq_true huser, ?_⟩
  rw [hfind, Option.some_or]

end

/-- **A reset signs out everywhere, and its link works once**, whatever interleaves, while no request
acts on what has changed under it. -/
theorem reset_kept (P : Hasher) (users : List (Uuid × User))
    (resets : List (String × PasswordResetToken)) {s : AuthState}
    (h : Reaches (authStep P) (Undisturbed P) (start users resets) s) : SignedOut s ∧ Single s := by
  have hstart : Current P (start users resets) :=
    { own := fun t => ⟨fun k version hlock => (by cases hlock), fun txn htxn => (by cases htxn)⟩
      reset := fun t => ⟨fun userId version hlock => (by cases hlock),
        fun key version hlock => (by cases hlock), fun txn htxn => (by cases htxn)⟩
      hashed := fun userId change hchange => (by cases hchange)
      begun := fun k row change hrow => (by cases hrow)
      spent := fun change hmem => (by cases hmem)
      single := List.nodup_nil }
  have hcurrent : Current P s :=
    h.invariant hstart fun _ _ _ ih ok hstep => current_step ih ok hstep
  constructor
  · intro newer change older hchanges _ k row hrow huser hlive _
    obtain ⟨change', hmem, huser', hlast⟩ := lastChange_mem hchanges
    rw [← huser] at hlast
    exact ⟨change', hmem, huser', hcurrent.begun k row change' hrow hlive hlast⟩
  · have hsingle : ((s.changes.map Change.token).map P.sha256).Nodup := by
      rw [List.map_map]
      exact hcurrent.single
    exact .of_map P.sha256 hsingle

/-! ## A password that is known to somebody else -/

def bob : List (Uuid × User) := [("bob", ⟨"bob@acme.io", "secret"⟩)]

def bobsLink : List (String × PasswordResetToken) := [("link", ⟨"bob", 1800, none⟩)]

/-- A login up to its commit. -/
def logsIn (t : TxnId) (password tokenId familyId : String) : List AuthEvent :=
  [.begin t (.login "bob@acme.io" password), .statement t {},
    .statement t { tokenId := tokenId, familyId := familyId, secret := tokenId }]

/-- A reset up to its bulk UPDATE. -/
def resetsTo (t : TxnId) (newPassword : String) : List AuthEvent :=
  [.begin t (.resetPassword "link" newPassword), .statement t {}, .statement t {}, .statement t {},
    .statement t {}, .statement t {}]

/-- A session, a reset, and a login after it. -/
def resetThenLogin : List AuthEvent :=
  logsIn 0 "secret" "t1" "f1" ++ [.commit 0] ++ resetsTo 1 "better" ++
    [.visit 1 "t1", .commit 1] ++ logsIn 2 "better" "t2" "f2" ++ [.commit 2]

/-- A login with the old password, in flight at the reset. -/
def loginInFlight : List AuthEvent :=
  logsIn 0 "secret" "t1" "f1" ++ resetsTo 1 "better" ++ [.commit 1, .commit 0]

/-- Two resets from one link, that both find it unused. -/
def twoResets : List AuthEvent :=
  [.begin 0 (.resetPassword "link" "mine"), .begin 1 (.resetPassword "link" "yours"),
    .statement 0 {}, .statement 1 {}, .statement 0 {}, .statement 0 {}, .statement 0 {},
    .statement 0 {}, .commit 0, .statement 1 {}, .statement 1 {}, .statement 1 {}, .statement 1 {},
    .commit 1]

/-- One after the other: the session of before is revoked. -/
theorem reset_kept_bob :
    ∃ s, run (guarded (authStep plainHasher) (Undisturbed plainHasher)) (start bob bobsLink)
      resetThenLogin = some s ∧ s.changes = [⟨"bob", "better", "link"⟩] ∧
      SignedOut s ∧ Single s := by
  obtain ⟨s, hs⟩ : ∃ s, run (guarded (authStep plainHasher) (Undisturbed plainHasher))
      (start bob bobsLink) resetThenLogin = some s :=
    Option.isSome_iff_exists.mp (by decide +kernel)
  have hchanges : (run (guarded (authStep plainHasher) (Undisturbed plainHasher))
      (start bob bobsLink) resetThenLogin).map AuthState.changes =
      some [⟨"bob", "better", "link"⟩] := by decide +kernel
  rw [hs] at hchanges
  exact ⟨s, hs, Option.some.inj hchanges,
    reset_kept plainHasher bob bobsLink (.of_run_guarded hs)⟩

/-- **The old password's session survives, and the link works twice.** -/
theorem reset_broken :
    (¬∀ P users resets s, Reaches (authStep P) Always (start users resets) s → SignedOut s) ∧
    ¬∀ P users resets s, Reaches (authStep P) Always (start users resets) s → Single s := by
  constructor
  · intro h
    have hrun : (run (authStep plainHasher) (start bob bobsLink) loginInFlight).map (fun s =>
        (s.changes, s.now, s.tokens.committed.get "t1", s.origin.get "t1")) =
        some ([⟨"bob", "better", "link"⟩], 0, some ⟨"bob", "t1", "f1", 30, none⟩, some "secret") := by
      decide +kernel
    obtain ⟨s, hs, hparts⟩ := Option.map_eq_some_iff.mp hrun
    simp only [Prod.mk.injEq] at hparts
    obtain ⟨hchanges, hnow, hrow, horigin⟩ := hparts
    have hidle : ∀ t, s.inflight.get t = none := by
      intro t
      by_cases ht : t = 0 ∨ t = 1
      · have hends : (run (authStep plainHasher) (start bob bobsLink) loginInFlight).map (fun s =>
            (s.inflight.get 0, s.inflight.get 1)) = some (none, none) := by decide +kernel
        rw [hs] at hends
        obtain ⟨h0, h1⟩ := Prod.mk.inj (Option.some.inj hends)
        rcases ht with rfl | rfl
        · exact h0
        · exact h1
      · refine inflight_of_run hs fun e he heq => ht ?_
        have htxns : ∀ e ∈ loginInFlight, e.txn = some 0 ∨ e.txn = some 1 := by decide
        rcases htxns e he with h0 | h1
        · rw [h0] at heq
          exact .inl (Option.some.inj heq).symm
        · rw [h1] at heq
          exact .inr (Option.some.inj heq).symm
    obtain ⟨change', hmem, _, hpassword⟩ := h plainHasher bob bobsLink s (.of_run hs) [] _ []
      hchanges (fun t txn htxn => by rw [hidle] at htxn; cases htxn) "t1" _ hrow rfl rfl
      (by simp [hnow])
    rw [horigin] at hpassword
    simp only [List.nil_append, List.mem_singleton] at hmem
    subst hmem
    simp at hpassword
  · intro h
    have hrun : (run (authStep plainHasher) (start bob bobsLink) twoResets).map AuthState.changes =
        some [⟨"bob", "yours", "link"⟩, ⟨"bob", "mine", "link"⟩] := by decide +kernel
    obtain ⟨s, hs, hchanges⟩ := Option.map_eq_some_iff.mp hrun
    have hsingle := h plainHasher bob bobsLink s (.of_run hs)
    unfold Single at hsingle
    rw [hchanges] at hsingle
    simp at hsingle

end IotSaas.Auth
