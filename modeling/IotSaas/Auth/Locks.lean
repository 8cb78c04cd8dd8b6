import IotSaas.Auth.Effects

/-!
# `Auth/Locks.lean` — what a request in flight may rely on

A transaction has locks on nothing but what it has revoked and what it has issued, and a rotation
that is past its UPDATE holds the lock on a token that is committed unrevoked (`Held`). The second
needs one thing that the code does not make sure of: that the UPDATE of a rotation finds the token as
its SELECT has read it (`lateRotation`).
-/

set_option autoImplicit false

namespace IotSaas.Auth

open Lib Rules AuthState

/-! ## What a transaction has locks on -/

/-- `version` is the row committed under `k`, revoked. -/
def Revokes (s : AuthState) (k : Uuid) (version : Option RefreshToken) : Prop :=
  ∃ row time, s.tokens.committed.get k = some row ∧
    version = some { row with revokedAt := some time }

/-- Past its UPDATE a rotation has the lock on a token that is committed unrevoked. -/
def Held (s : AuthState) (t : TxnId) (k : Uuid) (row : RefreshToken) : Prop :=
  s.tokens.committed.get k = some row ∧ row.revokedAt = none ∧
    ∃ version, s.tokens.pending.get k = some (t, version)

/-- A token that is issued when `t` commits. -/
def Issued (s : AuthState) (t : TxnId) (k : Uuid) (row : RefreshToken) : Prop :=
  s.tokens.committed.get k = none ∧ s.tokens.pending.get k = some (t, some row) ∧
    row.revokedAt = none

/-- What a transaction may rely on, in the phase it is in. -/
def Sound (s : AuthState) (t : TxnId) (txn : Txn) : Prop :=
  match txn.phase, txn.request with
  | .presented row, .refresh k _ =>
      row.revokedAt = none ∧ ∃ time, s.tokens.committed.get k = some { row with revokedAt := time }
  | .rotated row, .refresh k _ => Held s t k row
  | .written (some k'), .refresh k _ =>
      ∃ row new, Held s t k row ∧ Issued s t k' new ∧ new.userId = row.userId ∧
        new.familyId = row.familyId ∧ s.origin.get k' = some (s.origin.getD k "")
  | .written (some k'), .login _ password =>
      (∃ new, Issued s t k' new) ∧ s.origin.get k' = some password
  | .written (some _), _ => False
  | _, _ => True

structure Own (s : AuthState) (t : TxnId) : Prop where
  locks : ∀ k version, s.tokens.pending.get k = some (t, version) →
    ∃ txn, s.inflight.get t = some txn ∧
      (Revokes s k version ∨ txn.phase = .written (some k))
  sound : ∀ txn, s.inflight.get t = some txn → Sound s t txn

/-- The UPDATE of a rotation comes to a token that is not as its SELECT has read it. -/
def lateRotation (s : AuthState) : AuthEvent → Bool
  | .statement t _ => (s.inflight.get t).any fun txn =>
      match txn.phase, txn.request with
      | .presented _, .refresh tokenId _ =>
          (s.tokens.committed.get tokenId).any fun row => row.revokedAt.isSome
      | _, _ => false
  | _ => false

section

variable {P : Hasher} {s s' : AuthState} {t u : TxnId} {txn : Txn} {phase : Phase} {k : Uuid}

variable {row : RefreshToken}

/-- Until it has issued a token, what a transaction sees of a row is the committed one, revoked or
not. -/
theorem Own.view (hown : Own s t) (htxn : s.inflight.get t = some txn)
    (hphase : txn.phase ≠ .written (some k)) (hrow : s.tokens.view t k = some row) :
    ∃ before time, s.tokens.committed.get k = some before ∧
      row = { before with revokedAt := time } := by
  by_cases hlock : ∃ version, s.tokens.pending.get k = some (t, version)
  · obtain ⟨version, hlock⟩ := hlock
    obtain ⟨txn', htxn', hrevokes | hwritten⟩ := hown.locks k version hlock
    · obtain ⟨before, time, hbefore, rfl⟩ := hrevokes
      rw [Table.view_of_pending hlock] at hrow
      exact ⟨before, some time, hbefore, (Option.some.inj hrow).symm⟩
    · rw [htxn] at htxn'
      cases htxn'
      exact absurd hwritten hphase
  · rw [Table.view_eq_committed fun version h => hlock ⟨version, h⟩] at hrow
    exact ⟨row, row.revokedAt, hrow, rfl⟩

theorem Own.of_rollback : Own (s.rollback t) t where
  locks := fun _ _ hlock => absurd rfl (Table.abort_pending.mp hlock).2
  sound := by
    intro txn htxn
    rw [rollback_inflight] at htxn
    cases htxn

/-- With the tokens as they are, the next phase needs only its own soundness. -/
theorem Own.goOn {next : Txn} (hown : Own s t) (htxn : s.inflight.get t = some txn)
    (hphase : ∀ k, txn.phase ≠ .written (some k)) (htokens : s'.tokens = s.tokens)
    (hnext : s'.inflight.get t = some next) (hsound : Sound s' t next) : Own s' t where
  locks := by
    intro k version hlock
    rw [htokens] at hlock
    obtain ⟨txn', htxn', hrevokes | hwritten⟩ := hown.locks k version hlock
    · refine ⟨next, hnext, .inl ?_⟩
      unfold Revokes
      rw [htokens]
      exact hrevokes
    · rw [htxn] at htxn'
      cases htxn'
      exact absurd hwritten (hphase k)
  sound := by
    intro txn' htxn'
    rw [hnext] at htxn'
    cases htxn'
    exact hsound

theorem Own.revokeRow {current : RefreshToken} (hown : Own s t)
    (htxn : s.inflight.get t = some txn) (hphase : ∀ k, txn.phase ≠ .written (some k))
    (hrow : s.tokens.view t k = some current)
    (hsound : Sound (s.revokeRow t txn k current phase) t { txn with phase := phase }) :
    Own (s.revokeRow t txn k current phase) t where
  locks := by
    intro k' version hlock
    refine ⟨_, revokeRow_inflight, .inl ?_⟩
    by_cases hk : k' = k
    · subst hk
      rw [revokeRow_pending] at hlock
      cases hlock
      obtain ⟨before, time, hbefore, rfl⟩ := hown.view htxn (hphase k') hrow
      exact ⟨before, txn.now, hbefore, rfl⟩
    · rw [show (s.revokeRow t txn k current phase).tokens.pending.get k' =
        s.tokens.pending.get k' from Table.write_pending_ne hk] at hlock
      obtain ⟨txn', htxn', hrevokes | hwritten⟩ := hown.locks k' version hlock
      · exact hrevokes
      · rw [htxn] at htxn'
        cases htxn'
        exact absurd hwritten (hphase k')
  sound := by
    intro txn' htxn'
    rw [revokeRow_inflight] at htxn'
    cases htxn'
    exact hsound

theorem Own.insertRow {new : RefreshToken} {password : String} (hown : Own s t)
    (htxn : s.inflight.get t = some txn) (hphase : ∀ k, txn.phase ≠ .written (some k))
    (hsound : Sound (s.insertRow t txn k new password) t { txn with phase := .written (some k) }) :
    Own (s.insertRow t txn k new password) t where
  locks := by
    intro k' version hlock
    refine ⟨_, insertRow_inflight, ?_⟩
    by_cases hk : k' = k
    · exact .inr (by rw [hk])
    · rw [show (s.insertRow t txn k new password).tokens.pending.get k' =
        s.tokens.pending.get k' from Table.write_pending_ne hk] at hlock
      obtain ⟨txn', htxn', hrevokes | hwritten⟩ := hown.locks k' version hlock
      · exact .inl hrevokes
      · rw [htxn] at htxn'
        cases htxn'
        exact absurd hwritten (hphase k')
  sound := by
    intro txn' htxn'
    rw [insertRow_inflight] at htxn'
    cases htxn'
    exact hsound

theorem issued_of_fresh {new : RefreshToken} {password : String} (hfresh : k ∉ s.tokens.keys)
    (hlive : new.revokedAt = none) : Issued (s.insertRow t txn k new password) t k new := by
  refine ⟨?_, insertRow_pending, hlive⟩
  by_contra hsome
  exact hfresh (s.tokens.known k (.inl hsome))

/-- A row that is committed has been written before. -/
theorem mem_keys_of_committed (h : s.tokens.committed.get k = some row) :
    k ∈ s.tokens.keys :=
  s.tokens.known k (.inl (by rw [h]; exact Option.some_ne_none _))

/-- **What a statement does to its own transaction.** -/
theorem Effect.own (h : Effect P s t txn s') (hown : Own s t) (htxn : s.inflight.get t = some txn)
    (hphase : ∀ k, txn.phase ≠ .written (some k))
    (hlate : ∀ row k secret, txn.phase = .presented row → txn.request = .refresh k secret →
      ∀ row, s.tokens.committed.get k = some row → row.revokedAt = none) : Own s' t := by
  have hsound := hown.sound txn htxn
  unfold Sound at hsound
  cases h with
  | rollback => exact Own.of_rollback
  | @presented k row now hread hreq hrow hlive =>
    refine hown.goOn htxn hphase rfl (Dict.get_set_self _ _ _) ?_
    cases hcase : txn.request with
    | refresh k' secret =>
      rw [hcase] at hreq
      obtain rfl := Option.some.inj hreq
      obtain ⟨before, time, hbefore, rfl⟩ := hown.view htxn (hphase k') hrow
      unfold Sound
      simp only
      exact ⟨hlive, before.revokedAt, hbefore⟩
    | _ =>
      unfold Sound
      simp only
  | @revoked k secret row current hread hreq hfree hrow =>
    rw [hread, hreq] at hsound
    obtain ⟨hlive, time, hcommitted⟩ := hsound
    have hnone : time = none := hlate row k secret hread hreq _ hcommitted
    have hsame : ({ row with revokedAt := time } : RefreshToken) = row := by
      rw [hnone, ← hlive]
    rw [hsame] at hcommitted
    refine hown.revokeRow htxn hphase hrow ?_
    unfold Sound
    simp only [hreq]
    exact ⟨hcommitted, hlive, _, revokeRow_pending⟩
  | loggedOut hread hreq hfree hrow =>
    refine hown.revokeRow htxn hphase hrow ?_
    unfold Sound
    simp only
  | @issued k k' secret row new hread hreq hfresh huser hfamily hlive =>
    rw [hread, hreq] at hsound
    obtain ⟨hcommitted, hrow, version, hlock⟩ := hsound
    have hk : k ≠ k' := fun heq => hfresh (heq ▸ mem_keys_of_committed hcommitted)
    refine hown.insertRow htxn hphase ?_
    unfold Sound
    simp only [hreq]
    refine ⟨row, new, ⟨hcommitted, hrow, version, ?_⟩, issued_of_fresh hfresh hlive, huser,
      hfamily, ?_⟩
    · show (s.tokens.write t k' _).pending.get k = _
      rw [Table.write_pending_ne hk, hlock]
    · show (s.origin.set k' _).get k' = some ((s.origin.set k' _).getD k "")
      rw [Dict.get_set_self, Dict.getD_set_ne _ _ _ hk]
  | loggedIn hread hreq hfresh huser hfamily hlive =>
    refine hown.insertRow htxn hphase ?_
    unfold Sound
    simp only [hreq]
    exact ⟨⟨_, issued_of_fresh hfresh hlive⟩, Dict.get_set_self _ _ _⟩
  | _ =>
    refine hown.goOn htxn hphase rfl (Dict.get_set_self _ _ _) ?_
    unfold Sound
    simp

theorem visit_own (h : visit s t txn k = some s') (hown : Own s t)
    (htxn : s.inflight.get t = some txn) : Own s' t := by
  obtain ⟨scope, remaining, hphase, _, _, ⟨rfl, _⟩ | ⟨current, hrow, rfl⟩⟩ := visit_some h
  · refine hown.goOn htxn (by simp [hphase]) rfl (Dict.get_set_self _ _ _) ?_
    unfold Sound
    simp
  · refine hown.revokeRow htxn (by simp [hphase]) hrow ?_
    unfold Sound
    simp

/-! ## What the others do to it -/

theorem Held.congr (h : Held s t k row)
    (hc : s'.tokens.committed.get k = s.tokens.committed.get k)
    (hp : ∀ version, s.tokens.pending.get k = some (t, version) →
      s'.tokens.pending.get k = some (t, version)) : Held s' t k row := by
  obtain ⟨hcommitted, hlive, version, hlock⟩ := h
  exact ⟨hc.trans hcommitted, hlive, version, hp version hlock⟩

theorem Issued.congr (h : Issued s t k row)
    (hc : s'.tokens.committed.get k = s.tokens.committed.get k)
    (hp : ∀ version, s.tokens.pending.get k = some (t, version) →
      s'.tokens.pending.get k = some (t, version)) : Issued s' t k row :=
  ⟨hc.trans h.1, hp _ h.2.1, h.2.2⟩

theorem Issued.mem_keys (h : Issued s t k row) : k ∈ s.tokens.keys :=
  s.tokens.known k (.inr (by rw [h.2.1]; exact Option.some_ne_none _))

/-- A transaction stays sound while nobody else touches what it has locks on, and a row it has only
read is at most revoked. -/
theorem Sound.congr (h : Sound s t txn)
    (hc : ∀ k version, s.tokens.pending.get k = some (t, version) →
      s'.tokens.committed.get k = s.tokens.committed.get k)
    (hp : ∀ k version, s.tokens.pending.get k = some (t, version) →
      s'.tokens.pending.get k = some (t, version))
    (hread : ∀ k row, s.tokens.committed.get k = some row →
      ∃ time, s'.tokens.committed.get k = some { row with revokedAt := time })
    (ho : ∀ k ∈ s.tokens.keys, s'.origin.get k = s.origin.get k) : Sound s' t txn := by
  unfold Sound at h ⊢
  split
  · rename_i row k secret hphase hreq
    rw [hphase, hreq] at h
    obtain ⟨hlive, time, hrow⟩ := h
    obtain ⟨time', hrow'⟩ := hread _ _ hrow
    exact ⟨hlive, time', hrow'⟩
  · rename_i hphase hreq
    rw [hphase, hreq] at h
    obtain ⟨version, hlock⟩ := h.2.2
    exact h.congr (hc _ version hlock) fun version hlock => hp _ version hlock
  · rename_i hphase hreq
    rw [hphase, hreq] at h
    obtain ⟨row, new, hheld, hissued, huser, hfamily, horigin⟩ := h
    obtain ⟨version, hlock⟩ := hheld.2.2
    refine ⟨row, new, hheld.congr (hc _ version hlock) fun version hlock => hp _ version hlock,
      hissued.congr (hc _ _ hissued.2.1) fun version hlock => hp _ version hlock, huser, hfamily, ?_⟩
    rw [ho _ hissued.mem_keys, horigin]
    unfold Dict.getD
    rw [ho _ (mem_keys_of_committed hheld.1)]
  · rename_i hphase hreq
    rw [hphase, hreq] at h
    obtain ⟨⟨new, hissued⟩, horigin⟩ := h
    exact ⟨⟨new, hissued.congr (hc _ _ hissued.2.1) fun version hlock => hp _ version hlock⟩,
      (ho _ hissued.mem_keys).trans horigin⟩
  · rename_i hphase _ _
    simp_all
  · trivial

/-- A statement of `t` is nothing to the others. -/
theorem Local.own (h : Local t s s') (hu : u ≠ t) (hown : Own s u) : Own s' u where
  locks := by
    intro k version hlock
    obtain ⟨txn, htxn, hwrote⟩ := hown.locks k version ((h.tokens.locks k u version hu).mp hlock)
    refine ⟨txn, by rw [h.others u hu, htxn], hwrote.imp_left fun hrevokes => ?_⟩
    unfold Revokes
    rw [h.tokens.committed]
    exact hrevokes
  sound := by
    intro txn htxn
    rw [h.others u hu] at htxn
    refine (hown.sound txn htxn).congr (fun _ _ _ => by rw [h.tokens.committed])
      (fun k version hlock => (h.tokens.locks k u version hu).mpr hlock) (fun k row hrow => ?_)
      h.origin
    exact ⟨row.revokedAt, by rw [h.tokens.committed, hrow]⟩

/-! ## What a commit does -/

/-- Everything a transaction issues it knows of. -/
theorem Own.issued (hown : Own s t) (htxn : s.inflight.get t = some txn)
    (hphase : txn.phase = .written (some k)) : ∃ new, Issued s t k new := by
  have hsound := hown.sound txn htxn
  unfold Sound at hsound
  rw [hphase] at hsound
  cases hreq : txn.request with
  | refresh k' secret =>
    rw [hreq] at hsound
    obtain ⟨_, new, _, hissued, _⟩ := hsound
    exact ⟨new, hissued⟩
  | login email password =>
    rw [hreq] at hsound
    exact hsound.1
  | _ =>
    rw [hreq] at hsound
    exact hsound.elim

/-- What is committed stays so, revoked or not. -/
theorem commit_committed (hown : Own s t) (hrow : s.tokens.committed.get k = some row) :
    ∃ time, (commit s t txn).tokens.committed.get k = some { row with revokedAt := time } := by
  show ∃ time, s.tokens.view t k = some { row with revokedAt := time }
  by_cases hlock : ∃ version, s.tokens.pending.get k = some (t, version)
  · obtain ⟨version, hlock⟩ := hlock
    rw [Table.view_of_pending hlock]
    obtain ⟨txn', htxn', hrevokes | hwritten⟩ := hown.locks k version hlock
    · obtain ⟨before, time, hbefore, rfl⟩ := hrevokes
      rw [hrow] at hbefore
      cases hbefore
      exact ⟨some time, rfl⟩
    · obtain ⟨new, hissued⟩ := hown.issued htxn' hwritten
      rw [hissued.1] at hrow
      cases hrow
  · rw [Table.view_eq_committed fun version h => hlock ⟨version, h⟩]
    exact ⟨row.revokedAt, hrow⟩

/-- **What is unrevoked after a commit** was so before and untouched, or is what was issued. -/
theorem unrevoked_of_commit (hown : Own s t) (htxn : s.inflight.get t = some txn)
    (hrow : (commit s t txn).tokens.committed.get k = some row) (hlive : row.revokedAt = none) :
    (s.tokens.committed.get k = some row ∧
        ∀ version, s.tokens.pending.get k ≠ some (t, version)) ∨
      txn.phase = .written (some k) ∧ Issued s t k row := by
  have hview : s.tokens.view t k = some row := hrow
  by_cases hlock : ∃ version, s.tokens.pending.get k = some (t, version)
  · obtain ⟨version, hlock⟩ := hlock
    rw [Table.view_of_pending hlock] at hview
    subst hview
    obtain ⟨txn', htxn', hrevokes | hwritten⟩ := hown.locks k _ hlock
    · obtain ⟨before, time, _, heq⟩ := hrevokes
      rw [Option.some.inj heq] at hlive
      cases hlive
    · rw [htxn] at htxn'
      cases htxn'
      obtain ⟨new, hissued⟩ := hown.issued htxn hwritten
      obtain rfl : new = row := by
        have := hissued.2.1
        rw [hlock] at this
        cases this
        rfl
      exact .inr ⟨hwritten, hissued⟩
  · have hnone : ∀ version, s.tokens.pending.get k ≠ some (t, version) :=
      fun version h => hlock ⟨version, h⟩
    rw [Table.view_eq_committed hnone] at hview
    exact .inl ⟨hview, hnone⟩

/-- A row that somebody else has the lock on is not in the commit. -/
theorem commit_get_of_lock {version : Option RefreshToken} (hu : u ≠ t)
    (hlock : s.tokens.pending.get k = some (u, version)) :
    (commit s t txn).tokens.committed.get k = s.tokens.committed.get k :=
  Table.view_of_pending_ne hlock hu

theorem commit_own (hownt : Own s t) (hown : ∀ u, Own s u) (u : TxnId) :
    Own (commit s t txn) u := by
  have hinflight : ∀ u, u ≠ t → (commit s t txn).inflight.get u = s.inflight.get u :=
    fun u hu => Dict.get_erase_ne _ hu
  refine ⟨fun k version hlock => ?_, fun txn' htxn' => ?_⟩
  · obtain ⟨hlock, hu⟩ := Table.commit_pending.mp hlock
    obtain ⟨txn', htxn', hwrote⟩ := (hown u).locks k version hlock
    refine ⟨txn', by rw [hinflight u hu, htxn'], hwrote.imp_left ?_⟩
    unfold Revokes
    rw [commit_get_of_lock hu hlock]
    exact id
  · by_cases hu : u = t
    · subst hu
      have hnone : (commit s u txn).inflight.get u = none := Dict.get_erase_self _ _
      rw [hnone] at htxn'
      cases htxn'
    · rw [hinflight u hu] at htxn'
      refine ((hown u).sound txn' htxn').congr (fun k version hlock => commit_get_of_lock hu hlock)
        (fun k version hlock => Table.commit_pending.mpr ⟨hlock, hu⟩)
        (fun k row hrow => commit_committed hownt hrow) fun _ _ => rfl

/-- **One step keeps every transaction sound**, one case for each kind. -/
theorem own_step {e : AuthEvent} (hown : ∀ t, Own s t) (hok : lateRotation s e = false)
    (h : authStep P s e = some s') (u : TxnId) : Own s' u := by
  have hlocal : ∀ t, Local t s s' → Own s' t → Own s' u := by
    intro t hlocal hownt
    by_cases hu : u = t
    · rwa [hu]
    · exact hlocal.own hu (hown u)
  cases e with
  | begin t request =>
    unfold authStep at h
    dsimp only at h
    cases htxn : s.inflight.get t with
    | some txn => simp [htxn] at h
    | none =>
      rw [htxn] at h
      cases h
      have hbegun : Local t s (s.goOn t ⟨request, .begun, s.now, s.changes.length⟩ .begun) :=
        goOn_local
      refine hlocal t hbegun ⟨fun k version hlock => ?_, fun txn htxn' => ?_⟩
      · obtain ⟨txn, hsome, _⟩ := (hown t).locks k version hlock
        rw [htxn] at hsome
        cases hsome
      · rw [Dict.get_set_self] at htxn'
        cases htxn'
        exact trivial
  | statement t drawn =>
    unfold authStep at h
    obtain ⟨txn, htxn, h⟩ := Option.bind_eq_some_iff.mp h
    have heffect := statement_effect h
    refine hlocal t heffect.local (heffect.own (hown t) htxn (fun k hphase => ?_)
      fun row k secret hphase hreq row' hrow => ?_)
    · simp [statement, hphase] at h
    · simpa [lateRotation, htxn, hphase, hreq, hrow] using hok
  | visit t k =>
    unfold authStep at h
    obtain ⟨txn, htxn, h⟩ := Option.bind_eq_some_iff.mp h
    exact hlocal t (visit_local h) (visit_own h (hown t) htxn)
  | commit t =>
    unfold authStep at h
    obtain ⟨txn, htxn, h⟩ := Option.bind_eq_some_iff.mp h
    split at h
    · cases h
      exact commit_own (hown t) hown u
    · cases h
  | fail t =>
    unfold authStep at h
    obtain ⟨txn, htxn, rfl⟩ := Option.map_eq_some_iff.mp h
    exact hlocal t rollback_local .of_rollback
  | tick seconds =>
    cases h
    exact ⟨(hown u).locks, (hown u).sound⟩

end

end IotSaas.Auth
