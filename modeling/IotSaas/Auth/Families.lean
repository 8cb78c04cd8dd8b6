import IotSaas.Auth.Revocation

/-!
# `Auth/Families.lean` — the families of refresh tokens

A family is a login and the rotations after it. It is to have one unrevoked token at most (`Sole`),
and none once a token of it was presented a second time (`Extinct`).

`rotate_refresh_token` reads the row, decides, and only then writes it, so two requests with one
token can both decide to rotate; and the UPDATE that revokes a family knows nothing of a token that
is being issued while it runs. `families_broken` has a run for each. `families_kept` says that there
is nothing else: in every interleaving in which a rotation's UPDATE finds the token still unrevoked,
and a family's revocation comes to no row that was rotated after it had started, both hold.
-/

set_option autoImplicit false

namespace IotSaas.Auth

open Lib Rules AuthState

/-- A token that would be accepted. -/
def Live (s : AuthState) (row : RefreshToken) : Prop :=
  row.revokedAt = none ∧ s.now ≤ row.expiresAt

/-- A family has at most one unrevoked token. -/
def Sole (s : AuthState) : Prop :=
  ∀ k k' row row', s.tokens.committed.get k = some row → s.tokens.committed.get k' = some row' →
    row.familyId = row'.familyId → row.revokedAt = none → row'.revokedAt = none → k = k'

/-- A family that a token was presented twice of has no live one. -/
def Extinct (s : AuthState) : Prop :=
  ∀ familyId ∈ s.replayed, ∀ k row, s.tokens.committed.get k = some row →
    row.familyId = familyId → ¬Live s row

/-- A family's revocation comes to a token that was rotated after it had started. -/
def missesRotation (s : AuthState) : AuthEvent → Bool
  | .visit t tokenId => (s.inflight.get t).any fun txn =>
      match txn.phase with
      | .revoking (.family _) _ => s.rotated.contains tokenId
      | _ => false
  | _ => false

/-- Neither a rotation nor a family's revocation acts on what has changed since it read it. -/
abbrev Unraced (s : AuthState) (e : AuthEvent) : Prop :=
  (lateRotation s e || missesRotation s e) = false

/-! ## The families a login begins -/

/-- The commit of `t` is a login's, and begins the family of `row`. -/
def Begins (s : AuthState) (t : TxnId) (k : Uuid) (row : RefreshToken) : Prop :=
  ∃ txn email password, s.inflight.get t = some txn ∧ txn.request = .login email password ∧
    txn.phase = .written (some k) ∧ Issued s t k row

/-- The rows a family is known by: its committed ones, and the one it is begun with. -/
structure FamiliesKnown (s : AuthState) : Prop where
  committed : ∀ k row, s.tokens.committed.get k = some row → row.familyId ∈ s.families
  begun : ∀ t k row, Begins s t k row → row.familyId ∈ s.families
  fresh : ∀ t k row, Begins s t k row → ∀ k' row', s.tokens.committed.get k' = some row' →
    row'.familyId ≠ row.familyId
  apart : ∀ t u k k' row row', Begins s t k row → Begins s u k' row' → t ≠ u →
    row.familyId ≠ row'.familyId

/-- Some token of the family has been issued. -/
def Exists (s : AuthState) (familyId : Uuid) : Prop :=
  ∃ k row, s.tokens.committed.get k = some row ∧ row.familyId = familyId

/-- What a request that revokes a family has come to. -/
def Pursued (s : AuthState) (t : TxnId) : Prop :=
  ∀ txn, s.inflight.get t = some txn →
    match txn.phase with
    | .reused familyId => Exists s familyId
    | .revoking (.family familyId) remaining =>
        Exists s familyId ∧ Covered s t txn.request (.family familyId) remaining
    | _ => True

/-- No token of the family is unrevoked, and there is one. -/
def Closed (s : AuthState) (familyId : Uuid) : Prop :=
  Exists s familyId ∧ ∀ k row, s.tokens.committed.get k = some row → row.familyId = familyId →
    row.revokedAt ≠ none

structure Kept (s : AuthState) : Prop where
  own : ∀ t, Own s t
  known : FamiliesKnown s
  pursued : ∀ t, Pursued s t
  sole : Sole s
  closed : ∀ familyId ∈ s.replayed, Closed s familyId

section

variable {P : Hasher} {s s' : AuthState} {t u : TxnId} {txn : Txn} {k : Uuid} {row : RefreshToken}
  {familyId : Uuid}

/-! ## Statements -/

theorem Local.begins (h : Local t s s') (hu : u ≠ t) : Begins s' u k row ↔ Begins s u k row := by
  unfold Begins Issued
  rw [h.others u hu, h.tokens.committed]
  simp only [h.tokens.locks k u _ hu]

theorem Local.exists (h : Local t s s') (hexists : Exists s familyId) : Exists s' familyId := by
  unfold Exists
  rw [h.tokens.committed]
  exact hexists

theorem Local.pursued (h : Local t s s') (hu : u ≠ t) (hpursued : Pursued s u) :
    Pursued s' u := by
  intro txn htxn
  rw [h.others u hu] at htxn
  have hbefore := hpursued txn htxn
  split
  · rename_i hphase
    rw [hphase] at hbefore
    exact h.exists hbefore
  · rename_i hphase
    rw [hphase] at hbefore
    exact ⟨h.exists hbefore.1, hbefore.2.local h hu⟩
  · trivial

/-- What a statement is to do, for the families to be kept. -/
structure Fit (t : TxnId) (s s' : AuthState) : Prop where
  alone : Local t s s'
  own : Own s' t
  pursued : Pursued s' t
  begins : ∀ k row, Begins s' t k row → row.familyId ∉ s.families ∧ row.familyId ∈ s'.families

theorem FamiliesKnown.of_fit (hknown : FamiliesKnown s) (h : Fit t s s') : FamiliesKnown s' where
  committed := by
    intro k row hrow
    rw [h.alone.tokens.committed] at hrow
    exact h.alone.families _ (hknown.committed k row hrow)
  begun := by
    intro u k row hbegins
    by_cases hu : u = t
    · subst hu
      exact (h.begins k row hbegins).2
    · exact h.alone.families _ (hknown.begun u k row ((h.alone.begins hu).mp hbegins))
  fresh := by
    intro u k row hbegins k' row' hrow'
    rw [h.alone.tokens.committed] at hrow'
    by_cases hu : u = t
    · subst hu
      intro heq
      exact (h.begins k row hbegins).1 (heq ▸ hknown.committed k' row' hrow')
    · exact hknown.fresh u k row ((h.alone.begins hu).mp hbegins) k' row' hrow'
  apart := by
    intro v w k k' row row' hv hw hne heq
    by_cases hvt : v = t
    · subst hvt
      have hw' := (h.alone.begins hne.symm).mp hw
      exact (h.begins k row hv).1 (heq ▸ hknown.begun w k' row' hw')
    · have hv' := (h.alone.begins hvt).mp hv
      by_cases hwt : w = t
      · subst hwt
        exact (h.begins k' row' hw).1 (heq ▸ hknown.begun v k row hv')
      · exact hknown.apart v w k k' row row' hv' ((h.alone.begins hwt).mp hw) hne heq

theorem Kept.of_fit (hkept : Kept s) (h : Fit t s s') : Kept s' where
  own := by
    intro u
    by_cases hu : u = t
    · rw [hu]
      exact h.own
    · exact h.alone.own hu (hkept.own u)
  known := hkept.known.of_fit h
  pursued := by
    intro u
    by_cases hu : u = t
    · rw [hu]
      exact h.pursued
    · exact h.alone.pursued hu (hkept.pursued u)
  sole := by
    have hsole := hkept.sole
    unfold Sole at hsole ⊢
    rw [h.alone.tokens.committed]
    exact hsole
  closed := by
    intro familyId hreplayed
    rw [h.alone.replayed] at hreplayed
    have hclosed := hkept.closed familyId hreplayed
    refine ⟨h.alone.exists hclosed.1, ?_⟩
    rw [h.alone.tokens.committed]
    exact hclosed.2

/-- Only a login begins a family. -/
theorem Effect.begins (h : Effect P s t txn s') (hbegins : Begins s' t k row) : row.familyId ∉ s.families ∧ row.familyId ∈ s'.families := by
  obtain ⟨txn', email, password, htxn', hreq', hphase', hissued⟩ := hbegins
  cases h with
  | rollback =>
    rw [rollback_inflight] at htxn'
    cases htxn'
  | loggedIn _ _ hfresh _ hfamily _ =>
    rw [insertRow_inflight] at htxn'
    cases htxn'
    cases hphase'
    have hlock := hissued.2.1
    rw [insertRow_pending] at hlock
    cases hlock
    exact ⟨hfamily, List.mem_cons_self⟩
  | issued _ hreq =>
    rw [insertRow_inflight] at htxn'
    cases htxn'
    rw [hreq] at hreq'
    cases hreq'
  | _ =>
    simp only [goOn_inflight, beginRevoking, revokeRow_inflight, setPassword_inflight,
      spendLink_inflight, Option.some.injEq] at htxn'
    subst htxn'
    cases hphase'

theorem Effect.pursued (h : Effect P s t txn s') (hown : Own s t)
    (htxn : s.inflight.get t = some txn) (hphase : ∀ k, txn.phase ≠ .written (some k))
    (hpursued : Pursued s t) : Pursued s' t := by
  have hbefore := hpursued txn htxn
  intro txn' htxn'
  cases h with
  | rollback =>
    rw [rollback_inflight] at htxn'
    cases htxn'
  | issued | loggedIn =>
    rw [insertRow_inflight] at htxn'
    cases htxn'
    exact trivial
  | reused _ hrow =>
    rw [goOn_inflight] at htxn'
    cases htxn'
    obtain ⟨before, time, hcommitted, rfl⟩ := hown.view htxn (hphase _) hrow
    exact ⟨_, before, hcommitted, rfl⟩
  | familyPicked hread =>
    rw [hread] at hbefore
    unfold beginRevoking at htxn'
    rw [goOn_inflight] at htxn'
    cases htxn'
    exact ⟨hbefore, covered_beginRevoking⟩
  | _ =>
    simp only [goOn_inflight, beginRevoking, revokeRow_inflight, setPassword_inflight,
      spendLink_inflight, Option.some.injEq] at htxn'
    subst htxn'
    exact trivial

theorem Effect.fit (h : Effect P s t txn s') (hkept : Kept s) (htxn : s.inflight.get t = some txn)
    (hphase : ∀ k, txn.phase ≠ .written (some k))
    (hlate : ∀ row k secret, txn.phase = .presented row → txn.request = .refresh k secret →
      ∀ row, s.tokens.committed.get k = some row → row.revokedAt = none) : Fit t s s' where
  alone := h.local
  own := h.own (hkept.own t) htxn hphase hlate
  pursued := h.pursued (hkept.own t) htxn hphase (hkept.pursued t)
  begins := fun _ _ => h.begins

theorem visit_fit (h : visit s t txn k = some s') (hkept : Kept s)
    (htxn : s.inflight.get t = some txn)
    (hmissed : ∀ familyId remaining, txn.phase = .revoking (.family familyId) remaining →
      missed s (.family familyId) txn.request k = false) : Fit t s s' := by
  have hbefore := hkept.pursued t txn htxn
  obtain ⟨scope, remaining, hphase, _, _, hcase⟩ := visit_some h
  have htxn' : s'.inflight.get t =
      some { txn with phase := .revoking scope (remaining.erase k) } := by
    rcases hcase with ⟨rfl, _⟩ | ⟨_, _, rfl⟩
    · exact goOn_inflight
    · exact revokeRow_inflight
  refine ⟨visit_local h, visit_own h (hkept.own t) htxn, fun txn'' htxn'' => ?_,
    fun k' row hbegins => ?_⟩
  · rw [htxn'] at htxn''
    cases htxn''
    cases scope with
    | user userId => exact trivial
    | family familyId =>
      rw [hphase] at hbefore
      exact ⟨(visit_local h).exists hbefore.1, hbefore.2.visit hphase (hmissed _ _ hphase) h⟩
  · obtain ⟨txn'', _, _, htxn'', _, hwritten, _⟩ := hbegins
    rw [htxn'] at htxn''
    cases htxn''
    cases hwritten

/-! ## Commits -/

theorem begins_of_commit (h : Begins (commit s t txn) u k row) : u ≠ t ∧ Begins s u k row := by
  obtain ⟨txn', email, password, htxn', hreq, hphase, hnone, hlock, hlive⟩ := h
  obtain ⟨hlock, hu⟩ := Table.commit_pending.mp hlock
  rw [commit_get_of_lock hu hlock] at hnone
  rw [show (commit s t txn).inflight.get u = s.inflight.get u from Dict.get_erase_ne _ hu] at htxn'
  exact ⟨hu, txn', email, password, htxn', hreq, hphase, hnone, hlock, hlive⟩

theorem commit_exists (hown : Own s t) (h : Exists s familyId) :
    Exists (commit s t txn) familyId := by
  obtain ⟨k, row, hrow, hfamily⟩ := h
  obtain ⟨time, hrow⟩ := commit_committed hown hrow
  exact ⟨k, _, hrow, hfamily⟩

/-- A token that a commit issues is of a family that is there, with the token it was rotated from
still unrevoked until then; or it begins one. -/
theorem issued_family (hown : Own s t) (htxn : s.inflight.get t = some txn)
    (hphase : txn.phase = .written (some k)) (hissued : Issued s t k row) :
    (∃ k' row', Held s t k' row' ∧ row'.familyId = row.familyId) ∨ Begins s t k row := by
  have hsound := hown.sound txn htxn
  unfold Sound at hsound
  rw [hphase] at hsound
  cases hreq : txn.request with
  | login email password => exact .inr ⟨txn, email, password, htxn, hreq, hphase, hissued⟩
  | refresh k' secret =>
    rw [hreq] at hsound
    obtain ⟨row', new, hheld, hissued', _, hfamily, _⟩ := hsound
    have hsame := hissued'.2.1
    rw [hissued.2.1] at hsame
    cases hsame
    exact .inl ⟨k', row', hheld, hfamily.symm⟩
  | _ =>
    rw [hreq] at hsound
    exact hsound.elim

/-- The family of a committed row was there before, or begins with it. -/
theorem family_of_commit (hown : Own s t) (htxn : s.inflight.get t = some txn)
    (hrow : (commit s t txn).tokens.committed.get k = some row) :
    Exists s row.familyId ∨ Begins s t k row := by
  have hview : s.tokens.view t k = some row := hrow
  by_cases hphase : txn.phase = .written (some k)
  · obtain ⟨new, hissued⟩ := hown.issued htxn hphase
    rw [Table.view_of_pending hissued.2.1] at hview
    cases hview
    rcases issued_family hown htxn hphase hissued with ⟨k', row', hheld, hfamily⟩ | hbegins
    · exact .inl ⟨k', row', hheld.1, hfamily⟩
    · exact .inr hbegins
  · obtain ⟨before, time, hbefore, rfl⟩ := hown.view htxn hphase hview
    exact .inl ⟨k, before, hbefore, rfl⟩

theorem commit_known (hkept : Kept s) (htxn : s.inflight.get t = some txn) :
    FamiliesKnown (commit s t txn) := by
  have hown := hkept.own t
  have hknown := hkept.known
  refine ⟨fun k row hrow => ?_, fun u k row hbegins => ?_, fun u k row hbegins k' row' hrow' => ?_,
    fun v w k k' row row' hv hw hne => ?_⟩
  · rcases family_of_commit hown htxn hrow with ⟨k', row', hrow', hfamily⟩ | hbegins
    · exact hfamily ▸ hknown.committed k' row' hrow'
    · exact hknown.begun t k row hbegins
  · exact hknown.begun u k row (begins_of_commit hbegins).2
  · obtain ⟨hu, hbegins⟩ := begins_of_commit hbegins
    rcases family_of_commit hown htxn hrow' with ⟨k'', row'', hrow'', hfamily⟩ | hbegins'
    · rw [← hfamily]
      exact hknown.fresh u k row hbegins k'' row'' hrow''
    · exact hknown.apart t u k' k row' row hbegins' hbegins hu.symm
  · exact hknown.apart v w k k' row row' (begins_of_commit hv).2 (begins_of_commit hw).2 hne

theorem commit_sole (hkept : Kept s) (htxn : s.inflight.get t = some txn) :
    Sole (commit s t txn) := by
  have hown := hkept.own t
  -- a token that is issued has no unrevoked companion but the one it is rotated from
  have hissues : ∀ k k' row row', txn.phase = .written (some k) → Issued s t k row →
      s.tokens.committed.get k' = some row' →
      (∀ version, s.tokens.pending.get k' ≠ some (t, version)) → row.familyId = row'.familyId →
      row'.revokedAt = none → False := by
    intro k k' row row' hphase hissued hrow' hnone hfamily hlive'
    rcases issued_family hown htxn hphase hissued with ⟨k'', row'', hheld, hsame⟩ | hbegins
    · obtain ⟨version, hlock⟩ := hheld.2.2
      have hk := hkept.sole k'' k' row'' row' hheld.1 hrow' (hsame.trans hfamily) hheld.2.1 hlive'
      rw [hk] at hlock
      exact hnone version hlock
    · exact hkept.known.fresh t k row hbegins k' row' hrow' hfamily.symm
  intro k k' row row' hrow hrow' hfamily hlive hlive'
  rcases unrevoked_of_commit hown htxn hrow hlive with ⟨hbefore, hnone⟩ | ⟨hphase, hissued⟩
  · rcases unrevoked_of_commit hown htxn hrow' hlive' with ⟨hbefore', _⟩ | ⟨hphase', hissued'⟩
    · exact hkept.sole k k' row row' hbefore hbefore' hfamily hlive hlive'
    · exact (hissues k' k row' row hphase' hissued' hbefore hnone hfamily.symm hlive).elim
  · rcases unrevoked_of_commit hown htxn hrow' hlive' with ⟨hbefore', hnone'⟩ | ⟨hphase', _⟩
    · exact (hissues k k' row row' hphase hissued hbefore' hnone' hfamily hlive').elim
    · rw [hphase] at hphase'
      cases hphase'
      rfl

theorem mem_commit_replayed (h : familyId ∈ (commit s t txn).replayed) :
    familyId ∈ s.replayed ∨ ∃ remaining, txn.phase = .revoking (.family familyId) remaining := by
  unfold commit at h
  dsimp only at h
  split at h
  · rename_i other remaining hphase
    rcases List.mem_cons.mp h with rfl | h
    · exact .inr ⟨remaining, hphase⟩
    · exact .inl h
  · exact .inl h

theorem commit_closed (hkept : Kept s) (htxn : s.inflight.get t = some txn)
    (hdone : txn.phase.done = true) (h : familyId ∈ (commit s t txn).replayed) :
    Closed (commit s t txn) familyId := by
  have hown := hkept.own t
  rcases mem_commit_replayed h with hold | ⟨remaining, hphase⟩
  · obtain ⟨hexists, hclosed⟩ := hkept.closed familyId hold
    refine ⟨commit_exists hown hexists, fun k row hrow hfamily hlive => ?_⟩
    rcases unrevoked_of_commit hown htxn hrow hlive with ⟨hbefore, _⟩ | ⟨hphase, hissued⟩
    · exact hclosed k row hbefore hfamily hlive
    · rcases issued_family hown htxn hphase hissued with ⟨k', row', hheld, hsame⟩ | hbegins
      · exact hclosed k' row' hheld.1 (hsame.trans hfamily) hheld.2.1
      · obtain ⟨k', row', hrow', hfamily'⟩ := hexists
        exact hkept.known.fresh t k row hbegins k' row' hrow' (hfamily'.trans hfamily.symm)
  · have hpursued := hkept.pursued t txn htxn
    rw [hphase] at hdone hpursued
    obtain rfl : remaining = [] := List.isEmpty_iff.mp hdone
    obtain ⟨hexists, hcovered⟩ := hpursued
    refine ⟨commit_exists hown hexists, fun k row hrow hfamily hlive => ?_⟩
    have hexempt := hcovered.done hown htxn hphase hrow
      (by simp [Scope.qualifies, Scope.covers, hfamily, hlive])
    cases hexempt

/-- **A commit keeps the families**: no condition on it, only on what came before. -/
theorem commit_kept (hkept : Kept s) (htxn : s.inflight.get t = some txn)
    (hdone : txn.phase.done = true) : Kept (commit s t txn) where
  own := commit_own (hkept.own t) hkept.own
  known := commit_known hkept htxn
  sole := commit_sole hkept htxn
  closed := fun _ => commit_closed hkept htxn hdone
  pursued := by
    intro u other hother
    by_cases hu : u = t
    · subst hu
      rw [show (commit s u txn).inflight.get u = none from Dict.get_erase_self _ _] at hother
      cases hother
    · rw [show (commit s t txn).inflight.get u = s.inflight.get u from Dict.get_erase_ne _ hu]
        at hother
      have hbefore := hkept.pursued u other hother
      split
      · rename_i hphase
        rw [hphase] at hbefore
        exact commit_exists (hkept.own t) hbefore
      · rename_i familyId remaining hphase
        rw [hphase] at hbefore
        refine ⟨commit_exists (hkept.own t) hbefore.1, hbefore.2.commit (hkept.own t) htxn hu ?_⟩
        intro email password k new hreq hwritten hissued hqualifies
        -- what the UPDATE is after is there, and a login's family is not
        obtain ⟨k', row', hrow', hfamily'⟩ := hbefore.1
        have hfresh := hkept.known.fresh t k new ⟨txn, email, password, htxn, hreq, hwritten, hissued⟩
          k' row' hrow'
        simp only [Scope.qualifies, Scope.covers, Bool.and_eq_true, decide_eq_true_eq]
          at hqualifies
        exact absurd (hfamily'.trans hqualifies.1.symm) hfresh
      · trivial

/-- **One step**, one case for each kind. -/
theorem kept_step {e : AuthEvent} (hkept : Kept s) (hok : Unraced s e)
    (h : authStep P s e = some s') : Kept s' := by
  obtain ⟨hlate, hmisses⟩ := Bool.or_eq_false_iff.mp hok
  cases e with
  | begin t request =>
    have hown := own_step hkept.own hlate h t
    unfold authStep at h
    dsimp only at h
    cases htxn : s.inflight.get t with
    | some txn => simp [htxn] at h
    | none =>
      rw [htxn] at h
      cases h
      have hlocal : Local t s (s.goOn t ⟨request, .begun, s.now, s.changes.length⟩ .begun) :=
        goOn_local
      refine hkept.of_fit (t := t) ⟨hlocal, hown, fun txn htxn => ?_, fun k row hbegins => ?_⟩
      · rw [Dict.get_set_self] at htxn
        cases htxn
        exact trivial
      · obtain ⟨txn, _, _, htxn, _, hwritten, _⟩ := hbegins
        rw [Dict.get_set_self] at htxn
        cases htxn
        cases hwritten
  | statement t drawn =>
    unfold authStep at h
    obtain ⟨txn, htxn, h⟩ := Option.bind_eq_some_iff.mp h
    -- No rotation comes to a token that was revoked since it was read.
    refine hkept.of_fit ((statement_effect h).fit hkept htxn (fun k hphase => ?_)
      fun row k secret hphase hreq row' hrow => ?_)
    · simp [statement, hphase] at h
    · simpa [lateRotation, htxn, hphase, hreq, hrow] using hlate
  | visit t k =>
    unfold authStep at h
    obtain ⟨txn, htxn, h⟩ := Option.bind_eq_some_iff.mp h
    refine hkept.of_fit (visit_fit h hkept htxn fun familyId remaining hphase => ?_)
    simpa [missesRotation, missed, exempt, htxn, hphase] using hmisses
  | commit t =>
    unfold authStep at h
    obtain ⟨txn, htxn, h⟩ := Option.bind_eq_some_iff.mp h
    split at h
    · rename_i hdone
      cases h
      exact commit_kept hkept htxn hdone
    · cases h
  | fail t =>
    have hown := own_step hkept.own hlate h t
    unfold authStep at h
    obtain ⟨txn, htxn, rfl⟩ := Option.map_eq_some_iff.mp h
    refine hkept.of_fit ⟨rollback_local, hown, fun txn htxn => ?_, fun k row hbegins => ?_⟩
    · rw [rollback_inflight] at htxn
      cases htxn
    · obtain ⟨txn, _, _, htxn, _⟩ := hbegins
      rw [rollback_inflight] at htxn
      cases htxn
  | tick seconds =>
    have hown := own_step hkept.own hlate h
    cases h
    have hknown := hkept.known
    exact ⟨hown, ⟨hknown.committed, hknown.begun, hknown.fresh, hknown.apart⟩, hkept.pursued,
      hkept.sole, hkept.closed⟩

end

theorem kept_start (users : List (Uuid × User)) (resets : List (String × PasswordResetToken)) :
    Kept (start users resets) where
  own := fun t => ⟨fun k version hlock => (by cases hlock), fun txn htxn => (by cases htxn)⟩
  known :=
    { committed := fun k row hrow => (by cases hrow)
      begun := fun t k row hbegins => by
        obtain ⟨txn, _, _, htxn, _⟩ := hbegins
        cases htxn
      fresh := fun t k row hbegins => by
        obtain ⟨txn, _, _, htxn, _⟩ := hbegins
        cases htxn
      apart := fun t u k k' row row' hbegins => by
        obtain ⟨txn, _, _, htxn, _⟩ := hbegins
        cases htxn }
  pursued := fun t txn htxn => (by cases htxn)
  sole := fun k k' row row' hrow => (by cases hrow)
  closed := fun familyId hreplayed => (by cases hreplayed)

/-- **The families are kept**, whatever interleaves, while no rotation and no revocation of a family
is raced. -/
theorem families_kept (P : Hasher) (users : List (Uuid × User))
    (resets : List (String × PasswordResetToken)) {s : AuthState}
    (h : Reaches (authStep P) Unraced (start users resets) s) : Sole s ∧ Extinct s := by
  have hkept : Kept s :=
    h.invariant (kept_start users resets) fun _ _ _ ih ok hstep => kept_step ih ok hstep
  refine ⟨hkept.sole, fun familyId hreplayed k row hrow hfamily hlive => ?_⟩
  exact (hkept.closed familyId hreplayed).2 k row hrow hfamily hlive.1

/-! ## A session that is taken -/

def ann : List (Uuid × User) := [("ann", ⟨"ann@acme.io", "hunter2"⟩)]

/-- Ann logs in. -/
def annLogsIn : List AuthEvent :=
  [.begin 0 (.login "ann@acme.io" "hunter2"), .statement 0 {},
    .statement 0 { tokenId := "t1", familyId := "f1", secret := "s1" }, .commit 0]

/-- A refresh from its first statement to its last. -/
def refreshes (t : TxnId) (tokenId secret newId newSecret : String) : List AuthEvent :=
  [.begin t (.refresh tokenId secret), .statement t {}, .statement t {},
    .statement t { tokenId := newId, secret := newSecret }]

/-- Her token is used, and presented again. -/
def replay : List AuthEvent :=
  annLogsIn ++ refreshes 1 "t1" "s1" "t2" "s2" ++
    [.commit 1, .begin 2 (.refresh "t1" "s1"), .statement 2 {}, .statement 2 {}, .visit 2 "t2",
      .commit 2]

/-- One token, read by two requests before either writes it. -/
def twoRotations : List AuthEvent :=
  annLogsIn ++
    [.begin 1 (.refresh "t1" "s1"), .begin 2 (.refresh "t1" "s1"), .statement 1 {},
      .statement 2 {}, .statement 1 {}, .statement 1 { tokenId := "t2", secret := "s2" }, .commit 1,
      .statement 2 {}, .statement 2 { tokenId := "t3", secret := "s3" }, .commit 2]

/-- A replay, while the family's next token is being issued. -/
def replayInFlight : List AuthEvent :=
  annLogsIn ++ refreshes 1 "t1" "s1" "t2" "s2" ++ [.commit 1] ++
    refreshes 2 "t2" "s2" "t3" "s3" ++
    [.begin 3 (.refresh "t1" "s1"), .statement 3 {}, .statement 3 {}, .commit 2, .visit 3 "t2",
      .commit 3]

/-- A replay ends the session. -/
theorem families_kept_replay :
    ∃ s, run (guarded (authStep plainHasher) Unraced) (start ann []) replay = some s ∧
      s.replayed = ["f1"] ∧ Sole s ∧ Extinct s := by
  obtain ⟨s, hs⟩ : ∃ s,
      run (guarded (authStep plainHasher) Unraced) (start ann []) replay = some s :=
    Option.isSome_iff_exists.mp (by decide +kernel)
  have hreplayed : (run (guarded (authStep plainHasher) Unraced) (start ann []) replay).map
      AuthState.replayed = some ["f1"] := by decide +kernel
  rw [hs] at hreplayed
  exact ⟨s, hs, Option.some.inj hreplayed, families_kept plainHasher ann [] (.of_run_guarded hs)⟩

/-- **Two rotations of one token leave two sessions, and a replay misses the token in flight.** -/
theorem families_broken :
    (¬∀ P users resets s, Reaches (authStep P) Always (start users resets) s → Sole s) ∧
    ¬∀ P users resets s, Reaches (authStep P) Always (start users resets) s → Extinct s := by
  constructor
  · intro h
    have hrun : (run (authStep plainHasher) (start ann []) twoRotations).map (fun s =>
        (s.tokens.committed.get "t2", s.tokens.committed.get "t3")) =
        some (some ⟨"ann", "s2", "f1", 30, none⟩, some ⟨"ann", "s3", "f1", 30, none⟩) := by
      decide +kernel
    obtain ⟨s, hs, hparts⟩ := Option.map_eq_some_iff.mp hrun
    obtain ⟨h2, h3⟩ := Prod.mk.inj hparts
    have hsame := h plainHasher ann [] s (.of_run hs) "t2" "t3" _ _ h2 h3 rfl rfl rfl
    simp at hsame
  · intro h
    have hrun : (run (authStep plainHasher) (start ann []) replayInFlight).map (fun s =>
        (s.replayed, s.now, s.tokens.committed.get "t3")) =
        some (["f1"], 0, some ⟨"ann", "s3", "f1", 30, none⟩) := by decide +kernel
    obtain ⟨s, hs, hparts⟩ := Option.map_eq_some_iff.mp hrun
    simp only [Prod.mk.injEq] at hparts
    obtain ⟨hreplayed, hnow, h3⟩ := hparts
    refine h plainHasher ann [] s (.of_run hs) "f1" (by simp [hreplayed]) "t3" _ h3 rfl ⟨rfl, ?_⟩
    simp [hnow]

end IotSaas.Auth
