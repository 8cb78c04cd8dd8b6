import IotSaas.Auth.Locks

/-!
# `Auth/Revocation.lean` — what a bulk UPDATE leaves

A family's revocation and a reset's are one UPDATE over many rows. It picks the rows that qualify
when it starts; what is issued later is none of them. `Covered` says what may be unrevoked when it
comes to its end: nothing, unless on its way it came to a row that a rotation had taken meanwhile
(`missed`).
-/

set_option autoImplicit false

namespace IotSaas.Auth

open Lib Rules AuthState

/-! ## What a bulk UPDATE has picked -/

/-- A token that a bulk UPDATE may leave: a reset those of a session that was begun with the
password it sets. -/
def exempt (s : AuthState) (scope : Scope) (request : AuthRequest) (k : Uuid) : Bool :=
  match scope, request with
  | .user _, .resetPassword _ newPassword => decide (s.origin.get k = some newPassword)
  | _, _ => false

/-- A bulk UPDATE comes to a row that has been rotated since it started: the token it was rotated
into is none of those it has picked. -/
def missed (s : AuthState) (scope : Scope) (request : AuthRequest) (k : Uuid) : Bool :=
  s.rotated.contains k && !exempt s scope request k

/-- Whatever it is to revoke it has revoked or will come to; or else it will come to a row that has
been rotated. -/
def Covered (s : AuthState) (t : TxnId) (request : AuthRequest) (scope : Scope)
    (remaining : List Uuid) : Prop :=
  (∀ k row, s.tokens.committed.get k = some row → scope.qualifies row = true →
    k ∈ remaining ∨ (∃ version, s.tokens.pending.get k = some (t, version)) ∨
      exempt s scope request k = true) ∨
  ∃ k ∈ remaining, k ∈ s.tokens.keys ∧ missed s scope request k = true

section

variable {P : Hasher} {s s' : AuthState} {t u : TxnId} {txn other : Txn} {k : Uuid} {scope : Scope}
  {request : AuthRequest} {remaining : List Uuid}

theorem covered_beginRevoking :
    Covered (beginRevoking s t txn scope) t request scope
      (s.tokens.snapshot t fun _ row => scope.qualifies row) := by
  refine .inl fun k row hrow hqualifies => ?_
  by_cases hlock : ∃ version, s.tokens.pending.get k = some (t, version)
  · exact .inr (.inl hlock)
  · refine .inl (Table.mem_snapshot.mpr ⟨row, ?_, hqualifies⟩)
    rw [Table.view_eq_committed fun version h => hlock ⟨version, h⟩]
    exact hrow

theorem exempt_congr (h : s'.origin.get k = s.origin.get k) :
    exempt s' scope request k = exempt s scope request k := by
  unfold exempt
  rw [h]

theorem Covered.local (hcovered : Covered s t request scope remaining) (h : Local u s s')
    (hu : t ≠ u) : Covered s' t request scope remaining := by
  rcases hcovered with hall | ⟨k, hk, hkey, hmissed⟩
  · refine .inl fun k row hrow hqualifies => ?_
    rw [h.tokens.committed] at hrow
    refine (hall k row hrow hqualifies).imp_right (Or.imp ?_ ?_)
    · rintro ⟨version, hlock⟩
      exact ⟨version, (h.tokens.locks k t version hu).mpr hlock⟩
    · rw [exempt_congr (h.origin k (mem_keys_of_committed hrow))]
      exact id
  · refine .inr ⟨k, hk, h.tokens.keys k hkey, ?_⟩
    unfold missed at hmissed ⊢
    rw [h.rotated, exempt_congr (h.origin k hkey)]
    exact hmissed

/-- The UPDATE goes on to the next row. -/
theorem Covered.visit (hcovered : Covered s t txn.request scope remaining)
    (hphase : txn.phase = .revoking scope remaining)
    (hmissed : missed s scope txn.request k = false) (h : visit s t txn k = some s') :
    Covered s' t txn.request scope (remaining.erase k) := by
  have hlocal := visit_local h
  have horigin : s'.origin = s.origin ∧ s'.rotated = s.rotated := by
    obtain ⟨_, _, _, _, _, ⟨rfl, _⟩ | ⟨_, _, rfl⟩⟩ := visit_some h
    · exact ⟨rfl, rfl⟩
    · exact ⟨rfl, rfl⟩
  have hexempt : ∀ k, exempt s' scope txn.request k = exempt s scope txn.request k :=
    fun k => exempt_congr (by rw [horigin.1])
  have hpending : ∀ k', (∃ version, s.tokens.pending.get k' = some (t, version)) →
      ∃ version, s'.tokens.pending.get k' = some (t, version) := by
    rintro k' ⟨version, hlock⟩
    obtain ⟨_, _, _, _, _, ⟨rfl, _⟩ | ⟨current, _, rfl⟩⟩ := visit_some h
    · exact ⟨version, hlock⟩
    · by_cases hk : k' = k
      · subst hk
        exact ⟨_, Table.write_pending_self⟩
      · exact ⟨version, (Table.write_pending_ne hk).trans hlock⟩
  rcases hcovered with hall | ⟨k', hk', hkey, hmissed'⟩
  · refine .inl fun k' row hrow hqualifies => ?_
    rw [hlocal.tokens.committed] at hrow
    rw [hexempt]
    by_cases hlock : ∃ version, s.tokens.pending.get k' = some (t, version)
    · exact .inr (.inl (hpending k' hlock))
    · rcases hall k' row hrow hqualifies with hmem | hlocked | hexempted
      · by_cases hk : k' = k
        · subst hk
          refine .inr (.inl ?_)
          obtain ⟨scope', _, hphase', _, _, ⟨_, hnot⟩ | ⟨current, _, rfl⟩⟩ := visit_some h
          · -- it qualifies as committed, and that is what is seen of it
            rw [hphase] at hphase'
            cases hphase'
            rw [hnot row ((Table.view_eq_committed fun version h => hlock ⟨version, h⟩).trans hrow)]
              at hqualifies
            cases hqualifies
          · exact ⟨_, Table.write_pending_self⟩
        · exact .inl ((List.mem_erase_of_ne hk).mpr hmem)
      · exact absurd hlocked hlock
      · exact .inr (.inr hexempted)
  · have hk : k' ≠ k := by
      intro heq
      rw [heq, hmissed] at hmissed'
      cases hmissed'
    refine .inr ⟨k', (List.mem_erase_of_ne hk).mpr hk', hlocal.tokens.keys k' hkey, ?_⟩
    unfold missed at hmissed' ⊢
    rw [horigin.2, hexempt]
    exact hmissed'

theorem mem_rotated_commit (h : k ∈ s.rotated) : k ∈ (Auth.commit s u other).rotated := by
  unfold Auth.commit
  dsimp only
  split
  · exact List.mem_cons_of_mem _ h
  · exact h

/-- Another commit puts nothing under the scope that is not covered, unless it is a login's, or a
rotation's of a token the UPDATE has still to come to. -/
theorem Covered.commit (hcovered : Covered s t request scope remaining) (hown : Own s u)
    (hother : s.inflight.get u = some other) (hu : t ≠ u)
    (hlogin : ∀ email password k new, other.request = .login email password →
      other.phase = .written (some k) → Issued s u k new → scope.qualifies new = true →
        exempt s scope request k = true) :
    Covered (commit s u other) t request scope remaining := by
  have hexempt : ∀ k, exempt (Auth.commit s u other) scope request k = exempt s scope request k :=
    fun k => exempt_congr rfl
  rcases hcovered with hall | ⟨k, hk, hkey, hmissed⟩
  · refine or_iff_not_imp_right.mpr fun hnone k row hrow hqualifies => ?_
    have hlive : row.revokedAt = none := by
      unfold Scope.qualifies at hqualifies
      rw [Bool.and_eq_true] at hqualifies
      exact Option.isNone_iff_eq_none.mp hqualifies.2
    rw [hexempt]
    rcases unrevoked_of_commit hown hother hrow hlive with ⟨hbefore, _⟩ | ⟨hphase, hissued⟩
    · refine (hall k row hbefore hqualifies).imp_right (Or.imp_left ?_)
      rintro ⟨version, hlock⟩
      exact ⟨version, Table.commit_pending.mpr ⟨hlock, hu⟩⟩
    · have hsound := hown.sound other hother
      unfold Sound at hsound
      rw [hphase] at hsound
      cases hreq : other.request with
      | login email password =>
        exact .inr (.inr (hlogin email password k row hreq hphase hissued hqualifies))
      | refresh k' secret =>
        rw [hreq] at hsound
        obtain ⟨row', new, hheld, hissued', huser, hfamily, horigin⟩ := hsound
        obtain rfl : new = row := by
          have := hissued'.2.1
          rw [hissued.2.1] at this
          cases this
          rfl
        obtain ⟨version, hlock⟩ := hheld.2.2
        have hqualifies' : scope.qualifies row' = true := by
          unfold Scope.qualifies at hqualifies ⊢
          rw [Bool.and_eq_true] at hqualifies ⊢
          refine ⟨?_, by rw [hheld.2.1]; rfl⟩
          cases scope with
          | family familyId => simpa [Scope.covers, hfamily] using hqualifies.1
          | user userId => simpa [Scope.covers, huser] using hqualifies.1
        have hcarried : exempt s scope request k' = true → exempt s scope request k = true := by
          unfold exempt
          cases scope with
          | family familyId => simp
          | user userId =>
            cases request with
            | resetPassword token newPassword =>
              intro hfrom
              rw [decide_eq_true_eq] at hfrom ⊢
              rw [horigin, Dict.getD_of_get hfrom]
            | _ => simp
        rcases hall k' row' hheld.1 hqualifies' with hmem | ⟨version', hlock'⟩ | hexempted
        · by_cases hexempted : exempt s scope request k' = true
          · exact .inr (.inr (hcarried hexempted))
          · -- the UPDATE will come to the token that is rotated here
            have hkey : k' ∈ s.tokens.keys := mem_keys_of_committed hheld.1
            refine absurd ⟨k', hmem, hkey, ?_⟩ hnone
            unfold missed
            rw [hexempt, Bool.and_eq_true, Bool.not_eq_true']
            refine ⟨?_, Bool.eq_false_iff.mpr hexempted⟩
            simp [Auth.commit, hphase, hreq]
        · rw [hlock] at hlock'
          cases hlock'
          exact absurd rfl hu
        · exact .inr (.inr (hcarried hexempted))
      | _ =>
        rw [hreq] at hsound
        exact hsound.elim
  · refine .inr ⟨k, hk, hkey, ?_⟩
    unfold missed at hmissed ⊢
    rw [Bool.and_eq_true] at hmissed ⊢
    refine ⟨?_, by rw [hexempt]; exact hmissed.2⟩
    have hmem : k ∈ s.rotated := List.contains_iff_mem.mp hmissed.1
    exact List.contains_iff_mem.mpr (mem_rotated_commit hmem)

/-- An UPDATE that has come to every row leaves none that qualifies. -/
theorem Covered.done (hcovered : Covered s t txn.request scope []) (hown : Own s t)
    (htxn : s.inflight.get t = some txn) (hphase : txn.phase = .revoking scope []) {row : RefreshToken}
    (hrow : (Auth.commit s t txn).tokens.committed.get k = some row)
    (hqualifies : scope.qualifies row = true) : exempt s scope txn.request k = true := by
  rcases hcovered with hall | ⟨_, hk, _⟩
  · have hlive : row.revokedAt = none := by
      unfold Scope.qualifies at hqualifies
      rw [Bool.and_eq_true] at hqualifies
      exact Option.isNone_iff_eq_none.mp hqualifies.2
    rcases unrevoked_of_commit hown htxn hrow hlive with ⟨hbefore, hnone⟩ | ⟨hwritten, _⟩
    · rcases hall k row hbefore hqualifies with hmem | ⟨version, hlock⟩ | hexempted
      · cases hmem
      · exact absurd hlock (hnone version)
      · exact hexempted
    · rw [hphase] at hwritten
      cases hwritten
  · cases hk

end

end IotSaas.Auth
