import IotSaas.Client.Browser

/-!
# `Client/Storage.lean` — one session, one refresh

The two facts every run of a browser rests on: the session is in one place (`OneHome`), so all tabs
that find one find the same; and the lock admits one refresh at a time (`Exclusive`).
-/

set_option autoImplicit false

namespace IotSaas.Client

open Lib Browser

/-! ## Where a session is kept -/

/-- The session is in `localStorage`, or in the `sessionStorage` of one tab, and nowhere else. -/
def OneHome (home : Option Tab) (s : Browser) : Prop :=
  match home with
  | none => ∀ t, s.sessionStorage.get t = none
  | some t => s.localStorage = none ∧ ∀ u, u ≠ t → s.sessionStorage.get u = none

section

variable {home : Option Tab} {s s' : Browser} {t u : Tab} {token token' : Token}

theorem OneHome.congr (h : OneHome home s) (hl : s'.localStorage = s.localStorage)
    (hs : s'.sessionStorage = s.sessionStorage) : OneHome home s' := by
  unfold OneHome at h ⊢
  rw [hl, hs]
  exact h

theorem readRefreshToken_congr (hl : s'.localStorage = s.localStorage)
    (hs : s'.sessionStorage = s.sessionStorage) : s'.readRefreshToken t = s.readRefreshToken t := by
  unfold readRefreshToken
  rw [hl, hs]

/-- All who find a session find the same. -/
theorem OneHome.unique (h : OneHome home s) (ht : s.readRefreshToken t = some token)
    (hu : s.readRefreshToken u = some token') : token = token' := by
  unfold readRefreshToken at ht hu
  cases home with
  | none =>
    rw [h t, Option.none_or] at ht
    rw [h u, Option.none_or, ht] at hu
    exact Option.some.inj hu
  | some a =>
    rw [h.1, Option.or_none] at ht hu
    by_cases hta : t = a
    · by_cases hua : u = a
      · rw [hta] at ht
        rw [hua, ht] at hu
        exact Option.some.inj hu
      · rw [h.2 u hua] at hu
        cases hu
    · rw [h.2 t hta] at ht
      cases ht

/-- A new pair goes where the session is. -/
theorem OneHome.apply (token' : Token) (h : OneHome home s)
    (ht : s.readRefreshToken t = some token) :
    OneHome home (s.applySession t token') ∧
      ∀ u, (s.applySession t token').readRefreshToken u =
        (s.readRefreshToken u).map fun _ => token' := by
  unfold readRefreshToken at ht ⊢
  cases home with
  | none =>
    have hkept : s.isKept t = true := by
      unfold isKept
      rw [h t]
      rfl
    have hlocal : s.localStorage = some token := by
      rw [h t, Option.none_or] at ht
      exact ht
    have hnone : ∀ u, (s.applySession t token').sessionStorage.get u = none := by
      intro u
      unfold applySession writeRefreshToken
      rw [hkept]
      by_cases hu : u = t
      · rw [hu]
        exact Dict.get_erase_self _ _
      · exact (Dict.get_erase_ne _ hu).trans (h u)
    refine ⟨hnone, fun u => ?_⟩
    rw [hnone u, h u, hlocal]
    unfold applySession writeRefreshToken
    rw [hkept]
    rfl
  | some a =>
    rw [h.1, Option.or_none] at ht
    obtain rfl : t = a := by
      by_contra hne
      rw [h.2 t hne] at ht
      cases ht
    have hkept : s.isKept t = false := by
      unfold isKept
      rw [ht]
      rfl
    have hstores : (s.applySession t token').localStorage = none ∧
        (s.applySession t token').sessionStorage = s.sessionStorage.set t token' := by
      unfold applySession writeRefreshToken
      rw [hkept]
      exact ⟨rfl, rfl⟩
    refine ⟨⟨hstores.1, fun u hu => ?_⟩, fun u => ?_⟩
    · rw [hstores.2, Dict.get_set_ne _ _ hu]
      exact h.2 u hu
    · rw [hstores.1, hstores.2, h.1, Option.or_none, Option.or_none]
      by_cases hu : u = t
      · rw [hu, Dict.get_set_self, ht]
        rfl
      · rw [Dict.get_set_ne _ _ hu, h.2 u hu]
        rfl

theorem clearSession_sessionStorage (u : Tab) :
    (s.clearSession t).sessionStorage.get u = none ∨
      (s.clearSession t).sessionStorage.get u = s.sessionStorage.get u := by
  by_cases hu : u = t
  · rw [hu]
    exact .inl (Dict.get_erase_self _ _)
  · exact .inr (Dict.get_erase_ne _ hu)

theorem OneHome.clear (h : OneHome home s) : OneHome home (s.clearSession t) := by
  have hnone : ∀ u, s.sessionStorage.get u = none → (s.clearSession t).sessionStorage.get u = none := by
    intro u hu
    rcases clearSession_sessionStorage (s := s) (t := t) u with hclear | hsame
    · exact hclear
    · exact hsame.trans hu
  cases home with
  | none => exact fun u => hnone u (h u)
  | some a => exact ⟨rfl, fun u hu => hnone u (h.2 u hu)⟩

/-- Clearing a session shows nobody another one. -/
theorem clearSession_read (h : (s.clearSession t).readRefreshToken u = some token) :
    s.readRefreshToken u = some token := by
  unfold readRefreshToken at h ⊢
  rw [show (s.clearSession t).localStorage = none from rfl, Option.or_none] at h
  rcases clearSession_sessionStorage (s := s) (t := t) u with hclear | hsame
  · rw [hclear] at h
    cases h
  · rw [hsame] at h
    rw [h]
    rfl

theorem clearSession_self : (s.clearSession t).readRefreshToken t = none := by
  unfold readRefreshToken
  rw [show (s.clearSession t).sessionStorage.get t = none from Dict.get_erase_self _ _]
  rfl

theorem start_oneHome : OneHome home (start home token) := by
  cases home with
  | none => exact fun t => rfl
  | some a => exact ⟨rfl, fun u hu => Dict.get_set_ne _ _ hu⟩

end

/-! ## What the server answers -/

section

variable {s s' : Browser} {token next : Token} {reply : Reply}

theorem serve_some (h : serve s token next = some (s', reply)) :
    s.server.rows.get next = none ∧ s' = { s with server := (s.server.rotate token next).1 } ∧
      reply = (s.server.rotate token next).2 := by
  unfold serve at h
  split at h
  · cases h
  · rename_i hfresh
    cases h
    exact ⟨hfresh, rfl, rfl⟩

theorem BrowserMove.of_step {e : BrowserEvent} (h : browserStep s e = some s') :
    BrowserMove s e s' := by
  unfold browserStep at h
  split at h
  · split at h
    · rename_i hrun
      cases h
      exact .joined hrun
    · rename_i hidle
      cases h
      exact .queued hidle
  · split at h
    · rename_i hrun hfree
      cases h
      exact .locked hrun hfree
    · cases h
  · split at h
    · rename_i hrun
      cases h
      exact .read hrun
    · cases h
  · split at h
    · rename_i hrun
      obtain ⟨⟨served, reply⟩, hserve, rfl⟩ := Option.map_eq_some_iff.mp h
      obtain ⟨hfresh, rfl, rfl⟩ := serve_some hserve
      exact .served hrun hfresh
    · cases h
  · split at h
    · rename_i hrun
      cases h
      exact .renewed hrun
    · rename_i hrun
      cases h
      exact .refused hrun
    · cases h
  · split at h
    · rename_i hrun
      cases h
      exact .strayed hrun
    · rename_i hrun
      cases h
      exact .unanswered hrun
    · cases h
  · split at h
    · rename_i hrun
      cases h
      exact .woken hrun
    · cases h
  · obtain ⟨hadrift, h⟩ := Option.ite_none_right_eq_some.mp h
    obtain ⟨⟨served, reply⟩, hserve, rfl⟩ := Option.map_eq_some_iff.mp h
    obtain ⟨hfresh, rfl, rfl⟩ := serve_some hserve
    exact .servedLate hadrift hfresh
  · obtain ⟨row, hrow, rfl⟩ := Option.map_eq_some_iff.mp h
    exact .lapsed hrow
  · cases h
    exact .logout
  · split at h
    · rename_i hl
      cases h
      exact .logoutServed hl
    · cases h
  · split at h
    · rename_i hl
      cases h
      exact .loggedOut hl
    · cases h

/-- What is made of a token: nothing, a family revoked, or a pair for one that was good. -/
theorem rotate_cases (server : Server) (token next : Token) :
    ((server.rotate token next).1.rows = server.rows ∧
        (server.rotate token next).1.rotated = server.rotated ∧
        (server.rotate token next).1.familyRevoked = server.familyRevoked ∧
        (server.rotate token next).2 = .rejected) ∨
      (∃ row, server.rows.get token = some row ∧ row.revoked = true ∧
        (server.rotate token next).1.rows =
          server.rows.mapValues (fun row => { row with revoked := true }) ∧
        (server.rotate token next).1.rotated = server.rotated ∧
        (server.rotate token next).2 = .rejected) ∨
      ∃ row, server.rows.get token = some row ∧ row.revoked = false ∧ row.expired = false ∧
        (server.rotate token next).1.rows =
          (server.rows.set token { row with revoked := true }).set next {} ∧
        (server.rotate token next).1.rotated = token :: server.rotated ∧
        (server.rotate token next).1.familyRevoked = server.familyRevoked ∧
        (server.rotate token next).2 = .pair next := by
  unfold Server.rotate
  dsimp only
  split
  · exact .inl ⟨rfl, rfl, rfl, rfl⟩
  · rename_i row hrow
    split
    · exact .inl ⟨rfl, rfl, rfl, rfl⟩
    · rename_i hexpired
      split
      · rename_i hrevoked
        exact .inr (.inl ⟨row, hrow, hrevoked, rfl, rfl, rfl⟩)
      · rename_i hrevoked
        exact .inr (.inr ⟨row, hrow, Bool.eq_false_iff.mpr hrevoked, Bool.eq_false_iff.mpr hexpired,
          rfl, rfl, rfl, rfl⟩)

theorem rotate_replays (server : Server) (token next : Token) :
    (server.rotate token next).1.replays =
      if token ∈ server.rotated then token :: server.replays else server.replays := by
  unfold Server.rotate
  dsimp only
  split
  · rfl
  · split
    · rfl
    · split <;> rfl

end

/-! ## One refresh at a time -/

/-- Whoever is past the lock has it. -/
def Exclusive (s : Browser) : Prop :=
  ∀ t run, s.inFlight.get t = some run → run ≠ .waiting → s.lock = some t

section

variable {s s' : Browser} {t u : Tab} {run : Run}

theorem Exclusive.goOn (h : Exclusive s) (hold : s.lock = some t) : Exclusive (s.goOn t run) := by
  intro u other hother hpast
  by_cases hu : u = t
  · rw [hu]
    exact hold
  · rw [show (s.goOn t run).inFlight.get u = s.inFlight.get u from Dict.get_set_ne _ _ hu] at hother
    exact h u other hother hpast

theorem Exclusive.endRun (h : Exclusive s) (hold : s.lock = some t) : Exclusive (s.endRun t) := by
  intro u other hother hpast
  by_cases hu : u = t
  · rw [hu, show (s.endRun t).inFlight.get t = none from Dict.get_erase_self _ _] at hother
    cases hother
  · rw [show (s.endRun t).inFlight.get u = s.inFlight.get u from Dict.get_erase_ne _ hu] at hother
    have hlock := h u other hother hpast
    rw [hold] at hlock
    exact absurd (Option.some.inj hlock).symm hu

theorem Exclusive.retry (h : Exclusive s) (hold : s.lock = some t) (attempt : Nat) :
    Exclusive (s.retry t attempt) := by
  unfold Browser.retry
  split
  · exact Exclusive.endRun (s := s.setTab t _) h hold
  · exact h.goOn hold

/-- While one is past the lock the others wait. -/
theorem Exclusive.others (h : Exclusive s) (hrun : s.inFlight.get t = some run)
    (hpast : run ≠ .waiting) {other : Run} (hu : u ≠ t) (hother : s.inFlight.get u = some other) :
    other = .waiting := by
  by_contra hne
  have hlock := h u other hother hne
  rw [h t run hrun hpast] at hlock
  exact hu (Option.some.inj hlock).symm

theorem exclusive_step {e : BrowserEvent} (h : Exclusive s) (hstep : browserStep s e = some s') :
    Exclusive s' := by
  cases BrowserMove.of_step hstep with
  | joined | servedLate | lapsed | logout | logoutServed | loggedOut => exact h
  | @queued t =>
    -- it is in flight now, but not past the lock
    intro u other hother hpast
    by_cases hu : u = t
    · rw [hu, show (s.goOn t .waiting).inFlight.get t = some .waiting from
        Dict.get_set_self _ _ _] at hother
      cases hother
      exact absurd rfl hpast
    · rw [show (s.goOn t .waiting).inFlight.get u = s.inFlight.get u from
        Dict.get_set_ne _ _ hu] at hother
      exact h u other hother hpast
  | @locked t hrun hfree =>
    -- the lock was free, so nobody was past it
    intro u other hother hpast
    by_cases hu : u = t
    · rw [hu]
    · rw [show (s.goOn t (.reading 0)).inFlight.get u = s.inFlight.get u from
        Dict.get_set_ne _ _ hu] at hother
      have hlock := h u other hother hpast
      rw [hfree] at hlock
      cases hlock
  | @read t attempt hrun =>
    have hlock := h t _ hrun (by simp)
    unfold readToken
    split
    · exact Exclusive.endRun (s := s.setTab t _) h hlock
    · exact h.goOn hlock
  | served hrun => exact Exclusive.goOn (s := { s with server := _ }) h (h _ _ hrun (by simp))
  | @renewed t attempt old token hrun =>
    have hlock := h t _ hrun (by simp)
    unfold applySession writeRefreshToken
    split
    · exact Exclusive.endRun (s := (setTab _ t _)) h hlock
    · exact Exclusive.endRun (s := (setTab _ t _)) h hlock
  | @refused t attempt old hrun =>
    exact Exclusive.endRun (s := s.clearSession t) h (h t _ hrun (by simp))
  | @strayed t attempt token hrun =>
    exact Exclusive.retry (s := { s with adrift := token :: s.adrift }) h (h t _ hrun (by simp)) attempt
  | unanswered hrun => exact h.retry (h _ _ hrun (by simp)) _
  | woken hrun => exact h.goOn (h _ _ hrun (by simp))

end

end IotSaas.Client
