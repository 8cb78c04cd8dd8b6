import IotSaas.Client.Storage

/-!
# `Client/Logout.lean` — a logout is final

Once a logout has returned and nothing is in flight, its tab finds no token and shows nobody, and no
token of the session it ended is any good (`Final`). The logout reads the token, has it revoked and
clears the session; it takes no lock. A refresh that is processed while it runs makes of the token
another one, which the logout has never seen: the old one is revoked to no effect, and the new one is
stored when everything has been cleared (`logout_undone`).

`logout_final` says that nothing else can go wrong: the logout is final in every order of steps in
which it does not read a token that the server has rotated already, and the server rotates none that
a logout has read.
-/

set_option autoImplicit false

namespace IotSaas.Client

open Lib Browser

/-! ## What is to hold -/

/-- No refresh waits for an answer, and every logout has returned. -/
def AllSettled (s : Browser) : Prop :=
  (∀ t attempt token, s.inFlight.get t ≠ some (.sent attempt token)) ∧
    (∀ t attempt token reply, s.inFlight.get t ≠ some (.answered attempt token reply)) ∧
    ∀ l ∈ s.logouts, l.resolved = true

/-- Every request has come to the server. -/
def AllReached (s : Browser) : Prop :=
  s.adrift = [] ∧ ∀ l ∈ s.logouts, l.token ≠ none → l.reached = true

/-- A token the server would take. -/
def TokenRow.live (row : TokenRow) : Bool := !row.revoked && !row.expired

def Final (s : Browser) : Prop :=
  AllSettled s → ∀ l ∈ s.logouts, l.resolved = true →
    s.readRefreshToken l.tab = none ∧ (s.tab l.tab).status = .unauthenticated ∧
      (AllReached s → l.token ≠ none →
        ∀ token row, s.server.rows.get token = some row → row.live = false)

/-- A logout has read the token. -/
def readByLogout (s : Browser) (token : Token) : Bool :=
  s.logouts.any fun l => decide (l.token = some token)

/-- The server would rotate the token, and a logout has read it. -/
def rotatesRead (s : Browser) (token : Token) : Bool :=
  ((s.server.rows.get token).any TokenRow.live) && readByLogout s token

/-- A logout and a rotation come to one token. -/
def crossesLogout (s : Browser) : BrowserEvent → Bool
  | .logout t => (s.readRefreshToken t).any fun token => s.server.rotated.contains token
  | .arrive t _ =>
      match s.inFlight.get t with
      | some (.sent _ token) => rotatesRead s token
      | _ => false
  | .arriveLate token _ => rotatesRead s token
  | _ => false

abbrev Uncrossed (s : Browser) (e : BrowserEvent) : Prop := crossesLogout s e = false

/-! ## What holds between the steps -/

/-- No logout has read a token. -/
def NoneRead (s : Browser) : Prop := ∀ l ∈ s.logouts, l.token = none

/-- One token of the family has not been rotated, and all others are revoked. -/
structure Headed (server : Server) : Prop where
  issued : ∀ token ∈ server.rotated, server.rows.get token ≠ none
  head : ∃ head, ∀ token row, server.rows.get token = some row → token ≠ head →
    token ∈ server.rotated ∧ row.revoked = true

structure Closing (home : Option Tab) (s : Browser) : Prop where
  oneHome : OneHome home s
  exclusive : Exclusive s
  headed : Headed s.server
  /-- A token a logout has read stays as it was. -/
  kept : ∀ l ∈ s.logouts, ∀ token, l.token = some token →
    s.server.rows.get token ≠ none ∧ token ∉ s.server.rotated
  stored : ∀ t token, s.readRefreshToken t = some token → s.server.rows.get token ≠ none
  sent : NoneRead s → ∀ t attempt token, s.inFlight.get t = some (.sent attempt token) →
    s.readRefreshToken t = some token
  /-- A new pair is on its way only where the old token is still stored, and no logout has read it. -/
  pair : ∀ t attempt token next, s.inFlight.get t = some (.answered attempt token (.pair next)) →
    NoneRead s ∧ token ∈ s.server.rotated ∧ s.readRefreshToken t = some token ∧
      s.server.rows.get next ≠ none
  absent : ∀ l ∈ s.logouts, l.token = none → s.readRefreshToken l.tab = none
  done : ∀ l ∈ s.logouts, l.resolved = true →
    s.readRefreshToken l.tab = none ∧ (s.tab l.tab).status = .unauthenticated
  revoked : ∀ l ∈ s.logouts, l.reached = true → ∀ token row, l.token = some token →
    s.server.rows.get token = some row → row.revoked = true

section

variable {home : Option Tab} {s s' : Browser} {t u : Tab} {run : Run} {token next : Token}

/-! ## Steps of a refresh -/

/-- A step of one tab's refresh that neither stores nor asks anything; the tab's status may come to
be that of nobody. -/
theorem Closing.turn (h : Closing home s) (hexclusive : Exclusive s')
    (hl : s'.localStorage = s.localStorage) (hs : s'.sessionStorage = s.sessionStorage)
    (hserver : s'.server = s.server) (hlogouts : s'.logouts = s.logouts)
    (hothers : ∀ u, u ≠ t → s'.inFlight.get u = s.inFlight.get u)
    (hstatus : ∀ u, (s.tab u).status = .unauthenticated → (s'.tab u).status = .unauthenticated)
    (hpair : ∀ attempt token next, s'.inFlight.get t = some (.answered attempt token (.pair next)) →
      NoneRead s ∧ token ∈ s.server.rotated ∧ s.readRefreshToken t = some token ∧
        s.server.rows.get next ≠ none)
    (hsent : ∀ attempt token, s'.inFlight.get t = some (.sent attempt token) →
      s.readRefreshToken t = some token) : Closing home s' where
  oneHome := h.oneHome.congr hl hs
  exclusive := hexclusive
  headed := by
    rw [hserver]
    exact h.headed
  kept := by
    rw [hserver, hlogouts]
    exact h.kept
  stored := by
    intro u token hread
    rw [readRefreshToken_congr hl hs] at hread
    rw [hserver]
    exact h.stored u token hread
  sent := by
    intro hnone u attempt token hrun
    unfold NoneRead at hnone
    rw [hlogouts] at hnone
    rw [readRefreshToken_congr hl hs]
    by_cases hu : u = t
    · rw [hu] at hrun ⊢
      exact hsent attempt token hrun
    · rw [hothers u hu] at hrun
      exact h.sent hnone u attempt token hrun
  pair := by
    intro u attempt token next hrun
    unfold NoneRead
    rw [hlogouts, readRefreshToken_congr hl hs, hserver]
    by_cases hu : u = t
    · rw [hu] at hrun ⊢
      exact hpair attempt token next hrun
    · rw [hothers u hu] at hrun
      exact h.pair u attempt token next hrun
  absent := by
    intro l hmem
    rw [hlogouts] at hmem
    rw [readRefreshToken_congr hl hs]
    exact h.absent l hmem
  done := by
    intro l hmem hresolved
    rw [hlogouts] at hmem
    rw [readRefreshToken_congr hl hs]
    obtain ⟨hread, hnobody⟩ := h.done l hmem hresolved
    exact ⟨hread, hstatus l.tab hnobody⟩
  revoked := by
    rw [hserver, hlogouts]
    exact h.revoked

theorem tab_setTab {state : TabState} :
    (s.setTab t state).tab u = if u = t then state else s.tab u := by
  unfold Browser.tab Browser.setTab
  by_cases hu : u = t
  · rw [if_pos hu, hu]
    exact Dict.getD_set_self _ _ _ _
  · rw [if_neg hu]
    exact Dict.getD_set_ne _ _ _ hu

/-- A refresh goes on. -/
theorem Closing.goOn (h : Closing home s) (hexclusive : Exclusive (s.goOn t run))
    (hpair : ∀ attempt token next, run = .answered attempt token (.pair next) →
      NoneRead s ∧ token ∈ s.server.rotated ∧ s.readRefreshToken t = some token ∧
        s.server.rows.get next ≠ none)
    (hsent : ∀ attempt token, run = .sent attempt token → s.readRefreshToken t = some token) :
    Closing home (s.goOn t run) := by
  have hself : (s.goOn t run).inFlight.get t = some run := Dict.get_set_self _ _ _
  refine h.turn hexclusive rfl rfl rfl rfl (fun u hu => Dict.get_set_ne _ _ hu) (fun _ h => h) ?_ ?_
  · intro attempt token next hrun
    rw [hself] at hrun
    exact hpair attempt token next (Option.some.inj hrun)
  · intro attempt token hrun
    rw [hself] at hrun
    exact hsent attempt token (Option.some.inj hrun)

/-- A refresh ends, and its tab shows what it showed, or nobody. -/
theorem Closing.endRun {state : TabState} (h : Closing home s)
    (hexclusive : Exclusive ((s.setTab t state).endRun t))
    (hstate : (s.tab t).status = .unauthenticated → state.status = .unauthenticated) :
    Closing home ((s.setTab t state).endRun t) := by
  have hself : ((s.setTab t state).endRun t).inFlight.get t = none := Dict.get_erase_self _ _
  refine h.turn hexclusive rfl rfl rfl rfl (fun u hu => Dict.get_erase_ne _ hu) (fun u hnobody => ?_)
    (fun _ _ _ hrun => ?_) fun _ _ hrun => ?_
  · show ((s.setTab t state).tab u).status = .unauthenticated
    rw [tab_setTab]
    split
    · rename_i hu
      rw [hu] at hnobody
      exact hstate hnobody
    · exact hnobody
  · rw [hself] at hrun
    cases hrun
  · rw [hself] at hrun
    cases hrun

theorem Closing.retry (h : Closing home s) (hlock : s.lock = some t) (attempt : Nat) :
    Closing home (s.retry t attempt) := by
  have hexclusive := h.exclusive.retry hlock attempt
  unfold Browser.retry at hexclusive ⊢
  split at hexclusive
  · rename_i hlast
    rw [if_pos hlast]
    refine h.endRun hexclusive fun hnobody => ?_
    split
    · exact hnobody
    · rfl
  · rename_i hmore
    rw [if_neg hmore]
    exact h.goOn hexclusive (fun _ _ _ h => by cases h) fun _ _ h => by cases h

/-! ## What the server does -/

/-- Beside a token that is not revoked, or not rotated, all others are both. -/
theorem Headed.others {server : Server} {row : TokenRow} (h : Headed server)
    (hrow : server.rows.get token = some row)
    (hgood : row.revoked = false ∨ token ∉ server.rotated) {other : Token} {row' : TokenRow}
    (hrow' : server.rows.get other = some row') (hne : other ≠ token) :
    other ∈ server.rotated ∧ row'.revoked = true := by
  obtain ⟨head, hhead⟩ := h.head
  obtain rfl : token = head := by
    by_contra hnot
    obtain ⟨hrotated, hrevoked⟩ := hhead token row hrow hnot
    rcases hgood with hlive | hunrotated
    · rw [hrevoked] at hlive
      cases hlive
    · exact hunrotated hrotated
  exact hhead other row' hrow' hne

theorem Headed.rotate {server : Server} (h : Headed server) :
    Headed (server.rotate token next).1 := by
  rcases rotate_cases server token next with
    ⟨hrows, hrotated, _⟩ | ⟨_, _, _, hrows, hrotated, _⟩ |
      ⟨row, hrow, hlive, _, hrows, hrotated, _⟩
  · refine ⟨?_, ?_⟩
    · rw [hrows, hrotated]
      exact h.issued
    · rw [hrows, hrotated]
      exact h.head
  · refine ⟨fun token' hmem => ?_, ?_⟩
    · rw [hrotated] at hmem
      rw [hrows, Dict.get_mapValues, ne_eq, Option.map_eq_none_iff]
      exact h.issued token' hmem
    · obtain ⟨head, hhead⟩ := h.head
      refine ⟨head, fun token' row' hrow' hne => ?_⟩
      rw [hrows, Dict.get_mapValues] at hrow'
      obtain ⟨before, hbefore, rfl⟩ := Option.map_eq_some_iff.mp hrow'
      rw [hrotated]
      exact ⟨(hhead token' before hbefore hne).1, rfl⟩
  · refine ⟨fun token' hmem => ?_, next, fun token' row' hrow' hne => ?_⟩
    · rw [hrotated] at hmem
      rw [hrows, Dict.get_set, Dict.get_set]
      split
      · exact Option.some_ne_none _
      · split
        · exact Option.some_ne_none _
        · rename_i htoken
          exact h.issued token' ((List.mem_cons.mp hmem).resolve_left htoken)
    · rw [hrows, Dict.get_set, if_neg hne, Dict.get_set] at hrow'
      rw [hrotated]
      split at hrow'
      · rename_i htoken
        cases hrow'
        exact ⟨by rw [htoken]; exact List.mem_cons_self, rfl⟩
      · rename_i htoken
        obtain ⟨hmem, hrevoked⟩ := h.others hrow (.inl hlive) hrow' htoken
        exact ⟨List.mem_cons_of_mem _ hmem, hrevoked⟩

/-- A token is revoked, or none of them is any more. -/
theorem Headed.of_revoked {server server' : Server} (h : Headed server)
    (hrotated : server'.rotated = server.rotated)
    (hrows : ∀ token row, server'.rows.get token = some row →
      ∃ before, server.rows.get token = some before ∧ (before.revoked = true → row.revoked = true))
    (hkeys : ∀ token, server.rows.get token ≠ none → server'.rows.get token ≠ none) :
    Headed server' := by
  refine ⟨fun token hmem => ?_, ?_⟩
  · rw [hrotated] at hmem
    exact hkeys token (h.issued token hmem)
  · obtain ⟨head, hhead⟩ := h.head
    refine ⟨head, fun token row hrow hne => ?_⟩
    obtain ⟨before, hbefore, hrevokes⟩ := hrows token row hrow
    obtain ⟨hmem, hrevoked⟩ := hhead token before hbefore hne
    rw [hrotated]
    exact ⟨hmem, hrevokes hrevoked⟩

/-- A row is only ever marked, and never goes. -/
theorem revoke_rows (server : Server) (token : Token) :
    (server.revoke token).rotated = server.rotated ∧
      ∀ other, (server.revoke token).rows.get other =
        (server.rows.get other).map fun row =>
          if other = token then { row with revoked := true } else row := by
  unfold Server.revoke
  split
  · rename_i hnone
    refine ⟨rfl, fun other => ?_⟩
    by_cases hother : other = token
    · rw [hother, hnone]
      rfl
    · simp [hother]
  · rename_i row hrow
    refine ⟨rfl, fun other => ?_⟩
    by_cases hother : other = token
    · rw [hother, Dict.get_set_self, hrow]
      simp
    · rw [Dict.get_set_ne _ _ hother]
      simp [hother]

/-- What a request does to the session, on the server: marks that are never taken back, and a
rotation only where no logout has read a token. -/
theorem served_kept (next : Token) (h : Closing home s) (hok : rotatesRead s token = false) :
    (∀ other, s.server.rows.get other ≠ none →
        (s.server.rotate token next).1.rows.get other ≠ none) ∧
      (∀ other ∈ s.server.rotated, other ∈ (s.server.rotate token next).1.rotated) ∧
      (∀ l ∈ s.logouts, ∀ other row, l.token = some other →
        (s.server.rotate token next).1.rows.get other = some row →
          other ∉ (s.server.rotate token next).1.rotated ∧
            ∃ before, s.server.rows.get other = some before ∧
              (before.revoked = true → row.revoked = true)) ∧
      ∀ answer, (s.server.rotate token next).2 = .pair answer →
        answer = next ∧ NoneRead s ∧ token ∈ (s.server.rotate token next).1.rotated ∧
          (s.server.rotate token next).1.rows.get next ≠ none := by
  have hheaded := h.headed
  rcases rotate_cases s.server token next with
    ⟨hrows, hrotated, _, hreply⟩ | ⟨_, _, _, hrows, hrotated, hreply⟩ |
      ⟨row, hrow, hrevoked, hexpired, hrows, hrotated, _, hreply⟩
  · rw [hrows, hrotated, hreply]
    refine ⟨fun _ hother => hother, fun _ hother => hother, fun l hmem other row hl hrow => ?_,
      fun _ heq => by cases heq⟩
    exact ⟨(h.kept l hmem other hl).2, row, hrow, id⟩
  · rw [hrows, hrotated, hreply]
    refine ⟨fun other hother => ?_, fun _ hother => hother, fun l hmem other row hl hrow => ?_,
      fun _ heq => by cases heq⟩
    · rw [Dict.get_mapValues, ne_eq, Option.map_eq_none_iff]
      exact hother
    · rw [Dict.get_mapValues] at hrow
      obtain ⟨before, hbefore, rfl⟩ := Option.map_eq_some_iff.mp hrow
      exact ⟨(h.kept l hmem other hl).2, before, hbefore, fun _ => rfl⟩
  · -- the token is live, so it is the one a logout would have read
    have hnone : NoneRead s := by
      intro l hmem
      cases hl : l.token with
      | none => rfl
      | some other =>
        obtain ⟨hother, hunrotated⟩ := h.kept l hmem other hl
        obtain ⟨row', hrow'⟩ := Option.ne_none_iff_exists'.mp hother
        have hsame : other = token := by
          by_contra hne
          exact hunrotated (hheaded.others hrow (.inl hrevoked) hrow' hne).1
        have hread : readByLogout s token = true := by
          unfold readByLogout
          rw [List.any_eq_true]
          exact ⟨l, hmem, by rw [hl, hsame]; simp⟩
        simp [rotatesRead, hrow, TokenRow.live, hrevoked, hexpired, hread] at hok
    rw [hrows, hrotated, hreply]
    refine ⟨fun other hother => ?_, fun _ hother => List.mem_cons_of_mem _ hother,
      fun l hmem other _ hl _ => ?_, fun answer heq => ?_⟩
    · rw [Dict.get_set, Dict.get_set]
      split
      · exact Option.some_ne_none _
      · split
        · exact Option.some_ne_none _
        · exact hother
    · rw [hnone l hmem] at hl
      cases hl
    · cases heq
      refine ⟨rfl, hnone, List.mem_cons_self, ?_⟩
      rw [Dict.get_set_self]
      exact Option.some_ne_none _

/-- A request is served, and its sender knows nothing of it yet. -/
theorem Closing.serve (next : Token) (h : Closing home s) (hok : rotatesRead s token = false) :
    Closing home { s with server := (s.server.rotate token next).1 } := by
  obtain ⟨hkeys, hgrows, hread, _⟩ := served_kept next h hok
  refine ⟨h.oneHome, h.exclusive, h.headed.rotate, fun l hmem other hl => ?_,
    fun t other hother => hkeys other (h.stored t other hother), h.sent,
    fun t attempt other answer hrun => ?_, h.absent, h.done,
    fun l hmem hreached other row hl hrow => ?_⟩
  · have hother := hkeys other (h.kept l hmem other hl).1
    obtain ⟨row, hrow⟩ := Option.ne_none_iff_exists'.mp hother
    exact ⟨hother, (hread l hmem other row hl hrow).1⟩
  · obtain ⟨hnone, hrotated, hstored, hanswer⟩ := h.pair t attempt other answer hrun
    exact ⟨hnone, hgrows other hrotated, hstored, hkeys answer hanswer⟩
  · obtain ⟨_, before, hbefore, hrevoked⟩ := hread l hmem other row hl hrow
    exact hrevoked (h.revoked l hmem hreached other before hl hbefore)

theorem Closing.arrive {attempt : Nat} (h : Closing home s)
    (hrun : s.inFlight.get t = some (.sent attempt token)) (hok : rotatesRead s token = false)
    (hexclusive : Exclusive ({ s with server := (s.server.rotate token next).1 }.goOn t
      (.answered attempt token (s.server.rotate token next).2))) :
    Closing home ({ s with server := (s.server.rotate token next).1 }.goOn t
      (.answered attempt token (s.server.rotate token next).2)) := by
  refine (h.serve next hok).goOn hexclusive (fun attempt' token' answer heq => ?_)
    fun _ _ heq => by cases heq
  obtain ⟨_, _, _, hanswer⟩ := served_kept next h hok
  cases hreply : (s.server.rotate token next).2 with
  | rejected =>
    rw [hreply] at heq
    cases heq
  | pair answer' =>
    obtain ⟨rfl, hnone, hrotated, hissued⟩ := hanswer answer' hreply
    rw [hreply] at heq
    cases heq
    exact ⟨hnone, hrotated, h.sent hnone t attempt token hrun, hissued⟩

/-! ## What is stored and what is cleared -/

/-- Past the lock, its refresh over, nobody waits for an answer. -/
theorem Closing.idle (h : Closing home s) (hrun : s.inFlight.get t = some run)
    (hpast : run ≠ .waiting) {inFlight : Dict Tab Run} (hinFlight : inFlight = s.inFlight.erase t)
    {other : Run} (hother : inFlight.get u = some other) : other = .waiting := by
  subst hinFlight
  by_cases hu : u = t
  · rw [hu, Dict.get_erase_self] at hother
    cases hother
  · rw [Dict.get_erase_ne _ hu] at hother
    exact h.exclusive.others hrun hpast hu hother

theorem Closing.deliverPair {attempt : Nat} {presented : Token} (h : Closing home s)
    (hrun : s.inFlight.get t = some (.answered attempt presented (.pair next)))
    (hexclusive : Exclusive ((s.applySession t next).endRun t)) :
    Closing home ((s.applySession t next).endRun t) := by
  obtain ⟨hnone, _, hread, hissued⟩ := h.pair t attempt presented next hrun
  obtain ⟨honeHome, hreads⟩ := h.oneHome.apply next hread
  have hkept : (s.applySession t next).server = s.server ∧
      (s.applySession t next).logouts = s.logouts ∧
      (s.applySession t next).inFlight = s.inFlight ∧
      (s.applySession t next).tabs = s.tabs.set t ⟨.authenticated, true⟩ := by
    unfold applySession writeRefreshToken
    split <;> exact ⟨rfl, rfl, rfl, rfl⟩
  obtain ⟨hserver, hlogouts, hinFlight, htabs⟩ := hkept
  have hidle : ∀ u other, ((s.applySession t next).endRun t).inFlight.get u = some other →
      other = .waiting := fun u other hother =>
    h.idle hrun (by simp) (congrArg (Dict.erase · t) hinFlight) hother
  -- a tab that finds nothing finds nothing after it
  have habsent : ∀ u, s.readRefreshToken u = none →
      ((s.applySession t next).endRun t).readRefreshToken u = none := by
    intro u hu
    show (s.applySession t next).readRefreshToken u = none
    rw [hreads u, hu]
    rfl
  refine ⟨honeHome, hexclusive, hserver ▸ h.headed, ?_, fun u other hother => ?_,
    fun _ u attempt' other hsent => ?_, fun u attempt' other answer hpair => ?_,
    fun l hmem hl => ?_, fun l hmem hresolved => ?_, ?_⟩
  · show ∀ l ∈ (s.applySession t next).logouts, ∀ token, l.token = some token →
      (s.applySession t next).server.rows.get token ≠ none ∧
        token ∉ (s.applySession t next).server.rotated
    rw [hserver, hlogouts]
    exact h.kept
  · change (s.applySession t next).readRefreshToken u = some other at hother
    show (s.applySession t next).server.rows.get other ≠ none
    rw [hreads u] at hother
    obtain ⟨_, _, rfl⟩ := Option.map_eq_some_iff.mp hother
    rw [hserver]
    exact hissued
  · cases hidle u _ hsent
  · cases hidle u _ hpair
  · change l ∈ (s.applySession t next).logouts at hmem
    rw [hlogouts] at hmem
    exact habsent l.tab (h.absent l hmem hl)
  · change l ∈ (s.applySession t next).logouts at hmem
    rw [hlogouts] at hmem
    obtain ⟨habsent', hnobody⟩ := h.done l hmem hresolved
    refine ⟨habsent l.tab habsent', ?_⟩
    have htab : l.tab ≠ t := by
      intro heq
      rw [heq, hread] at habsent'
      cases habsent'
    show (((s.applySession t next).tabs.getD l.tab {})).status = .unauthenticated
    rw [htabs, Dict.getD_set_ne _ _ _ htab]
    exact hnobody
  · show ∀ l ∈ (s.applySession t next).logouts, l.reached = true → ∀ token row,
      l.token = some token → (s.applySession t next).server.rows.get token = some row → _
    rw [hserver, hlogouts]
    exact h.revoked

/-- Clearing a session keeps every tab that is signed out so. -/
theorem clearSession_nobody (h : (s.tab u).status = .unauthenticated) :
    ((s.clearSession t).tab u).status = .unauthenticated := by
  show ((s.tabs.set t ⟨.unauthenticated, false⟩).getD u {}).status = .unauthenticated
  by_cases hu : u = t
  · rw [hu, Dict.getD_set_self]
  · rw [Dict.getD_set_ne _ _ _ hu]
    exact h

theorem clearSession_absent (h : s.readRefreshToken u = none) :
    (s.clearSession t).readRefreshToken u = none := by
  cases hread : (s.clearSession t).readRefreshToken u with
  | none => rfl
  | some token =>
    rw [clearSession_read hread] at h
    cases h

theorem Closing.deliverRejected {attempt : Nat} {presented : Token} (h : Closing home s)
    (hrun : s.inFlight.get t = some (.answered attempt presented .rejected))
    (hexclusive : Exclusive ((s.clearSession t).endRun t)) :
    Closing home ((s.clearSession t).endRun t) := by
  have hidle : ∀ u other, ((s.clearSession t).endRun t).inFlight.get u = some other →
      other = .waiting := fun u other hother => h.idle hrun (by simp) rfl hother
  refine ⟨h.oneHome.clear, hexclusive, h.headed, h.kept,
    fun u token hread => h.stored u token (clearSession_read hread),
    fun _ u attempt' other hsent => ?_, fun u attempt' other answer hpair => ?_,
    fun l hmem hl => clearSession_absent (h.absent l hmem hl), fun l hmem hresolved => ?_, h.revoked⟩
  · cases hidle u _ hsent
  · cases hidle u _ hpair
  · obtain ⟨habsent, hnobody⟩ := h.done l hmem hresolved
    exact ⟨clearSession_absent habsent, clearSession_nobody hnobody⟩

/-! ## Steps of a logout -/

theorem Closing.logout (h : Closing home s)
    (hok : ∀ token, s.readRefreshToken t = some token → token ∉ s.server.rotated) :
    Closing home { s with logouts := s.logouts ++ [⟨t, s.readRefreshToken t, false, false⟩] } := by
  have hcases : ∀ l, l ∈ s.logouts ++ [⟨t, s.readRefreshToken t, false, false⟩] →
      l ∈ s.logouts ∨ l = ⟨t, s.readRefreshToken t, false, false⟩ := by
    intro l hmem
    rcases List.mem_append.mp hmem with hmem | hmem
    · exact .inl hmem
    · exact .inr (List.mem_singleton.mp hmem)
  refine ⟨h.oneHome, h.exclusive, h.headed, fun l hmem token hl => ?_, h.stored,
    fun hnone => h.sent fun l hmem => hnone l (List.mem_append_left _ hmem),
    fun u attempt token next hrun => ?_, fun l hmem hl => ?_, fun l hmem hresolved => ?_,
    fun l hmem hreached => ?_⟩
  · rcases hcases l hmem with hmem | rfl
    · exact h.kept l hmem token hl
    · exact ⟨h.stored t token hl, hok token hl⟩
  · obtain ⟨hnone, hrotated, hread, hissued⟩ := h.pair u attempt token next hrun
    refine ⟨fun l hmem => ?_, hrotated, hread, hissued⟩
    rcases hcases l hmem with hmem | rfl
    · exact hnone l hmem
    · -- what it would have read is the token that is being replaced
      cases hread' : s.readRefreshToken t with
      | none => rfl
      | some token' =>
        rw [h.oneHome.unique hread hread'] at hrotated
        exact absurd hrotated (hok token' hread')
  · rcases hcases l hmem with hmem | rfl
    · exact h.absent l hmem hl
    · exact hl
  · rcases hcases l hmem with hmem | rfl
    · exact h.done l hmem hresolved
    · cases hresolved
  · rcases hcases l hmem with hmem | rfl
    · exact h.revoked l hmem hreached
    · cases hreached

theorem Closing.logoutArrives {i : Nat} {resolved : Bool} (h : Closing home s)
    (hl : s.logouts[i]? = some ⟨t, some token, false, resolved⟩) :
    Closing home { s with
      server := s.server.revoke token
      logouts := s.logouts.set i ⟨t, some token, true, resolved⟩ } := by
  have hmem : (⟨t, some token, false, resolved⟩ : Logout) ∈ s.logouts := List.mem_of_getElem? hl
  obtain ⟨hrotated, hrows⟩ := revoke_rows s.server token
  have hkeys : ∀ other, s.server.rows.get other ≠ none →
      (s.server.revoke token).rows.get other ≠ none := by
    intro other hother
    rw [hrows, ne_eq, Option.map_eq_none_iff]
    exact hother
  have hcases : ∀ l, l ∈ s.logouts.set i ⟨t, some token, true, resolved⟩ →
      l ∈ s.logouts ∨ l = ⟨t, some token, true, resolved⟩ := fun l hmem =>
    List.mem_or_eq_of_mem_set hmem
  have hback : ∀ other row, (s.server.revoke token).rows.get other = some row →
      ∃ before, s.server.rows.get other = some before ∧
        (before.revoked = true → row.revoked = true) ∧ (other = token → row.revoked = true) := by
    intro other row hrow
    rw [hrows] at hrow
    obtain ⟨before, hbefore, rfl⟩ := Option.map_eq_some_iff.mp hrow
    refine ⟨before, hbefore, fun hrevoked => ?_, fun heq => ?_⟩
    · split
      · rfl
      · exact hrevoked
    · rw [if_pos heq]
  refine ⟨h.oneHome, h.exclusive, h.headed.of_revoked hrotated (fun other row hrow => ?_) hkeys,
    fun l hl other hother => ?_, fun u other hread => hkeys other (h.stored u other hread),
    fun hnone u attempt other hrun => ?_, fun u attempt other next hrun => ?_, fun l hl hnone => ?_,
    fun l hl hresolved => ?_, fun l hl hreached other row hother hrow => ?_⟩
  · obtain ⟨before, hbefore, hrevokes, _⟩ := hback other row hrow
    exact ⟨before, hbefore, hrevokes⟩
  · dsimp only
    rw [hrotated]
    rcases hcases l hl with hl | rfl
    · exact ⟨hkeys other (h.kept l hl other hother).1, (h.kept l hl other hother).2⟩
    · exact ⟨hkeys other (h.kept _ hmem other hother).1, (h.kept _ hmem other hother).2⟩
  · -- a logout that has read a token is there
    have hthere := List.mem_set (List.getElem?_eq_some_iff.mp hl).1 ⟨t, some token, true, resolved⟩
    cases hnone _ hthere
  · obtain ⟨hnone, _⟩ := h.pair u attempt other next hrun
    cases hnone _ hmem
  · rcases hcases l hl with hl | rfl
    · exact h.absent l hl hnone
    · cases hnone
  · rcases hcases l hl with hl | rfl
    · exact h.done l hl hresolved
    · exact h.done ⟨t, some token, false, resolved⟩ hmem hresolved
  · obtain ⟨before, hbefore, hrevokes, hself⟩ := hback other row hrow
    rcases hcases l hl with hl | rfl
    · exact hrevokes (h.revoked l hl hreached other before hother hbefore)
    · exact hself (Option.some.inj hother).symm

/-- Where a tab finds nothing there is nothing to clear. -/
theorem clearSession_of_absent (h : s.readRefreshToken t = none)
    (hu : s.readRefreshToken u = some token) :
    (s.clearSession t).readRefreshToken u = some token := by
  unfold readRefreshToken at h hu ⊢
  rw [Option.or_eq_none_iff] at h
  rw [h.2, Option.or_none] at hu
  rw [show (s.clearSession t).localStorage = none from rfl, Option.or_none]
  by_cases htu : u = t
  · rw [htu, h.1] at hu
    cases hu
  · rw [show (s.clearSession t).sessionStorage.get u = s.sessionStorage.get u from
      Dict.get_erase_ne _ htu]
    exact hu

theorem Closing.logoutResolves {i : Nat} {token : Option Token} {reached : Bool}
    (h : Closing home s) (hl : s.logouts[i]? = some ⟨t, token, reached, false⟩) :
    Closing home { s.clearSession t with
      logouts := s.logouts.set i ⟨t, token, reached, true⟩ } := by
  have hmem : (⟨t, token, reached, false⟩ : Logout) ∈ s.logouts := List.mem_of_getElem? hl
  have hcases : ∀ l, l ∈ s.logouts.set i ⟨t, token, reached, true⟩ →
      l ∈ s.logouts ∨ l = ⟨t, token, reached, true⟩ := fun l hmem => List.mem_or_eq_of_mem_set hmem
  have hthere := List.mem_set (List.getElem?_eq_some_iff.mp hl).1 ⟨t, token, reached, true⟩
  -- a call that has read nothing had nothing to clear
  have hstays : NoneRead { s.clearSession t with
      logouts := s.logouts.set i ⟨t, token, reached, true⟩ } →
      NoneRead s ∧ s.readRefreshToken t = none := by
    intro hnone
    have hself : token = none := hnone _ hthere
    refine ⟨fun l hmem' => ?_, h.absent _ hmem hself⟩
    obtain ⟨j, hj⟩ := List.mem_iff_getElem?.mp hmem'
    by_cases hij : i = j
    · rw [← hij, hl] at hj
      cases hj
      exact hself
    · exact hnone l (List.mem_of_getElem? (by rw [List.getElem?_set_ne hij]; exact hj))
  refine ⟨h.oneHome.clear.congr rfl rfl, h.exclusive, h.headed, fun l hl' other hother => ?_,
    fun u other hread => h.stored u other (clearSession_read hread), fun hnone u attempt other hrun => ?_,
    fun u attempt other next hrun => ?_, fun l hl' hnone => ?_, fun l hl' hresolved => ?_,
    fun l hl' hreached other row hother hrow => ?_⟩
  · rcases hcases l hl' with hl' | rfl
    · exact h.kept l hl' other hother
    · exact h.kept ⟨t, token, reached, false⟩ hmem other hother
  · obtain ⟨hnone, habsent⟩ := hstays hnone
    exact clearSession_of_absent habsent (h.sent hnone u attempt other hrun)
  · obtain ⟨hnone, hrotated, hread, hissued⟩ := h.pair u attempt other next hrun
    refine ⟨fun l hl' => ?_, hrotated, ?_, hissued⟩
    · rcases hcases l hl' with hl' | rfl
      · exact hnone l hl'
      · exact hnone ⟨t, token, reached, false⟩ hmem
    · have habsent := h.absent ⟨t, token, reached, false⟩ hmem (hnone _ hmem)
      exact clearSession_of_absent habsent hread
  · rcases hcases l hl' with hl' | rfl
    · exact clearSession_absent (h.absent l hl' hnone)
    · exact clearSession_self
  · rcases hcases l hl' with hl' | rfl
    · obtain ⟨habsent, hnobody⟩ := h.done l hl' hresolved
      exact ⟨clearSession_absent habsent, clearSession_nobody hnobody⟩
    · refine ⟨clearSession_self, ?_⟩
      show ((s.tabs.set t ⟨.unauthenticated, false⟩).getD t {}).status = .unauthenticated
      rw [Dict.getD_set_self]
  · rcases hcases l hl' with hl' | rfl
    · exact h.revoked l hl' hreached other row hother hrow
    · exact h.revoked ⟨t, token, reached, false⟩ hmem hreached other row hother hrow

/-- **One step**, one case for each kind. -/
theorem closing_step {e : BrowserEvent} (h : Closing home s) (hok : Uncrossed s e)
    (hstep : browserStep s e = some s') : Closing home s' := by
  have hexclusive := exclusive_step h.exclusive hstep
  cases BrowserMove.of_step hstep with
  | joined => exact h
  | queued | woken => exact h.goOn hexclusive (fun _ _ _ h => by cases h) fun _ _ h => by cases h
  | @locked t =>
    have hself : ({ s.goOn t (.reading 0) with lock := some t } : Browser).inFlight.get t =
        some (.reading 0) := Dict.get_set_self _ _ _
    -- It has the lock and has not read yet, so nothing of it is in flight.
    refine h.turn hexclusive rfl rfl rfl rfl (fun u hu => Dict.get_set_ne _ _ hu) (fun _ h => h)
      (fun _ _ _ hrun => ?_) fun _ _ hrun => ?_
    · rw [hself] at hrun
      cases hrun
    · rw [hself] at hrun
      cases hrun
  | @read t attempt hrun =>
    unfold readToken at hexclusive ⊢
    split
    · rename_i hnone
      rw [hnone] at hexclusive
      exact h.endRun hexclusive fun _ => rfl
    · rename_i token hread
      rw [hread] at hexclusive
      refine h.goOn hexclusive (fun _ _ _ h => by cases h) fun attempt' token' heq => ?_
      cases heq
      exact hread
  | served hrun =>
    refine h.arrive hrun ?_ hexclusive
    simpa [Uncrossed, crossesLogout, hrun] using hok
  | renewed hrun => exact h.deliverPair hrun hexclusive
  | refused hrun => exact h.deliverRejected hrun hexclusive
  | @strayed t attempt token hrun =>
    have hdrop : Closing home { s with adrift := token :: s.adrift } :=
      ⟨h.oneHome, h.exclusive, h.headed, h.kept, h.stored, h.sent, h.pair, h.absent, h.done,
        h.revoked⟩
    exact hdrop.retry (h.exclusive t _ hrun (by simp)) attempt
  | unanswered hrun => exact h.retry (h.exclusive _ _ hrun (by simp)) _
  | @servedLate token next =>
    have hserved := h.serve next hok
    exact ⟨hserved.oneHome, hexclusive, hserved.headed, hserved.kept, hserved.stored, hserved.sent,
      hserved.pair, hserved.absent, hserved.done, hserved.revoked⟩
  | @lapsed token row hrow =>
    -- Expiry neither drops a row nor takes a revocation back.
    have hkeys : ∀ other, s.server.rows.get other ≠ none →
        (s.server.rows.set token { row with expired := true }).get other ≠ none := by
      intro other hother
      rw [Dict.get_set]
      split
      · exact Option.some_ne_none _
      · exact hother
    have hback : ∀ other row', (s.server.rows.set token { row with expired := true }).get other =
        some row' → ∃ before, s.server.rows.get other = some before ∧
          (before.revoked = true → row'.revoked = true) := by
      intro other row' hrow'
      rw [Dict.get_set] at hrow'
      split at hrow'
      · rename_i heq
        cases hrow'
        exact ⟨row, by rw [heq, hrow], id⟩
      · exact ⟨row', hrow', id⟩
    refine ⟨h.oneHome, hexclusive, h.headed.of_revoked rfl hback hkeys,
      fun l hmem other hl => ⟨hkeys other (h.kept l hmem other hl).1, (h.kept l hmem other hl).2⟩,
      fun u other hread => hkeys other (h.stored u other hread), h.sent,
      fun u attempt other next hrun => ?_, h.absent, h.done,
      fun l hmem hreached other row' hl hrow' => ?_⟩
    · obtain ⟨hnone, hrotated, hread, hissued⟩ := h.pair u attempt other next hrun
      exact ⟨hnone, hrotated, hread, hkeys next hissued⟩
    · obtain ⟨before, hbefore, hrevokes⟩ := hback other row' hrow'
      exact hrevokes (h.revoked l hmem hreached other before hl hbefore)
  | logout =>
    refine h.logout fun token hread => ?_
    simpa [Uncrossed, crossesLogout, hread] using hok
  | logoutServed hl => exact h.logoutArrives hl
  | loggedOut hl => exact h.logoutResolves hl

/-- A token that a logout has read and had revoked was the last one. -/
theorem Closing.final (h : Closing home s) : Final s := by
  intro _ l hmem hresolved
  obtain ⟨habsent, hnobody⟩ := h.done l hmem hresolved
  refine ⟨habsent, hnobody, fun hreached htoken other row hrow => ?_⟩
  obtain ⟨token, hl⟩ := Option.ne_none_iff_exists'.mp htoken
  obtain ⟨hissued, hunrotated⟩ := h.kept l hmem token hl
  obtain ⟨row', hrow'⟩ := Option.ne_none_iff_exists'.mp hissued
  have hrevoked : row.revoked = true := by
    by_cases hother : other = token
    · rw [hother] at hrow
      exact h.revoked l hmem (hreached.2 l hmem htoken) token row hl hrow
    · exact (h.headed.others hrow' (.inr hunrotated) hrow hother).2
  simp [TokenRow.live, hrevoked]

end

/-- **A logout is final**, whatever interleaves, while no rotation crosses it. -/
theorem logout_final (home : Option Tab) (token : Token) {s : Browser}
    (h : Reaches browserStep Uncrossed (start home token) s) : Final s := by
  have hrow : ∀ other row, (start home token).server.rows.get other = some row → other = token := by
    intro other row hrow
    change (Dict.empty.set token {}).get other = some row at hrow
    rw [Dict.get_set] at hrow
    split at hrow
    · assumption
    · cases hrow
  have hstart : Closing home (start home token) :=
    { oneHome := start_oneHome
      exclusive := fun t run hrun => (by cases hrun)
      headed := ⟨fun other hmem => (by cases hmem), token, fun other row hother hne =>
        absurd (hrow other row hother) hne⟩
      kept := fun l hmem => (by cases hmem)
      stored := fun t other hread => by
        obtain rfl : token = other := by
          cases home with
          | none => exact Option.some.inj hread
          | some a =>
            change ((Dict.empty.set a token).get t).or none = some other at hread
            rw [Option.or_none, Dict.get_set] at hread
            split at hread
            · exact Option.some.inj hread
            · cases hread
        show (Dict.empty.set token ({} : TokenRow)).get token ≠ none
        rw [Dict.get_set_self]
        exact Option.some_ne_none _
      sent := fun _ t attempt other hrun => (by cases hrun)
      pair := fun t attempt other next hrun => (by cases hrun)
      absent := fun l hmem => (by cases hmem)
      done := fun l hmem => (by cases hmem)
      revoked := fun l hmem => (by cases hmem) }
  have hclosing : Closing home s :=
    h.invariant hstart fun _ _ _ ih ok hstep => closing_step ih ok hstep
  exact hclosing.final

/-! ## A logout, and a refresh in flight -/

/-- A tab signs out while another has a refresh in flight; the logout comes first. -/
def logoutFirst : List BrowserEvent :=
  [.refresh 1, .acquire 1, .read 1, .logout 0, .logoutArrives 0, .arrive 1 "t2",
    .logoutResolves 0, .deliver 1]

/-- The refresh comes first, and its answer last. -/
def refreshFirst : List BrowserEvent :=
  [.refresh 0, .acquire 0, .read 0, .logout 0, .arrive 0 "t2", .logoutArrives 0,
    .logoutResolves 0, .deliver 0]

theorem logout_final_first :
    ∃ s, run (guarded browserStep Uncrossed) (start none "t1") logoutFirst = some s ∧
      s.logouts = [⟨0, some "t1", true, true⟩] ∧ Final s := by
  obtain ⟨s, hs⟩ : ∃ s, run (guarded browserStep Uncrossed) (start none "t1") logoutFirst = some s :=
    Option.isSome_iff_exists.mp (by decide +kernel)
  have hlogouts : (run (guarded browserStep Uncrossed) (start none "t1") logoutFirst).map
      Browser.logouts = some [⟨0, some "t1", true, true⟩] := by decide +kernel
  rw [hs] at hlogouts
  exact ⟨s, hs, Option.some.inj hlogouts, logout_final none "t1" (.of_run_guarded hs)⟩

/-- **A refresh undoes the logout it crosses**: its token is stored, its tab signed in, its session
good. -/
theorem logout_undone :
    ¬∀ home token s, Reaches browserStep Always (start home token) s → Final s := by
  intro h
  have hrun : (run browserStep (start none "t1") refreshFirst).map (fun s =>
      (s.logouts, s.lock, s.localStorage)) =
      some ([⟨0, some "t1", true, true⟩], none, some "t2") := by decide +kernel
  obtain ⟨s, hs, hparts⟩ := Option.map_eq_some_iff.mp hrun
  simp only [Prod.mk.injEq] at hparts
  obtain ⟨hlogouts, hfree, hstored⟩ := hparts
  have hexclusive : Exclusive s := (Reaches.of_run hs).invariant
    (fun t run hrun => by cases hrun) fun _ _ _ ih _ hstep => exclusive_step ih hstep
  -- nobody has the lock, so nobody is past it
  have hidle : ∀ t run, s.inFlight.get t = some run → run = .waiting := by
    intro t run hrun
    by_contra hpast
    have hlock := hexclusive t run hrun hpast
    rw [hfree] at hlock
    cases hlock
  have hsettled : AllSettled s := by
    refine ⟨fun t attempt token hrun => ?_, fun t attempt token reply hrun => ?_, ?_⟩
    · cases hidle t _ hrun
    · cases hidle t _ hrun
    · rw [hlogouts]
      simp
  have hfinal := h none "t1" s (.of_run hs) hsettled ⟨0, some "t1", true, true⟩
    (by rw [hlogouts]; simp) rfl
  have hread := hfinal.1
  unfold readRefreshToken at hread
  rw [hstored] at hread
  simp at hread

end IotSaas.Client
