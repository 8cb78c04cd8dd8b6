import IotSaas.Client.Storage

/-!
# `Client/Refresh.lean` — no token is presented twice

A rotated token that comes again is taken for a stolen one, and ends the session. The tabs see to it
that a refresh never runs twice with one token: those of a tab share one promise, those of different
tabs a lock, and the token is read again under it. `refresh_never_replays` says that this is so, for
any number of tabs and any order of steps, as long as every refresh that the server has acted on is
answered to the tab that sent it.

It does not stop at that: a response that is lost is a failure like any other, and the next attempt
sends the token it has read again, which is the old one (`refresh_replays`).
-/

set_option autoImplicit false

namespace IotSaas.Client

open Lib Browser

/-- A logout. -/
def signsOut : BrowserEvent → Bool
  | .logout _ => true
  | _ => false

/-- A refresh the server acts on, or has acted on, is not answered to the tab that sent it. -/
def losesResponse (s : Browser) : BrowserEvent → Bool
  | .fail t =>
      match s.inFlight.get t with
      | some (.answered _ _ (.pair _)) => true
      | _ => false
  | .arriveLate token _ =>
      ((s.server.rows.get token).any fun row => !row.expired) || s.server.rotated.contains token
  | _ => false

/-- Nobody signs out, and no response is lost. -/
abbrev Answered (s : Browser) (e : BrowserEvent) : Prop :=
  (signsOut e || losesResponse s e) = false

/-! ## What holds between the steps -/

/-- The answer with a new pair is on its way to `t`. -/
def PairUnderWay (s : Browser) (t : Tab) (token : Token) : Prop :=
  ∃ attempt presented, s.inFlight.get t = some (.answered attempt presented (.pair token))

structure Orderly (home : Option Tab) (s : Browser) : Prop where
  oneHome : OneHome home s
  exclusive : Exclusive s
  issued : ∀ token ∈ s.server.rotated, s.server.rows.get token ≠ none
  /-- Only a rotation revokes. -/
  revoked : ∀ token row, s.server.rows.get token = some row → row.revoked = true →
    token ∈ s.server.rotated
  /-- What is stored is good, unless a new pair is on its way. -/
  stored : (∀ t token, ¬PairUnderWay s t token) → ∀ t token, s.readRefreshToken t = some token →
    token ∉ s.server.rotated
  sent : ∀ t attempt token, s.inFlight.get t = some (.sent attempt token) →
    token ∉ s.server.rotated ∧ s.readRefreshToken t = some token
  pair : ∀ t token, PairUnderWay s t token →
    token ∉ s.server.rotated ∧ ∃ old, s.readRefreshToken t = some old
  noReplay : s.server.replays = []
  noRevocation : s.server.familyRevoked = false
  noLogout : s.logouts = []

section

variable {home : Option Tab} {s s' : Browser} {t u : Tab} {run : Run}

/-- A step of one tab's refresh that neither stores nor asks anything. -/
theorem Orderly.turn (h : Orderly home s) (hexclusive : Exclusive s')
    (hl : s'.localStorage = s.localStorage) (hs : s'.sessionStorage = s.sessionStorage)
    (hserver : s'.server = s.server) (hlogouts : s'.logouts = s.logouts)
    (hothers : ∀ u, u ≠ t → s'.inFlight.get u = s.inFlight.get u)
    (hbefore : ∀ token, ¬PairUnderWay s t token) (hafter : ∀ token, ¬PairUnderWay s' t token)
    (hsent : ∀ attempt token, s'.inFlight.get t = some (.sent attempt token) →
      token ∉ s.server.rotated ∧ s.readRefreshToken t = some token) : Orderly home s' where
  oneHome := h.oneHome.congr hl hs
  exclusive := hexclusive
  issued := by
    rw [hserver]
    exact h.issued
  revoked := by
    rw [hserver]
    exact h.revoked
  stored := by
    intro hnone u token hread
    rw [readRefreshToken_congr hl hs] at hread
    rw [hserver]
    refine h.stored (fun u token hpair => ?_) u token hread
    by_cases hu : u = t
    · rw [hu] at hpair
      exact hbefore token hpair
    · refine hnone u token ?_
      unfold PairUnderWay
      rw [hothers u hu]
      exact hpair
  sent := by
    intro u attempt token hrun
    rw [readRefreshToken_congr hl hs, hserver]
    by_cases hu : u = t
    · rw [hu] at hrun ⊢
      exact hsent attempt token hrun
    · rw [hothers u hu] at hrun
      exact h.sent u attempt token hrun
  pair := by
    intro u token hpair
    rw [readRefreshToken_congr hl hs, hserver]
    by_cases hu : u = t
    · rw [hu] at hpair
      exact absurd hpair (hafter token)
    · unfold PairUnderWay at hpair
      rw [hothers u hu] at hpair
      exact h.pair u token hpair
  noReplay := by
    rw [hserver]
    exact h.noReplay
  noRevocation := by
    rw [hserver]
    exact h.noRevocation
  noLogout := hlogouts.trans h.noLogout

/-- Its refresh being somewhere else, no pair is on its way to it. -/
theorem no_pair (hrun : s.inFlight.get t = some run)
    (hnot : ∀ attempt presented token, run ≠ .answered attempt presented (.pair token))
    (token : Token) : ¬PairUnderWay s t token := by
  rintro ⟨attempt, presented, hpair⟩
  rw [hrun] at hpair
  exact hnot attempt presented token (Option.some.inj hpair)

/-- While `t` is past the lock no pair is on its way to another. -/
theorem Orderly.no_pair_other (h : Orderly home s) (hrun : s.inFlight.get t = some run)
    (hpast : run ≠ .waiting) (hu : u ≠ t) (token : Token) : ¬PairUnderWay s u token := by
  rintro ⟨attempt, presented, hpair⟩
  cases h.exclusive.others hrun hpast hu hpair

theorem Orderly.goOn (h : Orderly home s) (hexclusive : Exclusive (s.goOn t run))
    (hbefore : ∀ token, ¬PairUnderWay s t token)
    (hnot : ∀ attempt presented token, run ≠ .answered attempt presented (.pair token))
    (hsent : ∀ attempt token, run = .sent attempt token →
      token ∉ s.server.rotated ∧ s.readRefreshToken t = some token) :
    Orderly home (s.goOn t run) := by
  have hself : (s.goOn t run).inFlight.get t = some run := Dict.get_set_self _ _ _
  refine h.turn hexclusive rfl rfl rfl rfl (fun u hu => Dict.get_set_ne _ _ hu) hbefore
    (no_pair hself hnot) fun attempt token hrun => ?_
  rw [hself] at hrun
  exact hsent attempt token (Option.some.inj hrun)

/-- A refresh ends as it was. -/
theorem Orderly.endRun (h : Orderly home s) (hexclusive : Exclusive (s.endRun t))
    (hbefore : ∀ token, ¬PairUnderWay s t token) : Orderly home (s.endRun t) := by
  have hself : (s.endRun t).inFlight.get t = none := Dict.get_erase_self _ _
  refine h.turn hexclusive rfl rfl rfl rfl (fun u hu => Dict.get_erase_ne _ hu) hbefore ?_ ?_
  · rintro token ⟨_, _, hpair⟩
    rw [hself] at hpair
    cases hpair
  · intro attempt token hrun
    rw [hself] at hrun
    cases hrun

theorem Orderly.setTab (h : Orderly home s) (state : TabState) : Orderly home (s.setTab t state) :=
  ⟨h.oneHome, h.exclusive, h.issued, h.revoked, h.stored, h.sent, h.pair, h.noReplay, h.noRevocation,
    h.noLogout⟩

theorem Orderly.retry (h : Orderly home s) (hlock : s.lock = some t)
    (hbefore : ∀ token, ¬PairUnderWay s t token) (attempt : Nat) :
    Orderly home (s.retry t attempt) := by
  have hexclusive := h.exclusive.retry hlock attempt
  unfold Browser.retry at hexclusive ⊢
  split at hexclusive
  · rename_i hlast
    rw [if_pos hlast]
    exact (h.setTab _).endRun hexclusive hbefore
  · rename_i hmore
    rw [if_neg hmore]
    exact h.goOn hexclusive hbefore (fun _ _ _ h => by cases h) (fun _ _ h => by cases h)

/-- The server answers a token that was never rotated. -/
theorem Orderly.arrive {attempt : Nat} {token next : Token} (h : Orderly home s)
    (hrun : s.inFlight.get t = some (.sent attempt token)) (hfresh : s.server.rows.get next = none)
    (hexclusive : Exclusive ({ s with server := (s.server.rotate token next).1 }.goOn t
      (.answered attempt token (s.server.rotate token next).2))) :
    Orderly home ({ s with server := (s.server.rotate token next).1 }.goOn t
      (.answered attempt token (s.server.rotate token next).2)) := by
  obtain ⟨hunrotated, hread⟩ := h.sent t attempt token hrun
  have hreplays : (s.server.rotate token next).1.replays = [] := by
    rw [rotate_replays, if_neg hunrotated]
    exact h.noReplay
  have hnone : ∀ u token, ¬PairUnderWay s u token := by
    intro u other
    by_cases hu : u = t
    · rw [hu]
      exact no_pair hrun (fun _ _ _ h => by cases h) other
    · exact h.no_pair_other hrun (by simp) hu other
  have hnosent : ∀ u, u ≠ t → ∀ attempt token, s.inFlight.get u ≠ some (.sent attempt token) := by
    intro u hu attempt token hsent
    cases h.exclusive.others hrun (by simp) hu hsent
  rcases rotate_cases s.server token next with
    ⟨hrows, hrotated, hfamily, hreply⟩ | ⟨row, hrow, hrevoked, _⟩ |
      ⟨row, hrow, _, _, hrows, hrotated, hfamily, hreply⟩
  · -- nothing has changed but the answer
    have hserved : Orderly home { s with server := (s.server.rotate token next).1 } :=
      { oneHome := h.oneHome
        exclusive := h.exclusive
        issued := by
          dsimp only
          rw [hrotated, hrows]
          exact h.issued
        revoked := by
          dsimp only
          rw [hrotated, hrows]
          exact h.revoked
        stored := by
          dsimp only
          rw [hrotated]
          exact h.stored
        sent := by
          dsimp only
          rw [hrotated]
          exact h.sent
        pair := by
          dsimp only
          rw [hrotated]
          exact h.pair
        noReplay := hreplays
        noRevocation := hfamily.trans h.noRevocation
        noLogout := h.noLogout }
    refine hserved.goOn hexclusive (hnone t) (fun _ _ _ heq => ?_) fun _ _ heq => by cases heq
    rw [hreply] at heq
    cases heq
  · exact absurd (h.revoked token row hrow hrevoked) hunrotated
  · -- the token was good, and is answered with a new one
    rw [hreply] at hexclusive ⊢
    have hself : ({ s with server := (s.server.rotate token next).1 }.goOn t
        (.answered attempt token (.pair next))).inFlight.get t =
        some (.answered attempt token (.pair next)) := Dict.get_set_self _ _ _
    have hother : ∀ u, u ≠ t → ({ s with server := (s.server.rotate token next).1 }.goOn t
        (.answered attempt token (.pair next))).inFlight.get u = s.inFlight.get u :=
      fun u hu => Dict.get_set_ne _ _ hu
    have hnext : next ≠ token := by
      intro heq
      rw [heq, hrow] at hfresh
      cases hfresh
    refine ⟨h.oneHome, hexclusive, fun token' hmem => ?_, fun token' row' hrow' hrevoked => ?_,
      fun hnot => ?_, fun u attempt' token' hsent => ?_, fun u token' hpair => ?_, hreplays,
      hfamily.trans h.noRevocation, h.noLogout⟩
    · change token' ∈ (s.server.rotate token next).1.rotated at hmem
      show (s.server.rotate token next).1.rows.get token' ≠ none
      rw [hrotated] at hmem
      rw [hrows, Dict.get_set, Dict.get_set]
      rcases List.mem_cons.mp hmem with rfl | hmem
      · rw [if_pos rfl]
        split <;> exact Option.some_ne_none _
      · split
        · exact Option.some_ne_none _
        · split
          · exact Option.some_ne_none _
          · exact h.issued token' hmem
    · change (s.server.rotate token next).1.rows.get token' = some row' at hrow'
      show token' ∈ (s.server.rotate token next).1.rotated
      rw [hrows, Dict.get_set, Dict.get_set] at hrow'
      rw [hrotated]
      split at hrow'
      · cases hrow'
        cases hrevoked
      · split at hrow'
        · rename_i htoken
          rw [htoken]
          exact List.mem_cons_self
        · exact List.mem_cons_of_mem _ (h.revoked token' row' hrow' hrevoked)
    · exact absurd ⟨attempt, token, hself⟩ (hnot t next)
    · by_cases hu : u = t
      · rw [hu, hself] at hsent
        cases hsent
      · rw [hother u hu] at hsent
        exact absurd hsent (hnosent u hu attempt' token')
    · by_cases hu : u = t
      · rw [hu] at hpair ⊢
        obtain ⟨_, _, hpair⟩ := hpair
        rw [hself] at hpair
        cases hpair
        refine ⟨?_, token, hread⟩
        show next ∉ (s.server.rotate token next).1.rotated
        rw [hrotated, List.mem_cons, not_or]
        exact ⟨hnext, fun hmem => h.issued next hmem hfresh⟩
      · unfold PairUnderWay at hpair
        rw [hother u hu] at hpair
        exact absurd hpair (hnone u token')

/-- The new pair is stored where the old token was. -/
theorem Orderly.deliverPair {attempt : Nat} {presented token : Token} (h : Orderly home s)
    (hrun : s.inFlight.get t = some (.answered attempt presented (.pair token)))
    (hexclusive : Exclusive ((s.applySession t token).endRun t)) :
    Orderly home ((s.applySession t token).endRun t) := by
  obtain ⟨hunrotated, old, hread⟩ := h.pair t token ⟨attempt, presented, hrun⟩
  obtain ⟨honeHome, hreads⟩ := h.oneHome.apply token hread
  have hkept : (s.applySession t token).server = s.server ∧
      (s.applySession t token).logouts = s.logouts := by
    unfold applySession writeRefreshToken
    split <;> exact ⟨rfl, rfl⟩
  have hserver : ((s.applySession t token).endRun t).server = s.server := hkept.1
  have hflight : (s.applySession t token).inFlight = s.inFlight := by
    unfold applySession writeRefreshToken
    split <;> rfl
  have hidle : ∀ u run, ((s.applySession t token).endRun t).inFlight.get u = some run →
      run = .waiting := by
    intro u run hother
    by_cases hu : u = t
    · rw [hu, show ((s.applySession t token).endRun t).inFlight.get t = none from
        Dict.get_erase_self _ _] at hother
      cases hother
    · rw [show ((s.applySession t token).endRun t).inFlight.get u =
        (s.applySession t token).inFlight.get u from Dict.get_erase_ne _ hu, hflight] at hother
      exact h.exclusive.others hrun (by simp) hu hother
  refine ⟨honeHome, hexclusive, ?_, ?_, fun _ u token' hread' => ?_, fun u attempt' token' hsent => ?_,
    fun u token' hpair => ?_, ?_, ?_, ?_⟩
  · rw [hserver]
    exact h.issued
  · rw [hserver]
    exact h.revoked
  · change (s.applySession t token).readRefreshToken u = some token' at hread'
    rw [hserver]
    rw [hreads u] at hread'
    obtain ⟨_, _, rfl⟩ := Option.map_eq_some_iff.mp hread'
    exact hunrotated
  · cases hidle u _ hsent
  · obtain ⟨_, _, hpair⟩ := hpair
    cases hidle u _ hpair
  · exact (congrArg Server.replays hserver).trans h.noReplay
  · exact (congrArg Server.familyRevoked hserver).trans h.noRevocation
  · exact hkept.2.trans h.noLogout

/-- The session is given up. -/
theorem Orderly.deliverRejected {attempt : Nat} {presented : Token} (h : Orderly home s)
    (hrun : s.inFlight.get t = some (.answered attempt presented .rejected))
    (hexclusive : Exclusive ((s.clearSession t).endRun t)) :
    Orderly home ((s.clearSession t).endRun t) := by
  have hidle : ∀ u run, ((s.clearSession t).endRun t).inFlight.get u = some run →
      run = .waiting := by
    intro u run hother
    by_cases hu : u = t
    · rw [hu, show ((s.clearSession t).endRun t).inFlight.get t = none from
        Dict.get_erase_self _ _] at hother
      cases hother
    · rw [show ((s.clearSession t).endRun t).inFlight.get u = s.inFlight.get u from
        Dict.get_erase_ne _ hu] at hother
      exact h.exclusive.others hrun (by simp) hu hother
  have hnone : ∀ u token, ¬PairUnderWay s u token := by
    intro u other
    by_cases hu : u = t
    · rw [hu]
      exact no_pair hrun (fun _ _ _ h => by cases h) other
    · exact h.no_pair_other hrun (by simp) hu other
  refine ⟨h.oneHome.clear, hexclusive, h.issued, h.revoked, fun _ u token hread => ?_,
    fun u attempt' token' hsent => ?_, fun u token' hpair => ?_, h.noReplay, h.noRevocation,
    h.noLogout⟩
  · exact h.stored hnone u token (clearSession_read hread)
  · cases hidle u _ hsent
  · obtain ⟨_, _, hpair⟩ := hpair
    cases hidle u _ hpair

/-- **One step**, one case for each kind. -/
theorem orderly_step {e : BrowserEvent} (h : Orderly home s) (hok : Answered s e)
    (hstep : browserStep s e = some s') : Orderly home s' := by
  have hexclusive := exclusive_step h.exclusive hstep
  obtain ⟨hstays, hanswered⟩ := Bool.or_eq_false_iff.mp hok
  cases BrowserMove.of_step hstep with
  | joined => exact h
  | queued hnone =>
    refine h.goOn hexclusive ?_ (fun _ _ _ h => by cases h) (fun _ _ h => by cases h)
    rintro token ⟨_, _, hpair⟩
    rw [hnone] at hpair
    cases hpair
  | @locked t hrun hfree =>
    have hself : (s.goOn t (.reading 0)).inFlight.get t = some (.reading 0) :=
      Dict.get_set_self _ _ _
    refine h.turn hexclusive rfl rfl rfl rfl (fun u hu => Dict.get_set_ne _ _ hu)
      (no_pair hrun fun _ _ _ h => by cases h)
      (no_pair (s := { s.goOn t (.reading 0) with lock := some t }) hself fun _ _ _ h => by cases h)
      fun attempt token hsent => ?_
    rw [show ({ s.goOn t (.reading 0) with lock := some t } : Browser).inFlight.get t =
      some (.reading 0) from hself] at hsent
    cases hsent
  | @read t attempt hrun =>
    have hbefore := no_pair (t := t) hrun fun _ _ _ h => by cases h
    unfold readToken at hexclusive ⊢
    split
    · rename_i hnone
      rw [hnone] at hexclusive
      exact (h.setTab _).endRun hexclusive hbefore
    · rename_i token hread
      rw [hread] at hexclusive
      refine h.goOn hexclusive hbefore (fun _ _ _ h => by cases h) fun attempt' token' heq => ?_
      cases heq
      refine ⟨h.stored (fun u other => ?_) t token hread, hread⟩
      by_cases hu : u = t
      · rw [hu]
        exact hbefore other
      · exact h.no_pair_other hrun (by simp) hu other
  | served hrun hfresh => exact h.arrive hrun hfresh hexclusive
  | renewed hrun => exact h.deliverPair hrun hexclusive
  | refused hrun => exact h.deliverRejected hrun hexclusive
  | @strayed t attempt token hrun =>
    have hdrop : Orderly home { s with adrift := token :: s.adrift } :=
      ⟨h.oneHome, h.exclusive, h.issued, h.revoked, h.stored, h.sent, h.pair, h.noReplay,
        h.noRevocation, h.noLogout⟩
    exact hdrop.retry (h.exclusive t _ hrun (by simp)) (no_pair hrun fun _ _ _ h => by cases h)
      attempt
  | @unanswered t attempt token reply hrun =>
    -- a pair that is lost here would leave the stored token rotated
    refine h.retry (h.exclusive t _ hrun (by simp)) (no_pair hrun fun _ _ token' heq => ?_) attempt
    cases heq
    simp [losesResponse, hrun] at hanswered
  | woken hrun =>
    exact h.goOn hexclusive (no_pair hrun fun _ _ _ h => by cases h) (fun _ _ _ h => by cases h)
      (fun _ _ h => by cases h)
  | @servedLate token next _ hfresh =>
    -- it is not acted on: there is no such token, or it has lapsed
    simp only [losesResponse, Bool.or_eq_false_iff] at hanswered
    have hsame : (s.server.rotate token next).1 = s.server := by
      have hnot : token ∉ s.server.rotated := by
        simpa using hanswered.2
      unfold Server.rotate
      dsimp only
      rw [if_neg hnot]
      split
      · rfl
      · rename_i row hrow
        have hexpired : row.expired = true := by
          simpa [hrow] using hanswered.1
        rw [if_pos hexpired]
    rw [hsame] at hexclusive ⊢
    exact ⟨h.oneHome, hexclusive, h.issued, h.revoked, h.stored, h.sent, h.pair, h.noReplay,
      h.noRevocation, h.noLogout⟩
  | @lapsed token row hrow =>
    refine ⟨h.oneHome, hexclusive, fun token' hmem => ?_, fun token' row' hrow' hrevoked => ?_,
      h.stored, h.sent, h.pair, h.noReplay, h.noRevocation, h.noLogout⟩
    · dsimp only
      rw [Dict.get_set]
      split
      · exact Option.some_ne_none _
      · exact h.issued token' hmem
    · dsimp only at hrow'
      rw [Dict.get_set] at hrow'
      split at hrow'
      · rename_i heq
        cases hrow'
        rw [heq]
        exact h.revoked token row hrow hrevoked
      · exact h.revoked token' row' hrow' hrevoked
  | logout => cases hstays
  | logoutServed hl | loggedOut hl =>
    rw [h.noLogout] at hl
    cases hl

end

/-- **No token is presented twice**, and the session is not revoked for it, in whatever order the
tabs, the network and the server act, while every refresh that is acted on is answered. -/
theorem refresh_never_replays (home : Option Tab) (token : Token) {s : Browser}
    (h : Reaches browserStep Answered (start home token) s) :
    s.server.replays = [] ∧ s.server.familyRevoked = false := by
  have hstart : Orderly home (start home token) :=
    { oneHome := start_oneHome
      exclusive := fun t run hrun => (by cases hrun)
      issued := fun token' hmem => (by cases hmem)
      revoked := by
        intro token' row hrow hrevoked
        change (Dict.empty.set token {}).get token' = some row at hrow
        rw [Dict.get_set] at hrow
        obtain ⟨-, hrow⟩ := Option.ite_none_right_eq_some.mp hrow
        cases hrow
        cases hrevoked
      stored := fun _ _ token' _ hmem => (by cases hmem)
      sent := fun t attempt token' hrun => (by cases hrun)
      pair := fun t token' hpair => by
        obtain ⟨_, _, hpair⟩ := hpair
        cases hpair
      noReplay := rfl
      noRevocation := rfl
      noLogout := rfl }
  have horderly : Orderly home s :=
    h.invariant hstart fun _ _ _ ih ok hstep => orderly_step ih ok hstep
  exact ⟨horderly.noReplay, horderly.noRevocation⟩

/-! ## Two tabs, and a response that is lost -/

/-- Two tabs refresh at once, and one fails before its request arrives. -/
def twoTabs : List BrowserEvent :=
  [.refresh 0, .refresh 1, .refresh 0, .acquire 0, .read 0, .fail 0, .wake 0, .read 0,
    .arrive 0 "t2", .deliver 0, .acquire 1, .read 1, .arrive 1 "t3", .deliver 1]

/-- A refresh is processed, its response is lost, and it is tried again. -/
def lostResponse : List BrowserEvent :=
  [.refresh 0, .acquire 0, .read 0, .arrive 0 "t2", .fail 0, .wake 0, .read 0, .arrive 0 "t3"]

theorem refresh_never_replays_twoTabs :
    ∃ s, run (guarded browserStep Answered) (start none "t1") twoTabs = some s ∧
      s.localStorage = some "t3" ∧ s.server.replays = [] ∧ s.server.familyRevoked = false := by
  obtain ⟨s, hs⟩ : ∃ s, run (guarded browserStep Answered) (start none "t1") twoTabs = some s :=
    Option.isSome_iff_exists.mp (by decide +kernel)
  have hstored : (run (guarded browserStep Answered) (start none "t1") twoTabs).map
      Browser.localStorage = some (some "t3") := by decide +kernel
  rw [hs] at hstored
  exact ⟨s, hs, Option.some.inj hstored, refresh_never_replays none "t1" (.of_run_guarded hs)⟩

/-- **The token whose rotation was not answered is sent again**, and the session is over. -/
theorem refresh_replays :
    ¬∀ home token s, Reaches browserStep (fun _ e => signsOut e = false) (start home token) s →
      s.server.replays = [] ∧ s.server.familyRevoked = false := by
  intro h
  have hrun : (run browserStep (start none "t1") lostResponse).map (fun s =>
      s.server.replays) = some ["t1"] := by decide +kernel
  obtain ⟨s, hs, hreplays⟩ := Option.map_eq_some_iff.mp hrun
  have hstays : ∀ e ∈ lostResponse, signsOut e = false := by decide
  have hreach : Reaches browserStep (fun _ e => signsOut e = false) (start none "t1") s :=
    .of_run_of_forall hs fun e he _ => hstays e he
  rw [(h none "t1" s hreach).1] at hreplays
  cases hreplays

end IotSaas.Client
