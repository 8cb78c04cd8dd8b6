import IotSaas.Lib.Reach
import IotSaas.Lib.Dict

/-!
# `Client/Browser.lean` — the tabs of one browser, and the session they share

A session is one refresh token in storage: in `localStorage`, where every tab reads it, or in the
`sessionStorage` of one tab. A refresh runs under a lock that all tabs share: it reads the token,
sends it, and stores what it gets, or clears the session, or tries again. A logout reads the token
and clears the session when its request has settled, and takes no lock. Between any two of these
steps the other tabs and the server may do anything.

A request that its client has given up on may still arrive (`adrift`). The server is seen from the
session alone: the tokens of its family, each request one step.

A run begins with the session in place, and no `login`, `register` or `adoptSession` is on its way:
one that answers after a logout would rightly put a session back, of another family.
-/

set_option autoImplicit false

namespace IotSaas.Client

open Lib

abbrev Token := String

abbrev Tab := Nat

/-! ## The server -/

/-- A token of the session's family, as the server has it. -/
structure TokenRow where
  revoked : Bool := false
  expired : Bool := false
  deriving DecidableEq

structure Server where
  rows : Dict Token TokenRow
  /-- The tokens it has answered with another. -/
  rotated : List Token := []
  /-- The tokens that were presented when they had been rotated already. -/
  replays : List Token := []
  /-- A revoked token was presented, and the family was revoked for it. -/
  familyRevoked : Bool := false

/-- What a refresh is answered. -/
inductive Reply where
  | pair (refreshToken : Token)
  | rejected
  deriving DecidableEq

namespace Server

/-- `rotate_refresh_token`; `next` is the token it would issue. -/
def rotate (server : Server) (token next : Token) : Server × Reply :=
  let server :=
    { server with
      replays := if token ∈ server.rotated then token :: server.replays else server.replays }
  match server.rows.get token with
  | none => (server, .rejected)
  | some row =>
      if row.expired then (server, .rejected)
      else if row.revoked then
        ({ server with
            rows := server.rows.mapValues fun row => { row with revoked := true }
            familyRevoked := true }, .rejected)
      else
        ({ server with
            rows := (server.rows.set token { row with revoked := true }).set next {}
            rotated := token :: server.rotated }, .pair next)

/-- `revoke_refresh_token`. -/
def revoke (server : Server) (token : Token) : Server :=
  match server.rows.get token with
  | none => server
  | some row => { server with rows := server.rows.set token { row with revoked := true } }

end Server

/-! ## The browser -/

inductive AuthStatus where
  | loading | authenticated | unauthenticated
  deriving DecidableEq

/-- A tab's state, as far as a session has part in it. -/
structure TabState where
  status : AuthStatus := .loading
  accessToken : Bool := false
  deriving DecidableEq

/-- The refresh a tab has in flight, shared by all who call for one. -/
inductive Run where
  /-- For the lock. -/
  | waiting
  | reading (attempt : Nat)
  | sent (attempt : Nat) (token : Token)
  | answered (attempt : Nat) (token : Token) (reply : Reply)
  | sleeping (attempt : Nat)
  deriving DecidableEq

/-- A call of `logout`: the token it has read, whether its request has been served, and whether the
call has returned. -/
structure Logout where
  tab : Tab
  token : Option Token
  reached : Bool := false
  resolved : Bool := false
  deriving DecidableEq

structure Browser where
  localStorage : Option Token := none
  sessionStorage : Dict Tab Token := .empty
  tabs : Dict Tab TabState := .empty
  inFlight : Dict Tab Run := .empty
  /-- Who has the refresh lock. -/
  lock : Option Tab := none
  /-- The refresh requests that were given up on before they arrived. -/
  adrift : List Token := []
  logouts : List Logout := []
  server : Server

/-- `RETRY_DELAYS_MS.length`. -/
def retries : Nat := 3

namespace Browser

variable (s : Browser)

def tab (t : Tab) : TabState := s.tabs.getD t {}

def setTab (t : Tab) (state : TabState) : Browser := { s with tabs := s.tabs.set t state }

def readRefreshToken (t : Tab) : Option Token := (s.sessionStorage.get t).or s.localStorage

def writeRefreshToken (t : Tab) (token : Token) (keep : Bool) : Browser :=
  if keep then
    { s with localStorage := some token, sessionStorage := s.sessionStorage.erase t }
  else { s with localStorage := none, sessionStorage := s.sessionStorage.set t token }

def isKept (t : Tab) : Bool := (s.sessionStorage.get t).isNone

def applySession (t : Tab) (token : Token) : Browser :=
  (s.writeRefreshToken t token (s.isKept t)).setTab t ⟨.authenticated, true⟩

def clearSession (t : Tab) : Browser :=
  { s with
    localStorage := none
    sessionStorage := s.sessionStorage.erase t
    tabs := s.tabs.set t ⟨.unauthenticated, false⟩ }

/-- The refresh goes on. -/
def goOn (t : Tab) (run : Run) : Browser := { s with inFlight := s.inFlight.set t run }

/-- The refresh is over, and the lock is free. -/
def endRun (t : Tab) : Browser :=
  { s with inFlight := s.inFlight.erase t, lock := none }

/-- A failure that says nothing of the token: the next attempt after a pause, or none. -/
def retry (t : Tab) (attempt : Nat) : Browser :=
  if retries ≤ attempt then
    let state := s.tab t
    (s.setTab t (if state.accessToken then state else { state with status := .unauthenticated })).endRun t
  else s.goOn t (.sleeping attempt)

end Browser

open Browser

/-! ## What happens -/

inductive BrowserEvent where
  /-- `refresh()` is called. -/
  | refresh (t : Tab)
  /-- The lock is granted. -/
  | acquire (t : Tab)
  /-- An attempt reads the token, and sends it. -/
  | read (t : Tab)
  /-- Its request is processed. -/
  | arrive (t : Tab) (next : Token)
  /-- Its response is received. -/
  | deliver (t : Tab)
  /-- It fails on the way there, or on the way back. -/
  | fail (t : Tab)
  | wake (t : Tab)
  /-- A request that was given up on is processed. -/
  | arriveLate (token next : Token)
  /-- A token lapses. -/
  | expire (token : Token)
  /-- `logout()` is called: it reads the token, and sends it if there is one. -/
  | logout (t : Tab)
  /-- Its request is processed. -/
  | logoutArrives (i : Nat)
  /-- Its request has settled, one way or the other, and it goes on to its end. -/
  | logoutResolves (i : Nat)
  deriving DecidableEq

/-- An attempt reads the token under the lock. -/
def readToken (s : Browser) (t : Tab) (attempt : Nat) : Browser :=
  match s.readRefreshToken t with
  | none => (s.setTab t { s.tab t with status := .unauthenticated }).endRun t
  | some token => s.goOn t (.sent attempt token)

/-- The server answers a refresh with a token that is new, if it answers with one. -/
def serve (s : Browser) (token next : Token) : Option (Browser × Reply) :=
  match s.server.rows.get next with
  | some _ => none
  | none =>
      let (server, reply) := s.server.rotate token next
      some ({ s with server := server }, reply)

def browserStep (s : Browser) : BrowserEvent → Option Browser
  | .refresh t =>
      match s.inFlight.get t with
      | some _ => some s
      | none => some (s.goOn t .waiting)
  | .acquire t =>
      match s.inFlight.get t, s.lock with
      | some .waiting, none => some { s.goOn t (.reading 0) with lock := some t }
      | _, _ => none
  | .read t =>
      match s.inFlight.get t with
      | some (.reading attempt) => some (readToken s t attempt)
      | _ => none
  | .arrive t next =>
      match s.inFlight.get t with
      | some (.sent attempt token) =>
          (serve s token next).map fun (s, reply) => s.goOn t (.answered attempt token reply)
      | _ => none
  | .deliver t =>
      match s.inFlight.get t with
      | some (.answered _ _ (.pair token)) => some ((s.applySession t token).endRun t)
      | some (.answered _ _ .rejected) => some ((s.clearSession t).endRun t)
      | _ => none
  | .fail t =>
      match s.inFlight.get t with
      | some (.sent attempt token) =>
          some ({ s with adrift := token :: s.adrift }.retry t attempt)
      | some (.answered attempt _ _) => some (s.retry t attempt)
      | _ => none
  | .wake t =>
      match s.inFlight.get t with
      | some (.sleeping attempt) => some (s.goOn t (.reading (attempt + 1)))
      | _ => none
  | .arriveLate token next =>
      if token ∈ s.adrift then
        (serve s token next).map fun (s, _) => { s with adrift := s.adrift.erase token }
      else none
  | .expire token =>
      (s.server.rows.get token).map fun row =>
        { s with
          server :=
            { s.server with rows := s.server.rows.set token { row with expired := true } } }
  | .logout t => some { s with logouts := s.logouts ++ [⟨t, s.readRefreshToken t, false, false⟩] }
  | .logoutArrives i =>
      match s.logouts[i]? with
      | some ⟨t, some token, false, resolved⟩ =>
          some { s with
            server := s.server.revoke token
            logouts := s.logouts.set i ⟨t, some token, true, resolved⟩ }
      | _ => none
  | .logoutResolves i =>
      match s.logouts[i]? with
      | some ⟨t, token, reached, false⟩ =>
          some { s.clearSession t with logouts := s.logouts.set i ⟨t, token, reached, true⟩ }
      | _ => none

/-- **What a step can do**, with what it has found. Every invariant of a run is a case analysis on
it, so that `browserStep` is taken apart here and nowhere else. -/
inductive BrowserMove (s : Browser) : BrowserEvent → Browser → Prop
  /-- One is in flight already, and the call waits for that one. -/
  | joined {t run} (busy : s.inFlight.get t = some run) : BrowserMove s (.refresh t) s
  | queued {t} (idle : s.inFlight.get t = none) : BrowserMove s (.refresh t) (s.goOn t .waiting)
  | locked {t} (waiting : s.inFlight.get t = some .waiting) (free : s.lock = none) :
      BrowserMove s (.acquire t) { s.goOn t (.reading 0) with lock := some t }
  | read {t attempt} (reading : s.inFlight.get t = some (.reading attempt)) :
      BrowserMove s (.read t) (readToken s t attempt)
  | served {t attempt token next} (sent : s.inFlight.get t = some (.sent attempt token))
      (fresh : s.server.rows.get next = none) :
      BrowserMove s (.arrive t next)
        ({ s with server := (s.server.rotate token next).1 }.goOn t
          (.answered attempt token (s.server.rotate token next).2))
  | renewed {t attempt old token}
      (answered : s.inFlight.get t = some (.answered attempt old (.pair token))) :
      BrowserMove s (.deliver t) ((s.applySession t token).endRun t)
  | refused {t attempt old} (answered : s.inFlight.get t = some (.answered attempt old .rejected)) :
      BrowserMove s (.deliver t) ((s.clearSession t).endRun t)
  /-- The request is lost on its way, and may still come to the server. -/
  | strayed {t attempt token} (sent : s.inFlight.get t = some (.sent attempt token)) :
      BrowserMove s (.fail t) ({ s with adrift := token :: s.adrift }.retry t attempt)
  | unanswered {t attempt token reply}
      (answered : s.inFlight.get t = some (.answered attempt token reply)) :
      BrowserMove s (.fail t) (s.retry t attempt)
  | woken {t attempt} (sleeping : s.inFlight.get t = some (.sleeping attempt)) :
      BrowserMove s (.wake t) (s.goOn t (.reading (attempt + 1)))
  | servedLate {token next} (adrift : token ∈ s.adrift) (fresh : s.server.rows.get next = none) :
      BrowserMove s (.arriveLate token next)
        { s with server := (s.server.rotate token next).1, adrift := s.adrift.erase token }
  | lapsed {token row} (found : s.server.rows.get token = some row) :
      BrowserMove s (.expire token)
        { s with
          server :=
            { s.server with rows := s.server.rows.set token { row with expired := true } } }
  | logout {t} : BrowserMove s (.logout t)
      { s with logouts := s.logouts ++ [⟨t, s.readRefreshToken t, false, false⟩] }
  | logoutServed {i t token resolved}
      (called : s.logouts[i]? = some ⟨t, some token, false, resolved⟩) :
      BrowserMove s (.logoutArrives i)
        { s with
          server := s.server.revoke token
          logouts := s.logouts.set i ⟨t, some token, true, resolved⟩ }
  | loggedOut {i t token reached} (called : s.logouts[i]? = some ⟨t, token, reached, false⟩) :
      BrowserMove s (.logoutResolves i)
        { s.clearSession t with logouts := s.logouts.set i ⟨t, token, reached, true⟩ }

/-- A browser with one session: kept, or in one tab. -/
def start (home : Option Tab) (token : Token) : Browser where
  localStorage := if home.isNone then some token else none
  sessionStorage := home.elim .empty fun t => Dict.empty.set t token
  server := { rows := Dict.empty.set token {} }

end IotSaas.Client
