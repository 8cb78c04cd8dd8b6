import IotSaas.Editor.Draft
import IotSaas.Lib.Hex
import IotSaas.Realtime.Relay

/-!
# `Realtime/Connect.lean` — the connection of a client

`connectRealtime` of `packages/shared/src/realtime.ts`: a token is asked for, a socket opened, and
after a drop a timer set that begins anew. Each of them is answered by an event, and events come in
any order the runtime likes: an event of something that is not there does nothing. What passes
between the connection and its surroundings is kept in a log.

The callbacks may call `close()` before they return, and that is all they do; each event says at
which of its callbacks that happens.

Never is there more than one of a request, a socket and a timer. That there is one, and that nothing
comes through after `close()`, are the two promises, and the code forgets both in a few places
(`connection_sound_iff`).
-/

set_option autoImplicit false

namespace IotSaas.Realtime

open Lib
open Editor (jsTrim)

/-! ## Addresses -/

/-- `encodeURIComponent`. -/
def encodeURIComponent (text : String) : String :=
  String.ofList (text.toUTF8.data.toList.flatMap fun b =>
    let c := Char.ofNat b.toNat
    if c.isAlphanum ∨ c ∈ ['-', '_', '.', '!', '~', '*', '\'', '(', ')'] then [c]
    else '%' :: (Hex.byteText b).map Char.toUpper)

/-- The host of `^(https?):\/\/([^/?#]+)`, of what follows the slashes. -/
def hostOf (rest : List Char) : Option String :=
  match rest.takeWhile fun c => c ∉ ['/', '?', '#'] with
  | [] => none
  | host => some (String.ofList host)

/-- The scheme of the socket and the host, if the API has an http(s) URL. -/
def origin (apiUrl : String) : Option (String × String) :=
  let text := (jsTrim apiUrl).toList
  match text.dropPrefix? "https://".toList with
  | some rest => (hostOf rest).map fun host => ("wss", host)
  | none =>
      match text.dropPrefix? "http://".toList with
      | some rest => (hostOf rest).map fun host => ("ws", host)
      | none => none

/-- `wsUrlFromApiUrl`; `none` if it throws. -/
def wsUrlFromApiUrl (apiUrl token tenantId : String) : Option String :=
  (origin apiUrl).map fun (scheme, host) =>
    scheme ++ "://" ++ host ++ "/ws?token=" ++ encodeURIComponent token ++ "&tenant_id=" ++
      encodeURIComponent tenantId

example : wsUrlFromApiUrl " https://api.example.com/v1" "a+b" "t" =
    some "wss://api.example.com/ws?token=a%2Bb&tenant_id=t" := by decide

/-! ## The connection -/

/-- Why a token is asked for. -/
inductive TokenReason where
  | initial | authRejected | reconnect
  deriving DecidableEq

inductive RealtimeStatus where
  | connecting | «open» | reconnecting | closed
  deriving DecidableEq

/-- What passes between the connection and its surroundings. -/
inductive Entry where
  | status (status : RealtimeStatus)
  | getToken (reason : TokenReason)
  | token (answer : Option String)
  | tokenRejected
  | createSocket (id : Nat) (url : String)
  | closeSocket (id : Nat)
  | onMessage (message : Json (List Char))
  | closedWith (code : Nat)
  | close

structure ConnectOptions where
  tenantId : String
  apiUrl : String

/-- The variables of `connectRealtime`, and what is under way: the tokens asked for, the sockets that
have not closed, and the timers, with their delay. -/
structure Connection where
  closed : Bool := false
  backoff : Nat := 1000
  socket : Option Nat := none
  requests : List TokenReason := []
  sockets : List Nat := []
  timers : List (TokenReason × Nat) := []
  created : Nat := 0
  log : List Entry := []

namespace Connection

def note (e : Entry) (s : Connection) : Connection := { s with log := s.log ++ [e] }

/-- `close`. -/
def close (s : Connection) : Connection :=
  { s with closed := true, log := s.log ++ .close :: (s.socket.map Entry.closeSocket).toList }

/-- `options.onStatusChange`. -/
def onStatusChange (status : RealtimeStatus) (closes : Bool) (s : Connection) : Connection :=
  let s := s.note (.status status)
  if closes then s.close else s

/-- `connect`, up to where it waits for the token. -/
def connect (reason : TokenReason) (closes : Bool) (s : Connection) : Connection :=
  if s.closed then s
  else
    let s := s.onStatusChange (if reason = .initial then .connecting else .reconnecting) closes
    { s with requests := s.requests ++ [reason] }.note (.getToken reason)

/-- A socket is created. -/
def openSocket (url : String) (s : Connection) : Connection :=
  { s with
    socket := some s.created
    sockets := s.sockets ++ [s.created]
    created := s.created + 1 }.note (.createSocket s.created url)

/-- `connect`, from there on. An address that cannot be made throws, and nobody catches. -/
def gotToken (options : ConnectOptions) (token : Option String) (closes : Bool) (s : Connection) :
    Connection :=
  if s.closed then s
  else
    match token.filter fun token => token ≠ "" with
    | none => s.onStatusChange .closed closes
    | some token =>
        match wsUrlFromApiUrl options.apiUrl token options.tenantId with
        | none => s
        | some url => s.openSocket url

/-- The loop of `onmessage`; the call of `onMessage` for which `closes` says so calls `close`. -/
def deliver : List (Json (List Char)) → List Bool → Connection → Connection
  | [], _, s => s
  | message :: rest, closes, s =>
      let s := s.note (.onMessage message)
      deliver rest closes.tail (if closes.head? = some true then s.close else s)

/-- The timer of a reconnect, and the backoff of the next one. -/
def retryAfter (reason : TokenReason) (delay : Nat) (s : Connection) : Connection :=
  { s with
    timers := s.timers ++ [(reason, delay)]
    backoff := min (s.backoff * 2) 15000 }

/-- `onclose`. -/
def onclose (code : Nat) (closes : Bool) (s : Connection) : Connection :=
  let s := { s with socket := none }
  if s.closed then s
  else if code = 4403 then s.onStatusChange .closed closes
  else
    let nextReason : TokenReason := if code = 4401 then .authRejected else .reconnect
    let delay := if nextReason = .authRejected then 0 else s.backoff
    (s.onStatusChange .reconnecting closes).retryAfter nextReason delay

/-- `onerror`. -/
def onerror (s : Connection) : Connection :=
  match s.socket with
  | none => s
  | some id => s.note (.closeSocket id)

/-- `connectRealtime`. -/
def start : Connection := connect .initial false {}

end Connection

/-- What can happen to a connection. `closes` says whether a callback calls `close`. -/
inductive ClientEvent where
  | token (n : Nat) (answer : Option String) (closes : Bool)
  | tokenRejected (n : Nat)
  | opened (id : Nat) (closes : Bool)
  | errored (id : Nat)
  | message (id : Nat) (data : List Char) (closes : List Bool)
  | socketClosed (id code : Nat) (closes : Bool)
  | timer (n : Nat) (closes : Bool)
  | close

namespace Connection

/-- The connection after an event. -/
def react (options : ConnectOptions) (s : Connection) : ClientEvent → Connection
  | .token n answer closes =>
      if n < s.requests.length then
        gotToken options answer closes
          ({ s with requests := s.requests.eraseIdx n }.note (.token answer))
      else s
  | .tokenRejected n =>
      if n < s.requests.length then
        { s with requests := s.requests.eraseIdx n }.note .tokenRejected
      else s
  | .opened id closes =>
      if id ∈ s.sockets then { s with backoff := 1000 }.onStatusChange .open closes else s
  | .errored id => if id ∈ s.sockets then s.onerror else s
  | .message id data closes => if id ∈ s.sockets then deliver (onmessage data) closes s else s
  | .socketClosed id code closes =>
      if id ∈ s.sockets then
        onclose code closes ({ s with sockets := s.sockets.erase id }.note (.closedWith code))
      else s
  | .timer n closes =>
      match s.timers[n]? with
      | none => s
      | some (reason, _) => connect reason closes { s with timers := s.timers.eraseIdx n }
  | .close => s.close

/-! ## The promises -/

/-- How much is under way. -/
def pending (s : Connection) : Nat := s.requests.length + s.sockets.length + s.timers.length

end Connection

/-- After this a connection need not go on: `close()`, a 4403, or no token. -/
def Entry.Ends : Entry → Prop
  | .close => True
  | .closedWith code => code = 4403
  | .token answer => answer = none ∨ answer = some ""
  | _ => False

/-- What must not come after `close()`. -/
def Entry.Delivers : Entry → Prop
  | .createSocket _ _ => True
  | .onMessage _ => True
  | _ => False

/-- The connection may be over. -/
def Over (log : List Entry) : Prop := ∃ e ∈ log, e.Ends

/-- Nothing is delivered after `close()`. -/
def Quiet (log : List Entry) : Prop := log.Pairwise fun a b => a = .close → ¬b.Delivers

/-- **The promises**: there is one thing under way until the connection is over, never more than one,
and nothing comes through once it is closed. -/
structure Connection.Sound (s : Connection) : Prop where
  atMostOne : s.pending ≤ 1
  exactlyOne : ¬Over s.log → s.pending = 1
  quiet : Quiet s.log

/-- The events that keep them: no request is rejected and no address fails while the connection is
wanted, no message arrives after `close()`, and none is left of the frame in which a callback
calls it. -/
def Fit (options : ConnectOptions) (s : Connection) : ClientEvent → Prop
  | .token n answer _ =>
      n < s.requests.length → s.closed = false → (∃ token, answer = some token ∧ token ≠ "") →
        (origin options.apiUrl).isSome = true
  | .tokenRejected n => n < s.requests.length → s.closed = true
  | .message id data closes =>
      id ∈ s.sockets → (s.closed = true → onmessage data = []) ∧
        ∀ k : Nat, closes[k]? = some true → (onmessage data).length ≤ k + 1
  | _ => True

/-! ## What the callbacks change -/

namespace Connection

variable (s : Connection) (e : Entry) (status : RealtimeStatus) (closes : Bool)

@[simp] theorem note_log : (s.note e).log = s.log ++ [e] := rfl
@[simp] theorem note_closed : (s.note e).closed = s.closed := rfl
@[simp] theorem note_socket : (s.note e).socket = s.socket := rfl
@[simp] theorem note_sockets : (s.note e).sockets = s.sockets := rfl
@[simp] theorem note_pending : (s.note e).pending = s.pending := rfl

@[simp] theorem close_log :
    s.close.log = s.log ++ .close :: (s.socket.map Entry.closeSocket).toList := rfl
@[simp] theorem close_closed : s.close.closed = true := rfl
@[simp] theorem close_socket : s.close.socket = s.socket := rfl
@[simp] theorem close_sockets : s.close.sockets = s.sockets := rfl
@[simp] theorem close_pending : s.close.pending = s.pending := rfl

@[simp] theorem onStatusChange_requests :
    (s.onStatusChange status closes).requests = s.requests := by
  cases closes <;> rfl

@[simp] theorem onStatusChange_sockets :
    (s.onStatusChange status closes).sockets = s.sockets := by
  cases closes <;> rfl

@[simp] theorem onStatusChange_timers : (s.onStatusChange status closes).timers = s.timers := by
  cases closes <;> rfl

@[simp] theorem onStatusChange_socket : (s.onStatusChange status closes).socket = s.socket := by
  cases closes <;> rfl

@[simp] theorem onStatusChange_pending : (s.onStatusChange status closes).pending = s.pending := by
  cases closes <;> rfl

@[simp] theorem onStatusChange_closed :
    (s.onStatusChange status closes).closed = (s.closed || closes) := by
  cases closes <;> simp [onStatusChange]

/-- What a status change leaves in the log. -/
def statusEntries : List Entry :=
  .status status ::
    if closes then .close :: (s.socket.map Entry.closeSocket).toList else []

@[simp] theorem onStatusChange_log :
    (s.onStatusChange status closes).log = s.log ++ s.statusEntries status closes := by
  cases closes <;> simp [onStatusChange, statusEntries]

end Connection

/-! ## The log -/

@[simp] theorem over_append (log more : List Entry) : Over (log ++ more) ↔ Over log ∨ Over more := by
  simp [Over, or_and_right, exists_or]

@[simp] theorem over_cons (e : Entry) (log : List Entry) : Over (e :: log) ↔ e.Ends ∨ Over log := by
  simp [Over]

@[simp] theorem not_over_nil : ¬Over [] := by simp [Over]

theorem over_of_close {log : List Entry} (h : .close ∈ log) : Over log := ⟨.close, h, trivial⟩

theorem quiet_append {log more : List Entry} :
    Quiet (log ++ more) ↔ Quiet log ∧ Quiet more ∧
      (.close ∈ log → ∀ e ∈ more, ¬e.Delivers) := by
  unfold Quiet
  rw [List.pairwise_append]
  refine and_congr_right fun _ => and_congr_right fun _ => ?_
  constructor
  · intro h hclose e he
    exact h .close hclose e he rfl
  · intro h a ha b hb heq
    exact h (heq ▸ ha) b hb

theorem quiet_of_forall {log : List Entry} (h : ∀ e ∈ log, ¬e.Delivers) : Quiet log := by
  apply List.pairwise_of_forall_mem_list
  intro a _ b hb _
  exact h b hb

/-- Entries that deliver nothing do no harm. -/
theorem Quiet.append {log more : List Entry} (h : Quiet log)
    (hmore : ∀ e ∈ more, ¬e.Delivers) : Quiet (log ++ more) :=
  quiet_append.mpr ⟨h, quiet_of_forall hmore, fun _ => hmore⟩

theorem quiet_concat {log : List Entry} {e : Entry} (he : e.Delivers) :
    Quiet (log ++ [e]) ↔ Quiet log ∧ .close ∉ log := by
  rw [quiet_append]
  constructor
  · intro ⟨hlog, _, hclose⟩
    exact ⟨hlog, fun hmem => hclose hmem e (List.mem_singleton_self e) he⟩
  · intro ⟨hlog, hclose⟩
    exact ⟨hlog, List.pairwise_singleton _ _, fun hmem => absurd hmem hclose⟩

theorem closeEntries_quiet (s : Connection) {e : Entry}
    (he : e ∈ Entry.close :: (s.socket.map Entry.closeSocket).toList) : ¬e.Delivers := by
  cases hsocket : s.socket <;> simp_all [Entry.Delivers]
  rcases he with rfl | rfl <;> simp

theorem statusEntries_quiet (s : Connection) {status : RealtimeStatus} {closes : Bool} {e : Entry}
    (he : e ∈ s.statusEntries status closes) : ¬e.Delivers := by
  rcases List.mem_cons.mp he with rfl | he
  · exact not_false
  · cases closes with
    | false => simp at he
    | true => exact closeEntries_quiet s he

theorem over_statusEntries (s : Connection) (status : RealtimeStatus) (closes : Bool) :
    Over (s.statusEntries status closes) ↔ closes = true := by
  cases closes with
  | false => simp [Connection.statusEntries, Entry.Ends]
  | true => simp [Connection.statusEntries, Entry.Ends]

theorem close_mem_statusEntries (s : Connection) (status : RealtimeStatus) (closes : Bool) :
    .close ∈ s.statusEntries status closes ↔ closes = true := by
  cases closes <;> simp [Connection.statusEntries]

/-! ## What the connection keeps -/

namespace Connection

/-- The promises, and what they rest on: the variable `socket` is the socket there is, and a
connection that is over without having been closed has nothing under way. -/
structure Kept (s : Connection) : Prop extends Sound s where
  socket : s.sockets = s.socket.toList
  closed : s.closed = true ↔ .close ∈ s.log
  silent : Over s.log → s.closed = false → s.pending = 0

/-- The promises hold exactly if `c` does, and then what they rest on is kept too. -/
def KeptIff (s : Connection) (c : Prop) : Prop := (c → Kept s) ∧ (Sound s → c)

theorem KeptIff.of_true {s : Connection} {c : Prop} (h : Kept s) (hc : c) : KeptIff s c :=
  ⟨fun _ => h, fun _ => hc⟩

theorem KeptIff.of_false {s : Connection} {c : Prop} (h : ¬Sound s) (hc : ¬c) : KeptIff s c :=
  ⟨fun hc' => absurd hc' hc, fun h' => absurd h' h⟩

theorem KeptIff.congr {s : Connection} {c c' : Prop} (h : KeptIff s c) (hiff : c ↔ c') :
    KeptIff s c' := by
  rwa [← hiff]

/-- Between two things: what was under way has been answered. -/
structure Ready (s : Connection) : Prop where
  pending : s.pending = 0
  socket : s.socket = none
  closed : s.closed = true ↔ .close ∈ s.log
  wanted : s.closed = false → ¬Over s.log
  quiet : Quiet s.log

section

variable {s s' : Connection}

/-- Something that happens to what is under way without ending it. -/
theorem Kept.append (h : Kept s) (more : List Entry) (closes : Bool)
    (hlog : s'.log = s.log ++ more) (hpending : s'.pending = s.pending)
    (hsocket : s'.socket = s.socket) (hsockets : s'.sockets = s.sockets)
    (hclosed : s'.closed = (s.closed || closes)) (hquiet : ∀ e ∈ more, ¬e.Delivers)
    (hclose : .close ∈ more ↔ closes = true) (hover : Over more → closes = true) : Kept s' := by
  refine ⟨⟨?_, ?_, ?_⟩, ?_, ?_, ?_⟩
  · rw [hpending]
    exact h.atMostOne
  · intro hnot
    rw [hlog, over_append] at hnot
    rw [hpending]
    exact h.exactlyOne fun hover' => hnot (.inl hover')
  · rw [hlog]
    exact h.quiet.append hquiet
  · rw [hsockets, hsocket, h.socket]
  · rw [hclosed, hlog, Bool.or_eq_true, List.mem_append, h.closed, hclose]
  · intro hover' hopen
    rw [hclosed, Bool.or_eq_false_iff] at hopen
    rw [hlog, over_append] at hover'
    rw [hpending]
    rcases hover' with hover' | hover'
    · exact h.silent hover' hopen.1
    · rw [hover hover'] at hopen
      exact absurd hopen.2 (by decide)

/-- What follows once something has been answered: one thing that is under way, or none, and then the
connection is over. -/
theorem Ready.kept (h : Ready s) (more : List Entry) (hlog : s'.log = s.log ++ more)
    (hquiet : Quiet more) (hquiet' : s.closed = true → ∀ e ∈ more, ¬e.Delivers)
    (hclosed : s'.closed = true ↔ s.closed = true ∨ .close ∈ more)
    (hsocket : s'.sockets = s'.socket.toList)
    (hpending : s'.pending = 1 ∧ (s'.closed = false → ¬Over more) ∨
      s'.pending = 0 ∧ (s'.closed = true ∨ Over more)) : Kept s' := by
  have hclosed' : s'.closed = true ↔ .close ∈ s'.log := by
    rw [hclosed, h.closed, hlog, List.mem_append]
  refine ⟨⟨?_, ?_, ?_⟩, hsocket, hclosed', ?_⟩
  · omega
  · intro hnot
    rcases hpending with ⟨hone, -⟩ | ⟨-, hend⟩
    · exact hone
    · exfalso
      rcases hend with hend | hend
      · exact hnot (over_of_close (hclosed'.mp hend))
      · rw [hlog, over_append] at hnot
        exact hnot (.inr hend)
  · rw [hlog]
    exact quiet_append.mpr ⟨h.quiet, hquiet, fun hmem => hquiet' (h.closed.mpr hmem)⟩
  · intro hover hopen
    rcases hpending with ⟨-, hnot⟩ | ⟨hzero, -⟩
    · exfalso
      have hwas : s.closed = false := by
        by_contra hne
        rw [Bool.not_eq_false] at hne
        rw [hclosed.mpr (.inl hne)] at hopen
        exact absurd hopen (by decide)
      rw [hlog, over_append] at hover
      exact hover.elim (h.wanted hwas) (hnot hopen)
    · exact hzero

/-! ## What is answered -/

/-- Whatever is under way, it is the only thing, and the connection is wanted or closed. -/
theorem Kept.ready (h : Kept s) (hpending : s.pending = 1) (hpending' : s'.pending = 0)
    (hsocket : s'.socket = none) (hlog : s'.log = s.log) (hclosed : s'.closed = s.closed) :
    Ready s' := by
  refine ⟨hpending', hsocket, ?_, ?_, ?_⟩
  · rw [hclosed, hlog]
    exact h.closed
  · intro hopen hover
    rw [hlog] at hover
    have hzero := h.silent hover (hclosed ▸ hopen)
    omega
  · rw [hlog]
    exact h.quiet

/-- Beside a request or a timer there is no socket. -/
theorem Kept.socket_none (h : Kept s) (hother : 0 < s.requests.length + s.timers.length) :
    s.socket = none := by
  have hone := h.atMostOne
  have hsockets : s.sockets = [] := by
    apply List.eq_nil_of_length_eq_zero
    unfold pending at hone
    omega
  have hsocket := h.socket
  rw [hsockets] at hsocket
  exact Option.toList_eq_nil_iff.mp hsocket.symm

theorem Kept.ready_request (h : Kept s) {n : Nat} (hn : n < s.requests.length) :
    Ready { s with requests := s.requests.eraseIdx n } := by
  have hone := h.atMostOne
  have hlength := List.length_eraseIdx_of_lt hn
  refine h.ready ?_ ?_ (h.socket_none (by omega)) rfl rfl
  · unfold pending at hone ⊢
    omega
  · unfold pending at hone ⊢
    dsimp only
    omega

theorem Kept.ready_timer (h : Kept s) {n : Nat} (hn : n < s.timers.length) :
    Ready { s with timers := s.timers.eraseIdx n } := by
  have hone := h.atMostOne
  have hlength := List.length_eraseIdx_of_lt hn
  refine h.ready ?_ ?_ (h.socket_none (by omega)) rfl rfl
  · unfold pending at hone ⊢
    omega
  · unfold pending at hone ⊢
    dsimp only
    omega

theorem Kept.ready_socket (h : Kept s) {id : Nat} (hid : id ∈ s.sockets) :
    Ready { s with sockets := s.sockets.erase id, socket := none } := by
  have hone := h.atMostOne
  have hlength := List.length_erase_of_mem hid
  have hpos := List.length_pos_of_mem hid
  refine h.ready ?_ ?_ rfl rfl rfl
  · unfold pending at hone ⊢
    omega
  · unfold pending at hone ⊢
    dsimp only
    omega

/-- Nothing under way, no socket. -/
theorem Ready.sockets (h : Ready s) : s.sockets = [] := by
  have hzero := h.pending
  apply List.eq_nil_of_length_eq_zero
  unfold Connection.pending at hzero
  omega

/-! ## The handlers -/

theorem Ready.connect (h : Ready s) (reason : TokenReason) (closes : Bool) :
    Kept (s.connect reason closes) := by
  have hzero := h.pending
  unfold Connection.connect
  by_cases hclosed : s.closed = true
  · rw [if_pos hclosed]
    refine h.kept [] (by simp) List.Pairwise.nil (fun _ => by simp) (by simp) ?_
      (.inr ⟨hzero, .inl hclosed⟩)
    rw [h.sockets, h.socket]
    rfl
  · rw [if_neg hclosed]
    let status : RealtimeStatus := if reason = .initial then .connecting else .reconnecting
    have hquiet : ∀ e ∈ s.statusEntries status closes ++ [.getToken reason], ¬e.Delivers := by
      intro e he
      rcases List.mem_append.mp he with he | he
      · exact statusEntries_quiet s he
      · rw [List.mem_singleton.mp he]
        exact not_false
    refine h.kept (s.statusEntries status closes ++ [.getToken reason]) ?_ (quiet_of_forall hquiet)
      (fun _ => hquiet) ?_ ?_ (.inl ⟨?_, ?_⟩)
    · simp [status]
    · simp [close_mem_statusEntries]
    · simp [h.sockets, h.socket]
    · rw [note_pending]
      unfold Connection.pending at hzero ⊢
      simp only [onStatusChange_requests, onStatusChange_sockets, onStatusChange_timers,
        List.length_append, List.length_singleton]
      omega
    · intro hopen
      simp only [note_closed, onStatusChange_closed, Bool.or_eq_false_iff] at hopen
      simp [over_statusEntries, hopen.2, Entry.Ends]

/-- **Nothing follows**: the connection is abandoned, unless it is closed. -/
theorem Ready.stranded (h : Ready s) {e : Entry} (hends : ¬e.Ends) (hdelivers : ¬e.Delivers) :
    KeptIff (s.note e) (s.closed = true) := by
  constructor
  · intro hclosed
    have hclose : e ≠ .close := by
      intro heq
      rw [heq] at hends
      exact hends trivial
    refine h.kept [e] rfl (quiet_of_forall ?_) (fun _ => ?_) (by simp [hclose.symm]) ?_
      (.inr ⟨h.pending, .inl hclosed⟩)
    · simpa using hdelivers
    · simpa using hdelivers
    · simp [h.sockets, h.socket]
  · intro hsound
    by_contra hclosed
    have hnot : ¬Over (s.note e).log := by
      have hwanted := h.wanted (by simpa using hclosed)
      simp [hwanted, hends]
    have hone := hsound.exactlyOne hnot
    rw [note_pending, h.pending] at hone
    cases hone

/-- No token: the connection is over. -/
theorem Ready.noToken (h : Ready s) {answer : Option String} (hends : (Entry.token answer).Ends)
    (closes : Bool) :
    Kept ((s.note (.token answer)).onStatusChange .closed closes) := by
  have hquiet : ∀ e ∈ .token answer :: (s.note (.token answer)).statusEntries .closed closes,
      ¬e.Delivers := by
    intro e he
    rcases List.mem_cons.mp he with rfl | he
    · exact not_false
    · exact statusEntries_quiet _ he
  refine h.kept (.token answer :: (s.note (.token answer)).statusEntries .closed closes) ?_
    (quiet_of_forall hquiet) (fun _ => hquiet) ?_ ?_ (.inr ⟨?_, .inr ?_⟩)
  · simp
  · simp [close_mem_statusEntries]
  · simp [h.sockets, h.socket]
  · simpa using h.pending
  · simp [hends]

/-- A token and an address. -/
theorem Ready.openSocket (h : Ready s) (hopen : s.closed = false) {answer : Option String}
    (hends : ¬(Entry.token answer).Ends) (url : String) :
    Kept ((s.note (.token answer)).openSocket url) := by
  have hzero := h.pending
  refine h.kept [.token answer, .createSocket s.created url] ?_ ?_ ?_ ?_ ?_ (.inl ⟨?_, ?_⟩)
  · exact List.append_assoc s.log [.token answer] [.createSocket s.created url]
  · simp [Quiet]
  · intro hwas
    rw [hopen] at hwas
    cases hwas
  · simp [Connection.openSocket]
  · simp [Connection.openSocket, h.sockets]
  · show s.requests.length + (s.sockets ++ [s.created]).length + s.timers.length = 1
    unfold Connection.pending at hzero
    rw [List.length_append, List.length_singleton]
    omega
  · intro _
    simp only [over_cons, hends, not_over_nil, or_false, false_or]
    exact not_false

/-- An answer is of use while the connection is wanted, if there is an address to open. -/
theorem Ready.gotToken (h : Ready s) (options : ConnectOptions) (answer : Option String)
    (closes : Bool) :
    KeptIff ((s.note (.token answer)).gotToken options answer closes)
      (s.closed = false → (∃ token, answer = some token ∧ token ≠ "") →
        (origin options.apiUrl).isSome = true) := by
  unfold Connection.gotToken
  rw [note_closed]
  by_cases hclosed : s.closed = true
  · rw [if_pos hclosed]
    refine KeptIff.of_true (h.kept [.token answer] rfl (quiet_of_forall ?_) (fun _ => ?_) (by simp) ?_
      (.inr ⟨h.pending, .inl hclosed⟩)) (fun hopen => ?_)
    · simp [Entry.Delivers]
    · simp [Entry.Delivers]
    · simp [h.sockets, h.socket]
    · rw [hclosed] at hopen
      cases hopen
  · rw [if_neg hclosed]
    have hopen : s.closed = false := by simpa using hclosed
    cases hanswer : answer.filter fun token => decide (token ≠ "") with
    | none =>
      have hends : answer = none ∨ answer = some "" := by
        cases answer with
        | none => exact .inl rfl
        | some token => simpa [Option.filter] using hanswer
      refine KeptIff.of_true (h.noToken hends closes) ?_
      intro _ ⟨token, hsome, hne⟩
      rcases hends with hnone | hempty
      · rw [hsome] at hnone
        cases hnone
      · rw [hsome, Option.some.injEq] at hempty
        exact absurd hempty hne
    | some token =>
      obtain ⟨hsome, hne⟩ : answer = some token ∧ token ≠ "" := by
        simpa [Option.filter_eq_some_iff] using hanswer
      have hends : ¬(Entry.token answer).Ends := by
        simp [Entry.Ends, hsome, hne]
      dsimp only
      cases horigin : origin options.apiUrl with
      | none =>
        have hurl : wsUrlFromApiUrl options.apiUrl token options.tenantId = none := by
          simp [wsUrlFromApiUrl, horigin]
        rw [hurl]
        refine KeptIff.of_false (fun hsound => hclosed ((h.stranded hends not_false).2 hsound)) ?_
        intro hfit
        have hsomeone := hfit hopen ⟨token, hsome, hne⟩
        cases hsomeone
      | some parts =>
        obtain ⟨url, hurl⟩ : ∃ url,
            wsUrlFromApiUrl options.apiUrl token options.tenantId = some url := by
          simp [wsUrlFromApiUrl, horigin]
        rw [hurl]
        exact KeptIff.of_true (h.openSocket hopen hends url) fun _ _ => rfl

/-- A socket that has closed for good, or that is waited for. -/
theorem Ready.closedWith (h : Ready s) {code : Nat} {closes : Bool} :
    (code = 4403 → Kept ((s.note (.closedWith code)).onStatusChange .closed closes)) ∧
    ∀ (reason : TokenReason) (delay : Nat), code ≠ 4403 →
      Kept (((s.note (.closedWith code)).onStatusChange .reconnecting closes).retryAfter
        reason delay) := by
  have hquiet : ∀ (status : RealtimeStatus),
      ∀ e ∈ .closedWith code :: (s.note (.closedWith code)).statusEntries status closes,
        ¬e.Delivers := by
    intro status e he
    rcases List.mem_cons.mp he with rfl | he
    · exact not_false
    · exact statusEntries_quiet _ he
  constructor
  · intro hcode
    refine h.kept (.closedWith code :: (s.note (.closedWith code)).statusEntries .closed closes) ?_
      (quiet_of_forall (hquiet _)) (fun _ => hquiet _) ?_ ?_ (.inr ⟨?_, .inr ?_⟩)
    · simp
    · simp [close_mem_statusEntries]
    · simp [h.sockets, h.socket]
    · simpa using h.pending
    · simp [Entry.Ends, hcode]
  · intro reason delay hcode
    have hzero := h.pending
    refine h.kept
      (.closedWith code :: (s.note (.closedWith code)).statusEntries .reconnecting closes) ?_
      (quiet_of_forall (hquiet _)) (fun _ => hquiet _) ?_ ?_ (.inl ⟨?_, ?_⟩)
    · simp [retryAfter]
    · simp [retryAfter, close_mem_statusEntries]
    · simp [retryAfter, h.sockets, h.socket]
    · unfold Connection.pending at hzero ⊢
      simp only [retryAfter, onStatusChange_requests, onStatusChange_sockets,
        onStatusChange_timers, List.length_append, List.length_singleton]
      show s.requests.length + s.sockets.length + (s.timers.length + 1) = 1
      omega
    · intro hopen'
      have hnot : closes = false := by
        simp only [retryAfter, onStatusChange_closed, Bool.or_eq_false_iff] at hopen'
        exact hopen'.2
      simp [over_statusEntries, hnot, Entry.Ends, hcode]

theorem Ready.onclose (h : Ready { s with socket := none }) (code : Nat) (closes : Bool) :
    Kept ((s.note (.closedWith code)).onclose code closes) := by
  have hsockets : s.sockets = [] := h.sockets
  unfold Connection.onclose
  dsimp only
  by_cases hclosed : s.closed = true
  · rw [if_pos (show (s.note (.closedWith code)).closed = true from hclosed)]
    refine h.kept [.closedWith code] rfl (quiet_of_forall ?_) (fun _ => ?_) ?_ ?_
      (.inr ⟨h.pending, .inl hclosed⟩)
    · simp [Entry.Delivers]
    · simp [Entry.Delivers]
    · simp
    · simp [hsockets]
  · rw [if_neg (show ¬(s.note (.closedWith code)).closed = true from hclosed)]
    split
    · rename_i hcode
      exact h.closedWith.1 hcode
    · rename_i hcode
      exact h.closedWith.2 _ _ hcode

/-- What goes on while something is under way. -/
theorem Kept.onStatusChange (h : Kept s) (status : RealtimeStatus) (closes : Bool) :
    Kept (s.onStatusChange status closes) :=
  h.append (s.statusEntries status closes) closes (by simp) (by simp) (by simp) (by simp) (by simp)
    (fun _ he => statusEntries_quiet s he) (close_mem_statusEntries s status closes)
    (over_statusEntries s status closes).mp

theorem Kept.close (h : Kept s) : Kept s.close :=
  h.append (.close :: (s.socket.map Entry.closeSocket).toList) true (by simp) (by simp) (by simp)
    (by simp) (by simp) (fun _ he => closeEntries_quiet s he) (by simp) (fun _ => rfl)

theorem Kept.onerror (h : Kept s) : Kept s.onerror := by
  unfold Connection.onerror
  cases hsocket : s.socket with
  | none => exact h
  | some id =>
    exact h.append [.closeSocket id] false (by simp) (by simp) (by simp) (by simp) (by simp)
      (by simp [Entry.Delivers]) (by simp) (by simp [Entry.Ends])

/-- A message is delivered, as long as the connection is not closed. -/
theorem Kept.onMessage (h : Kept s) (hopen : s.closed = false) (message : Json (List Char)) :
    Kept (s.note (.onMessage message)) := by
  have hnot : ¬Entry.close ∈ s.log := by
    intro hmem
    rw [h.closed.mpr hmem] at hopen
    cases hopen
  refine ⟨⟨h.atMostOne, ?_, ?_⟩, h.socket, ?_, ?_⟩
  · intro hover
    apply h.exactlyOne
    intro hover'
    exact hover (by simp [hover'])
  · rw [note_log, quiet_concat (show (Entry.onMessage message).Delivers from trivial)]
    exact ⟨h.quiet, hnot⟩
  · simpa using h.closed
  · intro hover
    simp only [note_log, over_append, over_cons, not_over_nil, or_false] at hover
    exact h.silent (hover.resolve_right not_false)

theorem deliver_log (messages : List (Json (List Char))) (closes : List Bool) (s : Connection) :
    s.log <+: (s.deliver messages closes).log := by
  induction messages generalizing closes s with
  | nil => exact List.prefix_refl _
  | cons message rest ih =>
    unfold Connection.deliver
    refine List.IsPrefix.trans ?_ (ih _ _)
    split
    · simp [List.append_assoc]
    · simp

/-- **A frame**: its messages are delivered while the connection is not closed, and `close()` has to
wait for the last of them. -/
theorem Kept.deliver (h : Kept s) (messages : List (Json (List Char))) (closes : List Bool) :
    KeptIff (s.deliver messages closes) ((s.closed = true → messages = []) ∧
      ∀ k : Nat, closes[k]? = some true → messages.length ≤ k + 1) := by
  induction messages generalizing closes s with
  | nil => exact KeptIff.of_true h (by simp)
  | cons message rest ih =>
    by_cases hclosed : s.closed = true
    · -- the first message is one too many
      refine KeptIff.of_false (fun hsound => ?_) (fun ⟨hnone, _⟩ => by simpa using hnone hclosed)
      have hprefix : s.log ++ [.onMessage message] <+: (s.deliver (message :: rest) closes).log := by
        unfold Connection.deliver
        refine List.IsPrefix.trans ?_ (deliver_log _ _ _)
        split
        · simp
        · simp
      have hquiet : Quiet (s.log ++ [.onMessage message]) := hsound.quiet.sublist hprefix.sublist
      rw [quiet_concat (show (Entry.onMessage message).Delivers from trivial)] at hquiet
      exact hquiet.2 (h.closed.mp hclosed)
    · have hopen : s.closed = false := by simpa using hclosed
      have hnext := h.onMessage hopen message
      unfold Connection.deliver
      dsimp only
      cases closes with
      | nil =>
        rw [if_neg (by simp)]
        exact (ih hnext _).congr (by simp [hopen])
      | cons closesNow closes =>
        have hsplit : (∀ k : Nat, (closesNow :: closes)[k]? = some true →
            (message :: rest).length ≤ k + 1) ↔ (closesNow = true → rest = []) ∧
              ∀ k : Nat, closes[k]? = some true → rest.length ≤ k + 1 := by
          rw [← Nat.and_forall_add_one]
          simp
        rw [hsplit]
        cases closesNow with
        | false =>
          rw [if_neg (by simp)]
          exact (ih hnext _).congr (by simp [hopen])
        | true =>
          rw [if_pos (by simp)]
          exact (ih hnext.close _).congr (by simp [hopen])

/-! ## One event, and all of them -/

/-- **One event** keeps the promises exactly if it is fit. -/
theorem Kept.react (h : Kept s) (options : ConnectOptions) (e : ClientEvent) :
    KeptIff (s.react options e) (Fit options s e) := by
  cases e with
  | token n answer closes =>
    unfold Connection.react Fit
    dsimp only
    by_cases hn : n < s.requests.length
    · rw [if_pos hn]
      exact ((h.ready_request hn).gotToken options answer closes).congr (by simp [hn])
    · rw [if_neg hn]
      exact KeptIff.of_true h fun hn' => absurd hn' hn
  | tokenRejected n =>
    unfold Connection.react Fit
    dsimp only
    by_cases hn : n < s.requests.length
    · rw [if_pos hn]
      exact ((h.ready_request hn).stranded (e := .tokenRejected) not_false not_false).congr
        (by simp [hn])
    · rw [if_neg hn]
      exact KeptIff.of_true h fun hn' => absurd hn' hn
  | opened id closes =>
    refine KeptIff.of_true ?_ trivial
    unfold Connection.react
    dsimp only
    split
    · have hbackoff : Kept { s with backoff := 1000 } :=
        ⟨⟨h.atMostOne, h.exactlyOne, h.quiet⟩, h.socket, h.closed, h.silent⟩
      exact hbackoff.onStatusChange .open closes
    · exact h
  | errored id =>
    refine KeptIff.of_true ?_ trivial
    unfold Connection.react
    dsimp only
    split
    · exact h.onerror
    · exact h
  | message id data closes =>
    unfold Connection.react Fit
    dsimp only
    by_cases hid : id ∈ s.sockets
    · rw [if_pos hid]
      exact (h.deliver _ _).congr (by simp [hid])
    · rw [if_neg hid]
      exact KeptIff.of_true h fun hid' => absurd hid' hid
  | socketClosed id code closes =>
    refine KeptIff.of_true ?_ trivial
    unfold Connection.react
    dsimp only
    split
    · rename_i hid
      have hready := h.ready_socket hid
      have hclosed : Ready { ({ s with sockets := s.sockets.erase id } : Connection) with
          socket := none } := hready
      exact hclosed.onclose code closes
    · exact h
  | timer n closes =>
    refine KeptIff.of_true ?_ trivial
    unfold Connection.react
    dsimp only
    split
    · exact h
    · rename_i reason delay htimer
      exact (h.ready_timer (List.getElem?_eq_some_iff.mp htimer).1).connect reason closes
  | close => exact KeptIff.of_true h.close trivial

end

/-! ## Never more than one -/

@[simp] theorem deliver_pending (messages : List (Json (List Char))) (closes : List Bool)
    (s : Connection) : (s.deliver messages closes).pending = s.pending := by
  induction messages generalizing closes s with
  | nil => rfl
  | cons message rest ih =>
    unfold Connection.deliver
    rw [ih]
    split
    · rfl
    · rfl

theorem connect_pending_le (reason : TokenReason) (closes : Bool) (s : Connection) :
    (s.connect reason closes).pending ≤ s.pending + 1 := by
  unfold Connection.connect
  split
  · omega
  · rw [note_pending]
    unfold Connection.pending
    simp only [onStatusChange_requests, onStatusChange_sockets, onStatusChange_timers,
      List.length_append, List.length_singleton]
    omega

theorem gotToken_pending_le (options : ConnectOptions) (answer : Option String) (closes : Bool)
    (s : Connection) : (s.gotToken options answer closes).pending ≤ s.pending + 1 := by
  unfold Connection.gotToken
  split
  · omega
  · split
    · simp
    · split
      · omega
      · unfold Connection.openSocket
        rw [note_pending]
        unfold Connection.pending
        simp only [List.length_append, List.length_singleton]
        omega

theorem onclose_pending_le (code : Nat) (closes : Bool) (s : Connection) :
    (s.onclose code closes).pending ≤ s.pending + 1 := by
  have hsame : ({ s with socket := none } : Connection).pending = s.pending := rfl
  unfold Connection.onclose
  dsimp only
  split
  · omega
  · split
    · simp [hsame]
    · unfold Connection.pending Connection.retryAfter
      simp only [onStatusChange_requests, onStatusChange_sockets, onStatusChange_timers,
        List.length_append, List.length_singleton]
      omega

/-- **An event takes one thing away before it adds one.** -/
theorem react_pending_le (options : ConnectOptions) (s : Connection) (e : ClientEvent) :
    (s.react options e).pending ≤ s.pending := by
  cases e with
  | token n answer closes =>
    unfold Connection.react
    dsimp only
    split
    · rename_i hn
      -- The token that came is used up, and makes at most one socket.
      refine (gotToken_pending_le _ _ _ _).trans ?_
      rw [note_pending]
      have hlength := List.length_eraseIdx_of_lt hn
      unfold Connection.pending
      dsimp only
      omega
    · exact le_rfl
  | tokenRejected n =>
    unfold Connection.react
    dsimp only
    split
    · rename_i hn
      rw [note_pending]
      have hlength := List.length_eraseIdx_of_lt hn
      unfold Connection.pending
      dsimp only
      omega
    · exact le_rfl
  | opened id closes =>
    unfold Connection.react
    dsimp only
    split
    · simp
      rfl
    · exact le_rfl
  | errored id =>
    unfold Connection.react Connection.onerror
    dsimp only
    split
    · split
      · exact le_rfl
      · exact le_rfl
    · exact le_rfl
  | message id data closes =>
    unfold Connection.react
    dsimp only
    split
    · simp
    · exact le_rfl
  | socketClosed id code closes =>
    unfold Connection.react
    dsimp only
    split
    · rename_i hid
      -- A socket is gone, and leaves at most one timer.
      refine (onclose_pending_le _ _ _).trans ?_
      rw [note_pending]
      have hlength := List.length_erase_of_mem hid
      have hpos := List.length_pos_of_mem hid
      unfold Connection.pending
      dsimp only
      omega
    · exact le_rfl
  | timer n closes =>
    unfold Connection.react
    dsimp only
    split
    · exact le_rfl
    · rename_i reason delay htimer
      -- A timer has run, and asks for one token.
      refine (connect_pending_le _ _ _).trans ?_
      have hn := (List.getElem?_eq_some_iff.mp htimer).1
      have hlength := List.length_eraseIdx_of_lt hn
      unfold Connection.pending
      dsimp only
      omega
  | close => exact le_rfl

theorem run_pending_le (options : ConnectOptions) (events : List ClientEvent) (s : Connection) :
    (events.foldl (react options) s).pending ≤ s.pending := by
  induction events generalizing s with
  | nil => exact le_rfl
  | cons e rest ih => exact (ih _).trans (react_pending_le options s e)

theorem start_kept : Kept start := by
  have hready : Ready {} := by
    refine ⟨rfl, rfl, by simp, fun _ => not_over_nil, List.Pairwise.nil⟩
  exact hready.connect .initial false

end Connection

/-- **A connection is neither abandoned nor doubled, and silent once closed**, exactly as long as no
request is rejected while the connection is wanted, its address is one, and no message comes after
`close()`. Never is more than one thing under way, whatever happens. -/
theorem connection_sound_iff (options : ConnectOptions) (events : List ClientEvent) :
    (events.foldl (Connection.react options) .start).pending ≤ 1 ∧
    ((∀ before, before <+: events → (before.foldl (Connection.react options) .start).Sound) ↔
      RunMeets (fun s e => some (Connection.react options s e)) (Fit options) .start events) := by
  constructor
  · exact Connection.run_pending_le options events .start
  · exact foldl_prefixes_iff (f := Connection.react options) (I := Connection.Kept)
      (P := Connection.Sound) (fun _ h => h.toSound) (fun _ e h hfit => (h.react options e).1 hfit)
      (fun _ e h hsound => (h.react options e).2 hsound) Connection.start_kept

/-- **A request that is rejected** is the end of the connection, and nobody is told. -/
theorem connection_abandoned :
    ¬∀ (options : ConnectOptions) (events : List ClientEvent),
      (events.foldl (Connection.react options) .start).Sound := by
  intro h
  have hsound := h ⟨"t", "https://api.example.com"⟩ [.tokenRejected 0]
  have hlog : ([ClientEvent.tokenRejected 0].foldl
      (Connection.react ⟨"t", "https://api.example.com"⟩) .start).log =
      [.status .connecting, .getToken .initial, .tokenRejected] := rfl
  have hone := hsound.exactlyOne (by rw [hlog]; simp [Entry.Ends])
  revert hone
  decide

end IotSaas.Realtime
