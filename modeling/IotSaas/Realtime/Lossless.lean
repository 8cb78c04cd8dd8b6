import IotSaas.Realtime.Relay

/-!
# `Realtime/Lossless.lean` — no event is lost while the feed is open

Three things lose one. The subscription comes after `accept`, so an event may be published to a
client that is already open and not yet subscribed. A reading that is not a finite number prints as
`NaN` or `Infinity`, and the client then refuses the whole frame it is in (`frame_refused`),
whatever else is in it. And a socket that closes takes along what is under way. Apart from these
the feed passes every event on, once and in order (`live_feed_lossless`).

`Carries` says where the published events are; each step moves some of them along.
-/

set_option autoImplicit false

namespace IotSaas.Realtime

open Lib JsonText

/-! ## Frames -/

theorem message?_of_finite {event : Event} (h : event.finite = true) :
    event.message?.isSome = true := by
  rw [message?_isSome, h]

/-- A frame of finite events delivers them all. -/
theorem frame_whole {events : List Event} (hevents : events ≠ [])
    (h : ∀ event ∈ events, event.finite = true) :
    (onmessage (batchFrame (events.map publishEvent))).map some =
      events.map Event.message? := by
  have hall : ∀ message ∈ events.map Event.message?, message.isSome = true :=
    List.forall_mem_map.mpr fun event hevent => message?_of_finite (h event hevent)
  obtain ⟨items, hitems, hsome⟩ := allOf_of_isSome hall
  rw [onmessage_batchFrame hevents, hitems]
  exact hsome

/-- **One event that is not finite takes the others of its frame along.** -/
theorem frame_refused {events : List Event} {event : Event} (hevent : event ∈ events)
    (h : event.finite = false) : onmessage (batchFrame (events.map publishEvent)) = [] := by
  have hnone : event.message? = none := by
    have hsome := message?_isSome event
    rw [h] at hsome
    simpa using hsome
  have hmem : none ∈ events.map Event.message? := List.mem_map.mpr ⟨event, hevent, hnone⟩
  rw [onmessage_batchFrame (List.ne_nil_of_mem hevent), allOf_none hmem]
  rfl

theorem parse_isSome (event : Event) : (parse (publishEvent event)).isSome = event.finite := by
  rw [parse_publishEvent, message?_isSome]

/-! ## Where the events are -/

/-- A step that loses no event: what is published to an open client is finite and finds the
subscription, what is collected since does not join an earlier event that is not finite, and the
socket does not close on an event that is still under way. -/
def Whole (s : Feed) : Step → Prop
  | .publish event =>
      s.opened = true → s.closed = false → s.subscribed = true ∧ event.finite = true
  | .collect =>
      s.during.length < s.channel.length ∨ ∀ text ∈ s.pending, (parse text).isSome = true
  | .close => s.during = [] ∨ s.Quiet
  | _ => True

/-- Everything published and not lost, in order: `out` is with the client or on the wire to it,
`waiting` is pending and `coming` on the channel. -/
structure Carries (s : Feed) (out waiting coming early : List Event) : Prop where
  delivered : (s.received ++ s.frames.flatMap onmessage).map some = out.map Event.message?
  pending : s.pending = waiting.map publishEvent
  channel : s.channel = coming.map publishEvent
  order : out ++ waiting ++ coming = early ++ s.during
  early : early.Sublist s.before
  finite : ∀ event ∈ s.during, event.finite = true
  /-- An event that is not finite does not wait together with one since `onopen`. -/
  apart : s.during.length ≤ coming.length ∨ ∀ event ∈ waiting, event.finite = true
  unopened : s.opened = false → s.during = []
  unsubscribed : s.subscribed = false → s.Quiet
  closed : s.closed = true → s.subscribed = false

def Sound (s : Feed) : Prop :=
  ∃ out waiting coming early, Carries s out waiting coming early

theorem sound_start : Sound Feed.start :=
  ⟨[], [], [], [], rfl, rfl, rfl, rfl, .refl _, nofun, .inr nofun, fun _ => rfl,
    fun _ => ⟨rfl, rfl, rfl⟩, nofun⟩

section

variable {s : Feed} {out waiting coming early : List Event}

/-- The events since `onopen` are the last ones. -/
theorem Carries.ends (h : Carries s out waiting coming early) :
    (∃ first, early = out ++ waiting ++ first ∧ coming = first ++ s.during) ∨
      ∃ later, out ++ waiting = early ++ later ∧ s.during = later ++ coming :=
  List.append_eq_append_iff.mp h.order

theorem Carries.quiet (h : Carries s out waiting coming early) (hquiet : s.Quiet) :
    waiting = [] ∧ coming = [] ∧ s.frames = [] := by
  obtain ⟨hchannel, hpending, hframes⟩ := hquiet
  refine ⟨?_, ?_, hframes⟩
  · exact List.map_eq_nil_iff.mp (h.pending.symm.trans hpending)
  · exact List.map_eq_nil_iff.mp (h.channel.symm.trans hchannel)

/-- With nothing under way, all of them have arrived. -/
theorem Carries.lossless (h : Carries s out waiting coming early) (hquiet : s.Quiet) :
    s.Lossless := by
  obtain ⟨rfl, rfl, hframes⟩ := h.quiet hquiet
  refine ⟨early, h.early, ?_⟩
  have hdelivered := h.delivered
  have horder := h.order
  rw [hframes, List.flatMap_nil, List.append_nil] at hdelivered
  rw [List.append_nil, List.append_nil] at horder
  rw [hdelivered, horder]

/-! ## Steps -/

theorem Carries.channel_append (h : Carries s out waiting coming early) (event : Event) :
    s.channel ++ [publishEvent event] = (coming ++ [event]).map publishEvent := by
  rw [h.channel, List.map_append, List.map_singleton]

variable {event : Event}

/-- An event for a client that is open. -/
theorem Carries.publish_open (h : Carries s out waiting coming early) (hopened : s.opened = true)
    (hsubscribed : s.subscribed = true) (hfinite : event.finite = true) :
    Carries { s with during := s.during ++ [event], channel := s.channel ++ [publishEvent event] }
      out waiting (coming ++ [event]) early where
  delivered := h.delivered
  pending := h.pending
  channel := h.channel_append event
  order := by
    show out ++ waiting ++ (coming ++ [event]) = early ++ (s.during ++ [event])
    rw [← List.append_assoc, h.order, List.append_assoc]
  early := h.early
  finite := List.forall_mem_append.mpr ⟨h.finite, by simpa using hfinite⟩
  apart := by simpa using h.apart
  unopened hnot := absurd (hopened.symm.trans hnot) (by decide)
  unsubscribed hnot := absurd (hsubscribed.symm.trans hnot) (by decide)
  closed := h.closed

/-- An event for a client that is subscribed and has not seen so. -/
theorem Carries.publish_early (h : Carries s out waiting coming early) (hopened : s.opened = false)
    (hsubscribed : s.subscribed = true) :
    Carries { s with before := s.before ++ [event], channel := s.channel ++ [publishEvent event] }
      out waiting (coming ++ [event]) (early ++ [event]) where
  delivered := h.delivered
  pending := h.pending
  channel := h.channel_append event
  order := by
    have horder := h.order
    rw [h.unopened hopened, List.append_nil] at horder
    show out ++ waiting ++ (coming ++ [event]) = early ++ [event] ++ s.during
    rw [h.unopened hopened, List.append_nil, ← List.append_assoc, horder]
  early := h.early.append_right [event]
  finite := h.finite
  apart := .inl (by simp [h.unopened hopened])
  unopened := h.unopened
  unsubscribed hnot := absurd (hsubscribed.symm.trans hnot) (by decide)
  closed := h.closed

theorem Carries.publish (h : Carries s out waiting coming early) {event : Event}
    (hwhole : Whole s (.publish event)) : Sound (s.publish event) := by
  cases hclosed : s.closed with
  | true =>
    have hsame : s.publish event = s := by
      simp [Feed.publish, Feed.note, hclosed, h.closed hclosed]
    rw [hsame]
    exact ⟨out, waiting, coming, early, h⟩
  | false =>
    cases hopened : s.opened with
    | true =>
      obtain ⟨hsubscribed, hfinite⟩ := hwhole hopened hclosed
      have hpublish : s.publish event = { s with
          during := s.during ++ [event], channel := s.channel ++ [publishEvent event] } := by
        simp [Feed.publish, Feed.note, hclosed, hopened, hsubscribed]
      rw [hpublish]
      exact ⟨_, _, _, _, h.publish_open hopened hsubscribed hfinite⟩
    | false =>
      cases hsubscribed : s.subscribed with
      | true =>
        have hpublish : s.publish event = { s with
            before := s.before ++ [event], channel := s.channel ++ [publishEvent event] } := by
          simp [Feed.publish, Feed.note, hclosed, hopened, hsubscribed]
        rw [hpublish]
        exact ⟨_, _, _, _, h.publish_early hopened hsubscribed⟩
      | false =>
        have hpublish : s.publish event = { s with before := s.before ++ [event] } := by
          simp [Feed.publish, Feed.note, hclosed, hopened, hsubscribed]
        rw [hpublish]
        exact ⟨out, waiting, coming, early, { h with
          early := h.early.trans (List.sublist_append_left _ _) }⟩

/-- The next on the channel is one since `onopen`, unless those are all behind it. -/
theorem Carries.head_during {rest : List Event} (h : Carries s out waiting (event :: rest) early)
    (hlength : rest.length < s.during.length) :
    event ∈ s.during := by
  rcases h.ends with ⟨first, -, hcoming⟩ | ⟨later, -, hduring⟩
  · cases first with
    | nil =>
      rw [List.nil_append] at hcoming
      rw [← hcoming]
      exact List.mem_cons_self
    | cons head first =>
      have hrest : rest = first ++ s.during := (List.cons.inj hcoming).2
      rw [hrest, List.length_append] at hlength
      omega
  · rw [hduring]
    exact List.mem_append_right _ List.mem_cons_self

section

variable (h : Carries s out waiting coming early)

include h

theorem Carries.pending_finite (hparse : ∀ text ∈ s.pending, (parse text).isSome = true) :
    ∀ event ∈ waiting, event.finite = true := by
  intro event hevent
  rw [← parse_isSome]
  apply hparse
  rw [h.pending]
  exact List.mem_map_of_mem hevent

/-- What is collected since `onopen` is finite, or what is pending still is from before it. -/
theorem Carries.collect {s' : Feed} (hwhole : Whole s .collect) (hstep : s.collect = some s') :
    Sound s' := by
  cases coming with
  | nil =>
    rw [Feed.collect, h.channel] at hstep
    cases hstep
  | cons event rest =>
    rw [Feed.collect, h.channel] at hstep
    cases hstep
    refine ⟨out, waiting ++ [event], rest, early, h.delivered, ?_, rfl, ?_, h.early, h.finite, ?_,
      h.unopened, ?_, h.closed⟩
    · rw [h.pending, List.map_append]
      rfl
    · rw [← h.order]
      simp
    · by_cases hlength : s.during.length ≤ rest.length
      · exact .inl hlength
      · refine .inr (List.forall_mem_append.mpr ⟨?_, ?_⟩)
        · exact h.pending_finite (hwhole.resolve_left (by simp [h.channel]; omega))
        · simpa using h.finite event (h.head_during (Nat.not_le.mp hlength))
    · intro hnot
      have hquiet := (h.unsubscribed hnot).1
      rw [h.channel] at hquiet
      cases hquiet

/-- A frame that is sent delivers all that was pending. -/
theorem Carries.flush_whole (hwaiting : waiting ≠ [])
    (hfinite : ∀ event ∈ waiting, event.finite = true) :
    Carries { s with pending := [], frames := s.frames ++ [batchFrame s.pending] }
      (out ++ waiting) [] coming early where
  delivered := by
    have hframe := frame_whole hwaiting hfinite
    rw [← h.pending] at hframe
    simp only [List.flatMap_append, List.flatMap_singleton, List.map_append, hframe,
      ← List.append_assoc]
    rw [← List.map_append, h.delivered]
  pending := rfl
  channel := h.channel
  order := by rw [List.append_nil, h.order]
  early := h.early
  finite := h.finite
  apart := .inr nofun
  unopened := h.unopened
  unsubscribed hnot := by
    have hquiet := (h.unsubscribed hnot).2.1
    rw [h.pending] at hquiet
    exact absurd (List.map_eq_nil_iff.mp hquiet) hwaiting
  closed := h.closed

/-- A frame that is refused takes only events from before `onopen`. -/
theorem Carries.flush_refused (hevent : event ∈ waiting) (hfinite : event.finite = false)
    (hduring : s.during.length ≤ coming.length) :
    ∃ early, Carries { s with pending := [], frames := s.frames ++ [batchFrame s.pending] }
      out [] coming early := by
  obtain ⟨first, hearly, hcoming⟩ : ∃ first, early = out ++ waiting ++ first ∧
      coming = first ++ s.during := by
    rcases h.ends with hends | ⟨later, hout, hlater⟩
    · exact hends
    · rw [hlater, List.length_append] at hduring
      obtain rfl : later = [] := List.eq_nil_of_length_eq_zero (by omega)
      exact ⟨[], by simpa using hout.symm, hlater.symm⟩
  have hframe := frame_refused hevent hfinite
  rw [← h.pending] at hframe
  refine ⟨out ++ first, ?_, rfl, h.channel, ?_, ?_, h.finite, .inr nofun, h.unopened, ?_, h.closed⟩
  · simpa [hframe] using h.delivered
  · simp [hcoming]
  · have hsub : (out ++ first).Sublist early := by
      rw [hearly]
      exact (List.sublist_append_left out waiting).append_right first
    exact hsub.trans h.early
  · intro hnot
    have hquiet := (h.unsubscribed hnot).2.1
    rw [h.pending] at hquiet
    cases List.map_eq_nil_iff.mp hquiet
    cases hevent

theorem Carries.flush : Sound s.flush := by
  cases waiting with
  | nil =>
    have hsame : s.flush = s := by
      rw [Feed.flush, h.pending]
      rfl
    rw [hsame]
    exact ⟨out, [], coming, early, h⟩
  | cons event rest =>
    have hflush : s.flush =
        { s with pending := [], frames := s.frames ++ [batchFrame s.pending] } := by
      rw [Feed.flush, h.pending]
      rfl
    rw [hflush]
    by_cases hall : ∀ event' ∈ event :: rest, event'.finite = true
    · exact ⟨_, [], coming, early, h.flush_whole (List.cons_ne_nil _ _) hall⟩
    · have hduring := h.apart.resolve_right hall
      push Not at hall
      obtain ⟨bad, hbad, hfinite⟩ := hall
      obtain ⟨early', h'⟩ := h.flush_refused hbad (Bool.eq_false_iff.mpr hfinite) hduring
      exact ⟨out, [], coming, early', h'⟩

theorem Carries.receive {s' : Feed} (hstep : s.receive = some s') :
    Carries s' out waiting coming early := by
  unfold Feed.receive at hstep
  split at hstep
  · cases hstep
  · rename_i data rest hframes
    cases hstep
    have hdelivered := h.delivered
    rw [hframes, List.flatMap_cons, ← List.append_assoc] at hdelivered
    refine { h with delivered := hdelivered, unsubscribed := fun hnot => ?_ }
    have hquiet := (h.unsubscribed hnot).2.2
    rw [hframes] at hquiet
    cases hquiet

/-- What a closing socket takes along is from before `onopen`. -/
theorem Carries.close (hwhole : Whole s .close) :
    Sound s.close := by
  have hclosed : s.close.Quiet := ⟨rfl, rfl, rfl⟩
  rcases hwhole with hduring | hquiet
  · have horder := h.order
    rw [hduring, List.append_nil] at horder
    have hdelivered := h.delivered
    rw [List.map_append] at hdelivered
    obtain ⟨here, lost, hout, hhere, -⟩ := List.append_eq_map_iff.mp hdelivered
    refine ⟨here, [], [], here, ?_, rfl, rfl, ?_, ?_, h.finite, .inr nofun, h.unopened,
      fun _ => hclosed, fun _ => rfl⟩
    · simpa [Feed.close] using hhere.symm
    · simp [Feed.close, hduring]
    · have hsub : here.Sublist early := by
        rw [← horder, hout]
        simp
      exact hsub.trans h.early
  · obtain ⟨rfl, rfl, hframes⟩ := h.quiet hquiet
    refine ⟨out, [], [], early, ?_, rfl, rfl, h.order, h.early, h.finite, .inr nofun, h.unopened,
      fun _ => hclosed, fun _ => rfl⟩
    simpa [Feed.close, hframes] using h.delivered

/-- **Each step keeps the account.** -/
theorem Carries.step {s' : Feed} {e : Step} (hwhole : Whole s e) (hstep : step s e = some s') :
    Sound s' := by
  cases e with
  | accept =>
    simp only [Realtime.step, Option.ite_none_left_eq_some, Option.some.injEq] at hstep
    obtain ⟨-, rfl⟩ := hstep
    exact ⟨out, waiting, coming, early, { h with }⟩
  | subscribe =>
    simp only [Realtime.step, Option.ite_none_right_eq_some, Option.some.injEq, Bool.and_eq_true,
      Bool.not_eq_true'] at hstep
    obtain ⟨⟨-, hclosed⟩, rfl⟩ := hstep
    exact ⟨out, waiting, coming, early, { h with
      unsubscribed := nofun
      closed := fun hnot => absurd (hclosed.symm.trans hnot) (by decide) }⟩
  | opened =>
    simp only [Realtime.step, Option.ite_none_right_eq_some, Option.some.injEq, Bool.and_eq_true,
      Bool.not_eq_true'] at hstep
    obtain ⟨-, rfl⟩ := hstep
    exact ⟨out, waiting, coming, early, { h with unopened := nofun }⟩
  | publish event =>
    cases hstep
    exact h.publish hwhole
  | collect =>
    simp only [Realtime.step, Option.ite_none_right_eq_some] at hstep
    exact h.collect hwhole hstep.2
  | flush =>
    simp only [Realtime.step, Option.ite_none_right_eq_some, Option.some.injEq] at hstep
    obtain ⟨-, rfl⟩ := hstep
    exact h.flush
  | receive =>
    simp only [Realtime.step, Option.ite_none_right_eq_some] at hstep
    exact ⟨out, waiting, coming, early, h.receive hstep.2⟩
  | close =>
    simp only [Realtime.step, Option.ite_none_right_eq_some, Option.some.injEq] at hstep
    obtain ⟨-, rfl⟩ := hstep
    exact h.close hwhole

end

end

theorem sound_of_reaches {s : Feed} (h : Reaches step Whole Feed.start s) : Sound s := by
  refine h.invariant sound_start ?_
  intro s e s' hsound hwhole hstep
  obtain ⟨out, waiting, coming, early, hcarries⟩ := hsound
  exact hcarries.step hwhole hstep

/-! ## What is under way arrives -/

/-- The steps of the relay and of the wire. -/
inductive Tick : Step → Prop
  | collect : Tick .collect
  | flush : Tick .flush
  | receive : Tick .receive

/-- Ticks that lose nothing. -/
def Ticks (s : Feed) (e : Step) : Prop := Tick e ∧ Whole s e

/-- How many steps what is under way has before it. -/
def Feed.left (s : Feed) : Nat := 3 * s.channel.length + 2 * s.pending.length + s.frames.length

/-- A feed that is open can go on, and comes nearer to rest. -/
theorem tick_of_not_quiet {s : Feed} (hsubscribed : s.subscribed = true)
    (hopened : s.opened = true) (hclosed : s.closed = false) (hleft : ¬ s.Quiet) :
    ∃ e s', Ticks s e ∧ step s e = some s' ∧ s'.left < s.left := by
  by_cases hpending : s.pending = []
  · cases hchannel : s.channel with
    | nil =>
      cases hframes : s.frames with
      | nil => exact absurd ⟨hchannel, hpending, hframes⟩ hleft
      | cons data rest =>
        refine ⟨.receive, _, ⟨.receive, trivial⟩,
          by simp only [step, hopened, hclosed, Feed.receive, hframes]; rfl, ?_⟩
        simp [Feed.left, hframes]
    | cons data rest =>
      refine ⟨.collect, _, ⟨.collect, .inr (by simp [hpending])⟩,
        by simp only [step, hsubscribed, Feed.collect, hchannel]; rfl, ?_⟩
      simp only [Feed.left, hchannel, hpending, List.length_append, List.length_cons,
        List.length_nil]
      omega
  · obtain ⟨data, rest, hcons⟩ := List.exists_cons_of_ne_nil hpending
    refine ⟨.flush, _, ⟨.flush, trivial⟩, by simp only [step, hsubscribed]; rfl, ?_⟩
    rw [Feed.flush, hcons]
    simp only [Feed.left, hcons, List.length_append, List.length_cons, List.length_nil]
    omega

/-- Two states of one socket, with the same publishes behind them. -/
structure Beside (s s' : Feed) : Prop where
  subscribed : s'.subscribed = s.subscribed
  opened : s'.opened = s.opened
  closed : s'.closed = s.closed
  before : s'.before = s.before
  during : s'.during = s.during

theorem Beside.trans {s s' s'' : Feed} (h : Beside s s') (h' : Beside s' s'') : Beside s s'' :=
  ⟨h'.subscribed.trans h.subscribed, h'.opened.trans h.opened, h'.closed.trans h.closed,
    h'.before.trans h.before, h'.during.trans h.during⟩

theorem beside_of_tick {s s' : Feed} {e : Step} (h : Tick e) (hstep : step s e = some s') :
    Beside s s' := by
  cases h with
  | collect =>
    simp only [step, Option.ite_none_right_eq_some, Feed.collect] at hstep
    split at hstep
    · cases hstep.2
    · cases hstep.2
      exact ⟨rfl, rfl, rfl, rfl, rfl⟩
  | flush =>
    simp only [step, Option.ite_none_right_eq_some, Option.some.injEq, Feed.flush] at hstep
    split at hstep
    · cases hstep.2
      exact ⟨rfl, rfl, rfl, rfl, rfl⟩
    · cases hstep.2
      exact ⟨rfl, rfl, rfl, rfl, rfl⟩
  | receive =>
    simp only [step, Option.ite_none_right_eq_some, Feed.receive] at hstep
    split at hstep
    · cases hstep.2
    · cases hstep.2
      exact ⟨rfl, rfl, rfl, rfl, rfl⟩

theorem ticks_settle (s : Feed) (hsubscribed : s.subscribed = true) (hopened : s.opened = true)
    (hclosed : s.closed = false) :
    ∃ s', Reaches step Ticks s s' ∧ Beside s s' ∧ s'.Quiet := by
  have hall : ∀ (n : Nat) (s₁ : Feed), s₁.left ≤ n → Reaches step Ticks s s₁ → Beside s s₁ →
      ∃ s', Reaches step Ticks s s' ∧ Beside s s' ∧ s'.Quiet := by
    intro n
    induction n with
    | zero =>
      intro s₁ hleft hreach hbeside
      refine ⟨s₁, hreach, hbeside, ?_⟩
      by_contra hquiet
      obtain ⟨e, s₂, -, -, hless⟩ := tick_of_not_quiet (hbeside.subscribed.trans hsubscribed)
        (hbeside.opened.trans hopened) (hbeside.closed.trans hclosed) hquiet
      omega
    | succ n ih =>
      intro s₁ hleft hreach hbeside
      by_cases hquiet : s₁.Quiet
      · exact ⟨s₁, hreach, hbeside, hquiet⟩
      · obtain ⟨e, s₂, htick, hstep, hless⟩ :=
          tick_of_not_quiet (hbeside.subscribed.trans hsubscribed)
            (hbeside.opened.trans hopened) (hbeside.closed.trans hclosed) hquiet
        exact ih s₂ (by omega) (hreach.next htick hstep)
          (hbeside.trans (beside_of_tick htick.1 hstep))
  exact hall s.left s le_rfl .start ⟨rfl, rfl, rfl, rfl, rfl⟩

theorem whole_of_ticks {s s' : Feed} (h : Reaches step Whole Feed.start s)
    (hticks : Reaches step Ticks s s') : Reaches step Whole Feed.start s' :=
  hticks.invariant h fun _ _ _ hreach htick hstep => hreach.next htick.2 hstep

/-! ## The feed -/

/-- What has been passed on so far is an initial part of what will be. -/
theorem Sound.passed {s : Feed} (h : Sound s) :
    ∃ early, early.Sublist s.before ∧
      s.received.map some <+: (early ++ s.during).map Event.message? := by
  obtain ⟨out, waiting, coming, early, hcarries⟩ := h
  refine ⟨early, hcarries.early, ?_⟩
  rw [← hcarries.order, List.append_assoc, List.map_append, ← hcarries.delivered,
    List.map_append, List.append_assoc]
  exact List.prefix_append _ _

/-- **The live feed is lossless** in every run whose steps lose no event (`Whole`). What the client
was passed is, at any time, the beginning of what was published since `onopen`, in order and each
once (behind some of what came before); it is all of it when nothing is under way, closed sockets
included; and from any state of an open feed the ticks of the relay alone come to such a state. -/
theorem live_feed_lossless {s : Feed} (h : Reaches step Whole Feed.start s) :
    (∃ early, early.Sublist s.before ∧
      s.received.map some <+: (early ++ s.during).map Event.message?) ∧
    (s.Quiet ∨ s.closed = true → s.Lossless) ∧
    (s.opened = true → s.closed = false →
      ∃ s', Reaches step Ticks s s' ∧ s'.during = s.during ∧ s'.Quiet ∧ s'.Lossless) := by
  have hsound := sound_of_reaches h
  refine ⟨hsound.passed, ?_, ?_⟩
  · obtain ⟨out, waiting, coming, early, hcarries⟩ := hsound
    rintro (hquiet | hclosed)
    · exact hcarries.lossless hquiet
    · exact hcarries.lossless (hcarries.unsubscribed (hcarries.closed hclosed))
  · intro hopened hclosed
    cases hsubscribed : s.subscribed with
    | false =>
      obtain ⟨out, waiting, coming, early, hcarries⟩ := hsound
      have hquiet := hcarries.unsubscribed hsubscribed
      exact ⟨s, .start, rfl, hquiet, hcarries.lossless hquiet⟩
    | true =>
      obtain ⟨s', hticks, hbeside, hquiet⟩ := ticks_settle s hsubscribed hopened hclosed
      obtain ⟨out, waiting, coming, early, hcarries⟩ := sound_of_reaches (whole_of_ticks h hticks)
      exact ⟨s', hticks, hbeside.during, hquiet, hcarries.lossless hquiet⟩

/-! ## One frame of two events -/

/-- A time as `timestamp()` has it. -/
def taken : Numeral := ⟨['1', '7', '0', '0', '0', '0', '0', '0', '0', '0', '.', '5'], by decide⟩

def reading (deviceId : String) (value : PyNumber) : Event :=
  .telemetry deviceId "temperature" value taken

/-- A reading like any other. -/
def mild : Event := reading "greenhouse" (.finite ⟨['2', '1', '.', '5'], by decide⟩)

/-- What is read of a probe that has come off. -/
def broken : Event := reading "boiler" .nan

/-- An open client whose one frame held two events. -/
def shared (first second : Event) : Feed :=
  { Feed.start with
    accepted := true
    subscribed := true
    opened := true
    received := onmessage (batchFrame ([first, second].map publishEvent))
    during := [first, second] }

theorem received_shared (first second : Event) :
    (shared first second).received =
      onmessage (batchFrame ([first, second].map publishEvent)) := rfl

theorem run_shared (first second : Event) :
    run step Feed.start [.accept, .subscribe, .opened, .publish first, .publish second, .collect,
      .collect, .flush, .receive] = some (shared first second) := rfl

theorem whole_publish {s : Feed} (event : Event) (hsubscribed : s.subscribed = true)
    (hfinite : event.finite = true) : Whole s (.publish event) :=
  fun _ _ => ⟨hsubscribed, hfinite⟩

theorem whole_collect {s : Feed} (waiting : List Event)
    (hpending : s.pending = waiting.map publishEvent)
    (hfinite : ∀ event ∈ waiting, event.finite = true) : Whole s .collect := by
  right
  rw [hpending]
  exact List.forall_mem_map.mpr fun event hevent =>
    (parse_isSome event).trans (hfinite event hevent)

theorem shared_reached {first second : Event} (hfirst : first.finite = true)
    (hsecond : second.finite = true) : Reaches step Whole Feed.start (shared first second) := by
  have hstart : Reaches step Whole Feed.start Feed.start := .start
  have haccepted := hstart.next (show Whole Feed.start .accept from trivial) rfl
  have hsubscribed := haccepted.next (show Whole _ .subscribe from trivial) rfl
  have hopened := hsubscribed.next (show Whole _ .opened from trivial) rfl
  have hone := hopened.next (whole_publish first rfl hfirst) rfl
  have htwo := hone.next (whole_publish second rfl hsecond) rfl
  have hfirst' := htwo.next (whole_collect [] rfl nofun) rfl
  have hsecond' := hfirst'.next (whole_collect [first] rfl (by simpa using hfirst)) rfl
  have hsent := hsecond'.next (show Whole _ .flush from trivial) rfl
  exact hsent.next (show Whole _ .receive from trivial) rfl

theorem two_mild_readings_arrive :
    (∃ early, early.Sublist (shared mild mild).before ∧
      (shared mild mild).received.map some <+:
        (early ++ (shared mild mild).during).map Event.message?) ∧
    ((shared mild mild).Quiet ∨ (shared mild mild).closed = true → (shared mild mild).Lossless) ∧
    ((shared mild mild).opened = true → (shared mild mild).closed = false →
      ∃ s', Reaches step Ticks (shared mild mild) s' ∧ s'.during = (shared mild mild).during ∧
        s'.Quiet ∧ s'.Lossless) :=
  live_feed_lossless (shared_reached rfl rfl)

/-- The broken probe takes the greenhouse along. -/
theorem broken_probe_silences_greenhouse :
    ∃ s, Reaches step Always Feed.start s ∧ s.opened = true ∧ s.closed = false ∧ s.Quiet ∧
      s.during = [mild, broken] ∧ s.received = [] ∧ ¬ s.Lossless := by
  have hmem : broken ∈ [mild, broken] := by simp
  have hreceived : (shared mild broken).received = [] := by
    rw [received_shared]
    exact frame_refused hmem rfl
  refine ⟨shared mild broken, .of_run (run_shared mild broken), rfl, rfl, ⟨rfl, rfl, rfl⟩, rfl,
    hreceived, ?_⟩
  rintro ⟨early, -, hall⟩
  rw [hreceived] at hall
  simpa [shared] using congrArg List.length hall

end IotSaas.Realtime
