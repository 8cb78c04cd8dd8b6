import IotSaas.Charts.Subscribers
import IotSaas.Lib.Logs

/-!
# `Charts/Rounds.lean` — what a live buffer does in one step, and in which order points are told

Every event of a run is one or two steps of `Step`, which says all that may change. What holds of
the empty buffer and is kept by every step holds after every run in which nobody unsubscribes twice
(`after_invariant`).

From it follows in which order points come: those of a series are told as they were pushed, and what
a flush tells was pushed after all that an earlier flush has told (`after_ordered`).
-/

set_option autoImplicit false

namespace IotSaas.Charts

open Lib

namespace LiveBuffer

variable {T V : Type*} [LinearOrder T]

/-! ## The next callback -/

section

omit [LinearOrder T]

/-- Nobody listens to a series. -/
def Unheard (s : LiveBuffer T V) (key : String) : Prop :=
  ∀ set, s.listeners.get key = some set → ∀ i l, ¬(s.setAt set).At i l

/-- The round has come to the end of its set. -/
def Idle (s : LiveBuffer T V) (d : Delivery T V) : Prop :=
  ∀ r, d.current = some r → (s.setAt r.set).next r.index = none

/-- Whose turn it is in a flush: the next listener of the round, or the first of a series that
follows. -/
inductive Turn (s : LiveBuffer T V) (d : Delivery T V) (l : Nat) : Round T V → Pile T V → Prop
  | again {r : Round T V} {i : Nat} (hcur : d.current = some r)
      (hnext : (s.setAt r.set).next r.index = some (l, i)) : Turn s d l { r with index := i } d.rest
  | on {skipped rest : Pile T V} {key : String} {points : List (LivePoint T V)} {set i : Nat}
      (hidle : s.Idle d) (hrest : d.rest = skipped ++ (key, points) :: rest)
      (hskipped : ∀ x ∈ skipped, s.Unheard x.1) (hget : s.listeners.get key = some set)
      (hnext : (s.setAt set).next 0 = some (l, i)) : Turn s d l ⟨key, points, set, i⟩ rest

theorem unheard_of_meet {s : LiveBuffer T V} {key : String} {points : List (LivePoint T V)}
    (h : ((s.listeners.get key).bind fun set => s.meet ⟨key, points, set, 0⟩) = none) :
    s.Unheard key := by
  intro set hget i l
  rw [hget, Option.bind_some, meet, Option.map_eq_none_iff] at h
  exact JsSet.not_at_of_next_eq_none h (Nat.zero_le i)

theorem advance_spec (s : LiveBuffer T V) (pile : Pile T V) :
    match s.advance pile with
    | none => ∀ x ∈ pile, s.Unheard x.1
    | some (l, r, rest) => ∃ skipped key points set i, r = ⟨key, points, set, i⟩ ∧
        pile = skipped ++ (key, points) :: rest ∧ (∀ x ∈ skipped, s.Unheard x.1) ∧
        s.listeners.get key = some set ∧ (s.setAt set).next 0 = some (l, i) := by
  induction pile with
  | nil => simp [advance]
  | cons x pile ih =>
    obtain ⟨key, points⟩ := x
    unfold advance
    cases hmeet : (s.listeners.get key).bind fun set => s.meet ⟨key, points, set, 0⟩ with
    | some found =>
      obtain ⟨set, hget, hmet⟩ := Option.bind_eq_some_iff.mp hmeet
      obtain ⟨⟨l, i⟩, hnext, rfl⟩ := Option.map_eq_some_iff.mp hmet
      exact ⟨[], key, points, set, i, rfl, rfl, by simp, hget, hnext⟩
    | none =>
      have hunheard := unheard_of_meet hmeet
      dsimp only
      cases hadvance : s.advance pile with
      | none =>
        rw [hadvance] at ih
        intro x hx
        rcases List.mem_cons.mp hx with rfl | hx
        · exact hunheard
        · exact ih x hx
      | some found =>
        rw [hadvance] at ih
        obtain ⟨skipped, key', points', set, i, hr, hpile, hskipped, hget, hnext⟩ := ih
        refine ⟨(key, points) :: skipped, key', points', set, i, hr, by rw [hpile]; rfl, ?_, hget,
          hnext⟩
        intro x hx
        rcases List.mem_cons.mp hx with rfl | hx
        · exact hunheard
        · exact hskipped x hx

/-- A callback is called. -/
def tell (l : Nat) (r : Round T V) (rest : Pile T V) (s : LiveBuffer T V) : LiveBuffer T V :=
  { s with delivery := some { current := some r, rest } }.note (.delivered l r.key r.points)

/-- The flush is over. -/
def finish (s : LiveBuffer T V) : LiveBuffer T V := { s with delivery := none }.note .ended

theorem next_cases (s : LiveBuffer T V) (d : Delivery T V) :
    (∃ l r rest, Turn s d l r rest ∧ s.next d = s.tell l r rest) ∨
      s.Idle d ∧ (∀ x ∈ d.rest, s.Unheard x.1) ∧ s.next d = s.finish := by
  unfold next
  cases hmeet : d.current.bind s.meet with
  | some found =>
    obtain ⟨r, hcur, hmet⟩ := Option.bind_eq_some_iff.mp hmeet
    obtain ⟨⟨l, i⟩, hnext, rfl⟩ := Option.map_eq_some_iff.mp hmet
    exact .inl ⟨l, _, d.rest, .again hcur hnext, rfl⟩
  | none =>
    have hidle : s.Idle d := by
      intro r hcur
      rw [hcur, Option.bind_some, meet, Option.map_eq_none_iff] at hmeet
      exact hmeet
    have hspec := advance_spec s d.rest
    dsimp only
    cases hadvance : s.advance d.rest with
    | none =>
      rw [hadvance] at hspec
      exact .inr ⟨hidle, hspec, rfl⟩
    | some found =>
      rw [hadvance] at hspec
      obtain ⟨l, r, rest⟩ := found
      obtain ⟨skipped, key, points, set, i, rfl, hrest, hskipped, hget, hnext⟩ := hspec
      exact .inl ⟨l, _, rest, .on hidle hrest hskipped hget hnext, rfl⟩

end

/-! ## Steps -/

/-- An entry that changes nothing. -/
def Quiet : Entry T V → Prop
  | .scheduled => True
  | .batch _ => True
  | _ => False

/-- A step that no listener could tell. -/
structure Idles (s s' : LiveBuffer T V) : Prop where
  series : s'.series = s.series
  listeners : s'.listeners = s.listeners
  sets : s'.sets = s.sets
  subscriptions : s'.subscriptions = s.subscriptions
  delivery : s'.delivery = s.delivery
  pushes : s'.pushes = s.pushes
  log : s'.log = s.log ∨ ∃ e, Quiet e ∧ s'.log = s.log ++ [e]

/-- What a buffer may do in one step. -/
inductive Step (s : LiveBuffer T V) : LiveBuffer T V → Prop
  /-- A flush is scheduled, or the handler of `setLatestHandler` is set. -/
  | minds {s' : LiveBuffer T V} (h : Idles s s') (hlatest : s'.latest = s.latest)
      (hbatch : ∀ b, s'.log ≠ s.log ++ [.batch b]) : Step s s'
  | records (series : SeriesId) (value : V) (t : T) : Step s (s.record series value t)
  | joins {s' : LiveBuffer T V} {series : SeriesId} {l set : Nat} (h : Joins s s' series l set) :
      Step s s'
  | leaves {s' : LiveBuffer T V} {sub : Subscription} (hsub : sub ∈ s.subscriptions)
      (h : Leaves s s' sub) : Step s s'
  | clears : Step s s.clear
  | takes (hdelivery : s.delivery = none) : Step s (s.take.handLatest s.latest)
  | tells {d : Delivery T V} {l : Nat} {r : Round T V} {rest : Pile T V}
      (hdelivery : s.delivery = some d) (hturn : Turn s d l r rest) : Step s (s.tell l r rest)
  | finishes {d : Delivery T V} (hdelivery : s.delivery = some d) (hidle : s.Idle d)
      (hunheard : ∀ x ∈ d.rest, s.Unheard x.1) : Step s s.finish

theorem schedule_step (s : LiveBuffer T V) : Step s s.schedule := by
  unfold schedule
  split
  · exact .minds ⟨rfl, rfl, rfl, rfl, rfl, rfl, .inl rfl⟩ rfl (by simp)
  · exact .minds ⟨rfl, rfl, rfl, rfl, rfl, rfl, .inr ⟨.scheduled, trivial, rfl⟩⟩ rfl (by simp)

omit [LinearOrder T] in
theorem handLatest_idles (s : LiveBuffer T V)
    (latest : JsMap DeviceId (JsMap String (LatestReading T V))) :
    Idles s (s.handLatest latest) := by
  unfold handLatest
  split
  · exact ⟨rfl, rfl, rfl, rfl, rfl, rfl, .inr ⟨.batch _, trivial, rfl⟩⟩
  · exact ⟨rfl, rfl, rfl, rfl, rfl, rfl, .inl rfl⟩

omit [LinearOrder T] in
theorem Idles.leavesSets {s s' : LiveBuffer T V} (h : Idles s s') : LeavesSets s s' where
  listeners := h.listeners
  sets := h.sets
  subscriptions := h.subscriptions
  log := by
    rcases h.log with hlog | ⟨e, he, hlog⟩
    · exact ⟨[], by simp, by rw [hlog, List.append_nil]⟩
    · refine ⟨[e], ?_, hlog⟩
      intro e' he'
      rw [List.mem_singleton] at he'
      subst he'
      cases e' <;> trivial

/-- The log only grows. -/
theorem Step.log {s s' : LiveBuffer T V} (h : Step s s') : ∃ more, s'.log = s.log ++ more := by
  cases h with
  | minds h => exact h.leavesSets.log.imp fun _ h => h.2
  | records => exact ⟨_, rfl⟩
  | joins h => exact ⟨_, h.log⟩
  | leaves _ h => exact ⟨_, h.log⟩
  | clears => exact ⟨_, rfl⟩
  | takes =>
    obtain ⟨more, -, hmore⟩ := (handLatest_idles s.take s.latest).leavesSets.log
    exact ⟨.flushed :: more, by rw [hmore]; simp [take]⟩
  | tells => exact ⟨_, rfl⟩
  | finishes => exact ⟨_, rfl⟩

theorem Registered.step {s s' : LiveBuffer T V} (hreg : s.Registered) (h : Step s s')
    (honce : Once s'.log) : s'.Registered := by
  have hnoted {s' : LiveBuffer T V} (e : Entry T V) (he : e.Apart) (hl : s'.listeners = s.listeners)
      (hs : s'.sets = s.sets) (hsub : s'.subscriptions = s.subscriptions)
      (hlog : s'.log = s.log ++ [e]) : s'.Registered := by
    refine hreg.leavesSets ⟨hl, hs, hsub, [e], ?_, hlog⟩
    intro e' he'
    rw [List.mem_singleton] at he'
    exact he' ▸ he
  cases h with
  | minds h => exact hreg.leavesSets h.leavesSets
  | records series value t =>
    exact hnoted (.pushed series ⟨s.pushes, t, value⟩) trivial rfl rfl rfl rfl
  | joins h => exact hreg.joined h
  | leaves hsub h =>
    rw [h.log] at honce
    exact hreg.left h hsub honce.fresh
  | clears => exact hnoted .cleared trivial rfl rfl rfl rfl
  | takes =>
    have htaken : s.take.Registered := hnoted .flushed trivial rfl rfl rfl rfl
    exact htaken.leavesSets (handLatest_idles s.take s.latest).leavesSets
  | tells hdelivery hturn => exact hnoted (.delivered _ _ _) trivial rfl rfl rfl rfl
  | finishes => exact hnoted .ended trivial rfl rfl rfl rfl

omit [LinearOrder T] in
theorem findSet_log (key : String) (s : LiveBuffer T V) : (s.findSet key).2.log = s.log := by
  unfold findSet
  cases s.listeners.get key <;> rfl

theorem react_log (s : LiveBuffer T V) (e : Event T V) :
    ∃ more, (s.react e).log = s.log ++ more := by
  cases e with
  | push series value t =>
    obtain ⟨more, hmore⟩ := (schedule_step (s.record series value t)).log
    refine ⟨.pushed series ⟨s.pushes, t, value⟩ :: more, hmore.trans ?_⟩
    simp [record]
  | subscribe listener series =>
    refine ⟨[.subscribed listener series], ?_⟩
    simp [react, subscribeSeries, changeSet, findSet_log]
  | unsubscribe n =>
    unfold react
    dsimp only
    split
    · exact ⟨[], by rw [List.append_nil]⟩
    · rename_i sub _
      refine ⟨[.unsubscribed sub.listener sub.series], ?_⟩
      unfold unsubscribe
      dsimp only
      split <;> rfl
  | clear => exact ⟨_, rfl⟩
  | setLatestHandler present => exact ⟨[], by rw [List.append_nil]; rfl⟩
  | flush =>
    unfold react
    dsimp only
    split
    · exact ⟨[], by rw [List.append_nil]⟩
    · rename_i hnone
      exact (Step.takes (by simpa using hnone)).log
  | next =>
    unfold react
    dsimp only
    split
    · exact ⟨[], by rw [List.append_nil]⟩
    · rename_i d _
      rcases next_cases s d with ⟨l, r, rest, -, hnext⟩ | ⟨-, -, hnext⟩
      · exact ⟨_, by rw [hnext]; rfl⟩
      · exact ⟨_, by rw [hnext]; rfl⟩

/-- An event is no step, or one, or two. -/
theorem react_steps {s : LiveBuffer T V} (hreg : s.Registered) (e : Event T V) :
    Relation.ReflTransGen Step s (s.react e) := by
  cases e with
  | push series value t =>
    exact .tail (.single (.records series value t)) (schedule_step _)
  | subscribe listener series =>
    obtain ⟨set, h⟩ := hreg.joins series listener
    exact .single (.joins h)
  | unsubscribe n =>
    unfold react
    dsimp only
    split
    · exact .refl
    · rename_i sub hsub
      have hmem := List.mem_of_getElem? hsub
      exact .single (.leaves hmem (hreg.leaves hmem))
  | clear => exact .single .clears
  | setLatestHandler present =>
    exact .single (.minds ⟨rfl, rfl, rfl, rfl, rfl, rfl, .inl rfl⟩ rfl (by simp [react]))
  | flush =>
    unfold react
    dsimp only
    split
    · exact .refl
    · rename_i hnone
      exact .single (.takes (by simpa using hnone))
  | next =>
    unfold react
    dsimp only
    split
    · exact .refl
    · rename_i d hdelivery
      rcases next_cases s d with ⟨l, r, rest, hturn, hnext⟩ | ⟨hidle, hunheard, hnext⟩
      · exact hnext ▸ .single (.tells hdelivery hturn)
      · exact hnext ▸ .single (.finishes hdelivery hidle hunheard)

/-- **The run rule.** What every step keeps holds after every run in which nobody unsubscribes
twice. -/
theorem after_invariant {I : LiveBuffer T V → Prop} (h0 : I {})
    (hstep : ∀ {s s'}, s.Registered → I s → Step s s' → Once s'.log → I s')
    {events : List (Event T V)} (honce : Once (after events).log) :
    (after events).Registered ∧ I (after events) := by
  have hsteps : ∀ {s s' : LiveBuffer T V}, s.Registered ∧ I s → Relation.ReflTransGen Step s s' →
      Once s'.log → s'.Registered ∧ I s' := by
    intro s s' hs hpath
    induction hpath with
    | refl => exact fun _ => hs
    | tail _ hlast ih =>
      intro honce
      obtain ⟨more, hlog⟩ := hlast.log
      obtain ⟨hreg, hI⟩ := ih (Once.of_append (hlog ▸ honce))
      exact ⟨hreg.step hlast honce, hstep hreg hI hlast honce⟩
  induction events using List.reverseRecOn with
  | nil => exact ⟨registered_empty, h0⟩
  | append_singleton events e ih =>
    have hafter : after (events ++ [e]) = (after events).react e := by simp [after]
    rw [hafter] at honce ⊢
    obtain ⟨more, hlog⟩ := react_log (after events) e
    have hbefore := ih (Once.of_append (hlog ▸ honce))
    exact hsteps hbefore (react_steps hbefore.1 e) honce

/-- The log of a run is where that of a longer one begins. -/
theorem after_log (start rest : List (Event T V)) :
    ∃ more, (after (start ++ rest)).log = (after start).log ++ more := by
  induction rest using List.reverseRecOn with
  | nil => exact ⟨[], by simp⟩
  | append_singleton rest e ih =>
    obtain ⟨more, hmore⟩ := ih
    obtain ⟨last, hlast⟩ := react_log (after (start ++ rest)) e
    refine ⟨more ++ last, ?_⟩
    rw [← List.append_assoc, after, List.foldl_append, List.foldl_cons, List.foldl_nil,
      ← List.append_assoc, ← hmore]
    exact hlast

end LiveBuffer

/-! ## The order of points -/

section

variable {T V : Type*}

def ids (points : List (LivePoint T V)) : List Nat := points.map LivePoint.id

/-- Points of the series of a key, as they were pushed. -/
structure Traced (log : List (Entry T V)) (key : String) (points : List (LivePoint T V)) : Prop where
  sorted : (ids points).Pairwise (· < ·)
  pushed : ∀ p ∈ points, ∃ series, seriesKey series = key ∧ .pushed series p ∈ log

theorem Traced.append {log : List (Entry T V)} {key : String} {points : List (LivePoint T V)}
    (h : Traced log key points) (more : List (Entry T V)) : Traced (log ++ more) key points where
  sorted := h.sorted
  pushed p hp := (h.pushed p hp).imp fun _ h => ⟨h.1, List.mem_append_left _ h.2⟩

/-- A point that some listener has been told. -/
def Told (log : List (Entry T V)) (n : Nat) : Prop :=
  ∃ l key points, .delivered l key points ∈ log ∧ n ∈ ids points

/-- A point that was told in an earlier flush. -/
def Past (log : List (Entry T V)) (n : Nat) : Prop :=
  ∃ before l key points after, log = before ++ .delivered l key points :: after ∧
    .flushed ∈ after ∧ n ∈ ids points

theorem told_snoc {log : List (Entry T V)} {e : Entry T V} {n : Nat} (h : Told (log ++ [e]) n) :
    Told log n ∨ ∃ l key points, e = .delivered l key points ∧ n ∈ ids points := by
  obtain ⟨l, key, points, hmem, hn⟩ := h
  rcases List.mem_append.mp hmem with hmem | hmem
  · exact .inl ⟨l, key, points, hmem, hn⟩
  · rw [List.mem_singleton] at hmem
    exact .inr ⟨l, key, points, hmem.symm, hn⟩

theorem past_snoc {log : List (Entry T V)} {e : Entry T V} {n : Nat} (h : Past (log ++ [e]) n) :
    Past log n ∨ e = .flushed ∧ Told log n := by
  obtain ⟨before, l, key, points, after, heq, hflushed, hn⟩ := h
  obtain ⟨rfl, -, -⟩ | ⟨after', rfl, rfl⟩ := Lib.cut_snoc heq
  · simp at hflushed
  · rcases List.mem_append.mp hflushed with hmem | hmem
    · exact .inl ⟨before, l, key, points, after', rfl, hmem, hn⟩
    · rw [List.mem_singleton] at hmem
      exact .inr ⟨hmem.symm, l, key, points, by simp, hn⟩

/-- What is told to whom. -/
def InOrder (before : List (Entry T V)) : Entry T V → Prop
  | .delivered l key points =>
      Traced before key points ∧
        (∀ series, seriesKey series = key → subscribed l series before = true) ∧
        ∀ m, Past before m → ∀ n ∈ ids points, m < n
  | _ => True

end

namespace LiveBuffer

variable {T V : Type*} [LinearOrder T]

section

omit [LinearOrder T]

/-- The points a flush has still to tell, those of the round with them. -/
def piles (d : Delivery T V) : Pile T V :=
  (d.current.map fun r => (r.key, r.points)).toList ++ d.rest

theorem Turn.sublist {s : LiveBuffer T V} {d : Delivery T V} {l : Nat} {r : Round T V}
    {rest : Pile T V} (h : Turn s d l r rest) : ((r.key, r.points) :: rest).Sublist (piles d) := by
  cases h with
  | again hcur => rw [piles, hcur]; exact List.Sublist.refl _
  | on hidle hrest =>
    rw [piles, hrest]
    exact (List.sublist_append_right _ _).trans (List.sublist_append_right _ _)

/-- The listener whose turn it is has subscribed. -/
theorem Turn.at {s : LiveBuffer T V} {d : Delivery T V} {l : Nat} {r : Round T V} {rest : Pile T V}
    (h : Turn s d l r rest) : ∃ k, r.index = k + 1 ∧ (s.setAt r.set).At k l := by
  cases h with
  | again _ hnext =>
    obtain ⟨k, hi, -, hat, -⟩ := JsSet.at_of_next hnext
    exact ⟨k, hi, hat⟩
  | on _ _ _ _ hnext =>
    obtain ⟨k, hi, -, hat, -⟩ := JsSet.at_of_next hnext
    exact ⟨k, hi, hat⟩

end

/-- The flush goes through sets of the series it tells. -/
def Labelled (s : LiveBuffer T V) : Prop :=
  ∀ d r, s.delivery = some d → d.current = some r → s.label r.set = some r.key

variable {s : LiveBuffer T V}

omit [LinearOrder T] in
theorem Turn.label {d : Delivery T V} {l : Nat} {r : Round T V} {rest : Pile T V}
    (h : Turn s d l r rest) (hreg : s.Registered) (hlabel : s.Labelled)
    (hdelivery : s.delivery = some d) : s.label r.set = some r.key := by
  cases h with
  | @again r i hcur => exact hlabel d r hdelivery hcur
  | on _ _ _ hget => exact hreg.label_of_get hget

variable {s s' : LiveBuffer T V}

theorem Labelled.step (h : s.Labelled) (hreg : s.Registered) (hstep : Step s s') : s'.Labelled := by
  have hkept {s' : LiveBuffer T V} (hd : s'.delivery = s.delivery)
      (hl : ∀ set key, s.label set = some key → s'.label set = some key) : s'.Labelled :=
    fun d r hdelivery hcur => hl _ _ (h d r (hd ▸ hdelivery) hcur)
  cases hstep with
  | minds hidles =>
    exact hkept hidles.delivery fun set key hl => (hidles.leavesSets.label set).trans hl
  | records => exact hkept rfl fun _ _ hl => hl
  | joins hjoins => exact hkept hjoins.delivery fun _ _ hl => hjoins.label_mono hreg hl
  | leaves _ hleaves => exact hkept hleaves.delivery fun set _ hl => (hleaves.label set).trans hl
  | clears => exact hkept rfl fun _ _ hl => hl
  | takes =>
    intro d r hdelivery hcur
    rw [(handLatest_idles s.take s.latest).delivery] at hdelivery
    obtain rfl := Option.some.inj hdelivery
    cases hcur
  | tells hdelivery hturn =>
    intro d r hd hcur
    obtain rfl := Option.some.inj hd
    obtain rfl := Option.some.inj hcur
    exact hturn.label hreg h hdelivery
  | finishes =>
    intro d r hd
    cases hd

/-- Points come in the order they were pushed in. -/
structure Ordered (s : LiveBuffer T V) : Prop where
  labelled : s.Labelled
  pending : ∀ x ∈ s.series.items, Traced s.log x.1 x.2 ∧ ∀ n ∈ ids x.2, n < s.pushes
  queued : ∀ d, s.delivery = some d → ∀ x ∈ piles d, Traced s.log x.1 x.2 ∧
    ∀ n ∈ ids x.2, n < s.pushes ∧ (∀ y ∈ s.series.items, ∀ m ∈ ids y.2, n < m) ∧
      ∀ m, Past s.log m → m < n
  told : ∀ n, Told s.log n → n < s.pushes ∧ ∀ y ∈ s.series.items, ∀ m ∈ ids y.2, n < m
  inOrder : Every InOrder s.log

omit [LinearOrder T] in
theorem ordered_empty : ({} : LiveBuffer T V).Ordered where
  labelled := fun d r h => by cases h
  pending := fun x hx => by cases hx
  queued := fun d h => by cases h
  told := fun n h => by
    obtain ⟨l, key, points, hmem, -⟩ := h
    cases hmem
  inOrder := every_nil

/-- An entry that tells nobody anything. -/
def Untelling : Entry T V → Prop
  | .delivered .. => False
  | .flushed => False
  | _ => True

omit [LinearOrder T] in
/-- Nothing is pushed, and no flush begins or goes on. -/
theorem Ordered.grow (h : s.Ordered) (hlabelled : s'.Labelled) (hpushes : s'.pushes = s.pushes)
    (hseries : ∀ x ∈ s'.series.items, x ∈ s.series.items)
    (hdelivery : s'.delivery = s.delivery ∨ s'.delivery = none) (e : Entry T V) (he : Untelling e)
    (hlog : s'.log = s.log ++ [e]) : s'.Ordered := by
  have htold {n : Nat} (ht : Told s'.log n) : Told s.log n := by
    rw [hlog] at ht
    rcases told_snoc ht with ht | ⟨l, key, points, rfl, -⟩
    · exact ht
    · exact he.elim
  have hpast {n : Nat} (ht : Past s'.log n) : Past s.log n := by
    rw [hlog] at ht
    rcases past_snoc ht with ht | ⟨rfl, -⟩
    · exact ht
    · exact he.elim
  constructor
  · exact hlabelled
  · intro x hx
    rw [hlog, hpushes]
    exact (h.pending x (hseries x hx)).imp_left fun ht => ht.append [e]
  · intro d hd x hx
    rcases hdelivery with hsame | hnone
    · rw [hsame] at hd
      obtain ⟨htraced, hids⟩ := h.queued d hd x hx
      refine ⟨hlog ▸ htraced.append [e], ?_⟩
      intro n hn
      obtain ⟨hlt, hpending, hold⟩ := hids n hn
      exact ⟨hpushes ▸ hlt, fun y hy => hpending y (hseries y hy), fun m hm => hold m (hpast hm)⟩
    · rw [hnone] at hd
      cases hd
  · intro n hn
    obtain ⟨hlt, hpending⟩ := h.told n (htold hn)
    exact ⟨hpushes ▸ hlt, fun y hy => hpending y (hseries y hy)⟩
  · rw [hlog]
    apply h.inOrder.snoc
    cases e with
    | delivered => exact he.elim
    | _ => trivial

/-- What `record` adds has the greatest number. -/
theorem mem_record {series : SeriesId} {value : V} {t : T} {x : String × List (LivePoint T V)}
    (hx : x ∈ (s.record series value t).series.items) :
    x ∈ s.series.items ∨ x.1 = seriesKey series ∧
      ∃ old, (old = [] ∨ (x.1, old) ∈ s.series.items) ∧ x.2 = old ++ [⟨s.pushes, t, value⟩] := by
  unfold record at hx
  simp only [note_series] at hx
  split at hx
  · obtain ⟨key, points⟩ := x
    rw [JsMap.mem_set] at hx
    split at hx
    · rename_i hkey
      refine .inr ⟨hkey, (s.series.get (seriesKey series)).getD [], ?_, hx⟩
      cases hget : s.series.get (seriesKey series) with
      | none => exact .inl rfl
      | some old => exact .inr (hkey ▸ JsMap.mem_of_get hget)
    · exact .inl hx
  · exact .inl hx

theorem Ordered.record (h : s.Ordered) (hlabelled : s.Labelled) (series : SeriesId) (value : V)
    (t : T) : (s.record series value t).Ordered := by
  have hlog : (s.record series value t).log =
      s.log ++ [.pushed series ⟨s.pushes, t, value⟩] := rfl
  have htold {n : Nat} (ht : Told (s.record series value t).log n) : Told s.log n := by
    rw [hlog] at ht
    rcases told_snoc ht with ht | ⟨l, key, points, heq, -⟩
    · exact ht
    · cases heq
  have hpast {n : Nat} (ht : Past (s.record series value t).log n) : Past s.log n := by
    rw [hlog] at ht
    rcases past_snoc ht with ht | ⟨heq, -⟩
    · exact ht
    · cases heq
  have hpushes : (s.record series value t).pushes = s.pushes + 1 := rfl
  -- A number that comes before all pending ones comes before the new one too.
  have hbefore {n : Nat} (hn : n < s.pushes)
      (hpending : ∀ y ∈ s.series.items, ∀ m ∈ ids y.2, n < m) :
      ∀ y ∈ (s.record series value t).series.items, ∀ m ∈ ids y.2, n < m := by
    intro y hy m hm
    rcases mem_record hy with hy | ⟨-, old, hold, hpoints⟩
    · exact hpending y hy m hm
    · rw [hpoints, ids, List.map_append, List.mem_append] at hm
      rcases hm with hm | hm
      · rcases hold with rfl | hold
        · cases hm
        · exact hpending _ hold m hm
      · rw [List.map_singleton, List.mem_singleton] at hm
        exact hm ▸ hn
  constructor
  · exact fun d r hd hcur => hlabelled d r hd hcur
  · intro x hx
    rw [hlog, hpushes]
    rcases mem_record hx with hx | ⟨hkey, old, hold, hpoints⟩
    · obtain ⟨htraced, hids⟩ := h.pending x hx
      exact ⟨htraced.append _, fun n hn => Nat.lt_succ_of_lt (hids n hn)⟩
    · have hold' : Traced s.log x.1 old ∧ ∀ n ∈ ids old, n < s.pushes := by
        rcases hold with rfl | hold
        · exact ⟨⟨List.Pairwise.nil, by simp⟩, by simp [ids]⟩
        · exact h.pending _ hold
      obtain ⟨htraced, hids⟩ := hold'
      rw [hpoints]
      refine ⟨⟨?_, ?_⟩, ?_⟩
      · rw [ids, List.map_append, List.map_singleton, List.pairwise_append]
        refine ⟨htraced.sorted, List.pairwise_singleton _ _, ?_⟩
        intro n hn m hm
        rw [List.mem_singleton] at hm
        exact hm ▸ hids n hn
      · intro p hp
        rcases List.mem_append.mp hp with hp | hp
        · exact (htraced.append _).pushed p hp
        · rw [List.mem_singleton] at hp
          exact ⟨series, hkey.symm, by simp [hp]⟩
      · intro n hn
        rw [ids, List.map_append, List.mem_append] at hn
        rcases hn with hn | hn
        · exact Nat.lt_succ_of_lt (hids n hn)
        · rw [List.map_singleton, List.mem_singleton] at hn
          exact hn ▸ Nat.lt_succ_self _
  · intro d hd x hx
    obtain ⟨htraced, hids⟩ := h.queued d hd x hx
    refine ⟨htraced.append _, ?_⟩
    intro n hn
    obtain ⟨hlt, hpending, hold⟩ := hids n hn
    exact ⟨Nat.lt_succ_of_lt hlt, hbefore hlt hpending, fun m hm => hold m (hpast hm)⟩
  · intro n hn
    obtain ⟨hlt, hpending⟩ := h.told n (htold hn)
    exact ⟨Nat.lt_succ_of_lt hlt, hbefore hlt hpending⟩
  · exact h.inOrder.snoc trivial

omit [LinearOrder T] in
theorem Ordered.take (h : s.Ordered) : s.take.Ordered := by
  constructor
  · intro d r hd hcur
    obtain rfl := Option.some.inj hd
    cases hcur
  · intro x hx
    cases hx
  · intro d hd x hx
    obtain rfl := Option.some.inj hd
    obtain ⟨htraced, hids⟩ := h.pending x hx
    refine ⟨htraced.append [.flushed], ?_⟩
    intro n hn
    refine ⟨hids n hn, (fun y hy => nomatch hy), ?_⟩
    intro m hm
    have hold : Past s.log m ∨ Told s.log m := (past_snoc hm).imp_right And.right
    rcases hold with hm | hm
    · obtain ⟨before, l, key, points, after, hlog, -, hm⟩ := hm
      exact (h.told m ⟨l, key, points, by simp [hlog], hm⟩).2 x hx n hn
    · exact (h.told m hm).2 x hx n hn
  · intro n hn
    rcases told_snoc hn with hn | ⟨l, key, points, heq, -⟩
    · exact ⟨(h.told n hn).1, fun y hy => by cases hy⟩
    · cases heq
  · exact h.inOrder.snoc trivial

theorem Ordered.tell {s : LiveBuffer T V} (h : s.Ordered) (hreg : s.Registered) {d : Delivery T V}
    {l : Nat} {r : Round T V} {rest : Pile T V} (hdelivery : s.delivery = some d)
    (hturn : Turn s d l r rest) : (s.tell l r rest).Ordered := by
  have hlog : (s.tell l r rest).log = s.log ++ [.delivered l r.key r.points] := rfl
  have hmem : (r.key, r.points) ∈ piles d := hturn.sublist.subset List.mem_cons_self
  have hpast {n : Nat} (ht : Past (s.tell l r rest).log n) : Past s.log n := by
    rw [hlog] at ht
    rcases past_snoc ht with ht | ⟨heq, -⟩
    · exact ht
    · cases heq
  constructor
  · exact h.labelled.step hreg (.tells hdelivery hturn)
  · intro x hx
    exact (h.pending x hx).imp_left fun ht => ht.append _
  · intro d' hd x hx
    obtain rfl := Option.some.inj hd
    obtain ⟨htraced, hids⟩ := h.queued d hdelivery x (hturn.sublist.subset hx)
    refine ⟨htraced.append _, ?_⟩
    intro n hn
    obtain ⟨hlt, hpending, hold⟩ := hids n hn
    exact ⟨hlt, hpending, fun m hm => hold m (hpast hm)⟩
  · intro n hn
    rcases told_snoc hn with hn | ⟨l', key, points, heq, hn⟩
    · exact h.told n hn
    · obtain ⟨rfl, rfl, rfl⟩ := Entry.delivered.inj heq
      obtain ⟨hlt, hpending, -⟩ := (h.queued d hdelivery _ hmem).2 n hn
      exact ⟨hlt, hpending⟩
  · apply h.inOrder.snoc
    obtain ⟨htraced, hids⟩ := h.queued d hdelivery _ hmem
    refine ⟨htraced, ?_, fun m hm n hn => (hids n hn).2.2 m hm⟩
    intro series hseries
    obtain ⟨k, -, hat⟩ := hturn.at
    have hlabel := hturn.label hreg h.labelled hdelivery
    exact (hreg.subscribed_iff l series).mpr ⟨r.set, k, by rw [hlabel, hseries], hat⟩

omit [LinearOrder T] in
theorem Ordered.idles (h : s.Ordered) (hidles : Idles s s') :
    s'.Ordered := by
  have hlabelled : s'.Labelled := by
    intro d r hd hcur
    rw [hidles.leavesSets.label]
    exact h.labelled d r (hidles.delivery ▸ hd) hcur
  rcases hidles.log with hlog | ⟨e, he, hlog⟩
  · constructor
    · exact hlabelled
    · rw [hidles.series, hidles.pushes, hlog]
      exact h.pending
    · rw [hidles.series, hidles.pushes, hlog, hidles.delivery]
      exact h.queued
    · rw [hidles.series, hidles.pushes, hlog]
      exact h.told
    · exact hlog ▸ h.inOrder
  · refine h.grow hlabelled hidles.pushes (fun x hx => hidles.series ▸ hx) (.inl hidles.delivery) e
      ?_ hlog
    cases e <;> trivial

omit [LinearOrder T] in
/-- Unsubscribing drops points at most. -/
theorem Leaves.mem_of_mem {sub : Subscription} (h : Leaves s s' sub)
    {x : String × List (LivePoint T V)} (hx : x ∈ s'.series.items) : x ∈ s.series.items := by
  rcases h.kept_or_dropped with ⟨-, hs⟩ | ⟨-, hs, -⟩
  · exact hs ▸ hx
  · rw [hs] at hx
    exact List.mem_of_mem_filter hx

theorem Ordered.step (hreg : s.Registered) (h : s.Ordered) (hstep : Step s s') : s'.Ordered := by
  have hlabelled := h.labelled.step hreg hstep
  cases hstep with
  | minds hidles => exact h.idles hidles
  | records series value t => exact h.record h.labelled series value t
  | joins hjoins =>
    exact h.grow hlabelled hjoins.pushes (fun x hx => hjoins.series ▸ hx) (.inl hjoins.delivery)
      (.subscribed _ _) trivial hjoins.log
  | leaves _ hleaves =>
    exact h.grow hlabelled hleaves.pushes (fun x hx => hleaves.mem_of_mem hx)
      (.inl hleaves.delivery) (.unsubscribed _ _) trivial hleaves.log
  | clears =>
    exact h.grow hlabelled rfl (fun x hx => nomatch hx) (.inl rfl) .cleared trivial rfl
  | takes => exact h.take.idles (handLatest_idles s.take s.latest)
  | tells hdelivery hturn => exact h.tell hreg hdelivery hturn
  | finishes => exact h.grow hlabelled rfl (fun x hx => hx) (.inr rfl) .ended trivial rfl

theorem after_ordered {events : List (Event T V)} (honce : Once (after events).log) :
    (after events).Ordered :=
  (after_invariant ordered_empty (fun hreg h hstep _ => h.step hreg hstep) honce).2

end LiveBuffer

end IotSaas.Charts
