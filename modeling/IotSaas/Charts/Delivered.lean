import IotSaas.Charts.Watch

/-!
# `Charts/Delivered.lean` — every point reaches every chart that waits for it, once

The end of the proof: a log of `LiveBuffer` is read. A point that was pushed while a listener was
subscribed, and was waiting for it until a flush, is told to it in that flush and at no other time
(`told_once`); nothing is told to a listener of another series, nothing out of the order of the
pushes, and the batch for the caches has the newest reading of every series
(`live_points_delivered`).

A flush goes through the live sets of listeners, and its callbacks may change them. So to be
subscribed when the flush begins is not enough: a listener that an earlier callback unsubscribes is
not told any more, and one that leaves after it was told and comes back is at the end of the set
again and is told twice (`callbacks_interfere`). `Stays` rules these two out and nothing else;
listeners may come, others may go, and points may be pushed or cleared while the flush goes on.
-/

set_option autoImplicit false

namespace IotSaas.Charts

open Lib

section

variable {T V : Type*}

/-- An entry that tells a listener a point. -/
def delivers (listener n : Nat) : Entry T V → Bool
  | .delivered l _ points => l = listener ∧ n ∈ ids points
  | _ => false

/-- How often a point was told, as far as its phase says. -/
def Phase.Counts (times : Nat) : Phase → Prop
  | .absent | .waiting | .due => times = 0
  | .got | .left | .settled => times = 1
  | .excused | .lost | .twice => True

section

variable {phase : Phase} {times : Nat}

theorem Phase.Counts.pushed (h : phase.Counts times) (there : Bool) :
    (phase.pushed there).Counts times := by
  cases phase with
  | absent =>
    cases there with
    | false => trivial
    | true => exact h
  | _ => exact h

theorem Phase.Counts.dropped (h : phase.Counts times) : phase.dropped.Counts times := by
  cases phase with
  | waiting | due => trivial
  | _ => exact h

theorem Phase.Counts.ended (h : phase.Counts times) : phase.ended.Counts times := by
  cases phase with
  | due => trivial
  | _ => exact h

theorem Phase.Counts.told {listener n l : Nat} {points : List (LivePoint T V)}
    (h : phase.Counts times) : (phase.told listener n l points).Counts
      (times + if l = listener ∧ n ∈ ids points then 1 else 0) := by
  unfold Phase.told
  split
  · cases phase with
    | due => exact congrArg (· + 1) h
    | _ => trivial
  · exact h

end

theorem counts_watched (listener : Nat) (series : SeriesId) (n : Nat) (log : List (Entry T V)) :
    (watched listener series n log).phase.Counts (log.countP (delivers listener n)) := by
  induction log using List.reverseRecOn with
  | nil => rfl
  | append_singleton log e ih =>
    rw [watched_snoc, List.countP_append]
    generalize watched listener series n log = w at ih ⊢
    cases e with
    | pushed s p =>
      simp only [Entry.watch]
      split
      · exact ih.pushed _
      · exact ih
    | subscribed l s =>
      simp only [Entry.watch]
      split
      · split
        · trivial
        · exact ih
      · exact ih
    | unsubscribed l s =>
      simp only [Entry.watch]
      split
      · exact ih.dropped
      · exact ih
    | delivered l key points =>
      have hone : [(.delivered l key points : Entry T V)].countP (delivers listener n) =
          if l = listener ∧ n ∈ ids points then 1 else 0 := by
        simp [List.countP_singleton, delivers]
      rw [hone]
      exact ih.told
    | cleared =>
      simp only [Entry.watch]
      split
      · trivial
      · exact ih
    | flushed =>
      simp only [Entry.watch]
      split
      · rename_i hwaiting
        rw [hwaiting] at ih
        exact ih
      · exact ih
    | ended => exact ih.ended
    | scheduled | batch => exact ih

/-- A phase that a run never shows. -/
def Phase.Bad (phase : Phase) : Prop := phase = .lost ∨ phase = .twice

variable {listener : Nat} {series : SeriesId}

/-- What went wrong stays wrong. -/
theorem bad_append {n : Nat} {log : List (Entry T V)}
    (h : (watched listener series n log).phase.Bad) (more : List (Entry T V)) :
    (watched listener series n (log ++ more)).phase.Bad := by
  induction more using List.reverseRecOn with
  | nil => rwa [List.append_nil]
  | append_singleton more e ih =>
    rw [← List.append_assoc, watched_snoc]
    generalize watched listener series n (log ++ more) = w at ih ⊢
    obtain ⟨sub, phase⟩ := w
    cases e with
    | pushed s p =>
      simp only [Entry.watch]
      split
      · rcases ih with rfl | rfl <;> simp [Phase.pushed, Phase.Bad]
      · exact ih
    | subscribed l s =>
      simp only [Entry.watch]
      split
      · rcases ih with rfl | rfl <;> simp [Phase.Bad]
      · exact ih
    | unsubscribed l s =>
      simp only [Entry.watch]
      split
      · rcases ih with rfl | rfl <;> simp [Phase.dropped, Phase.Bad]
      · exact ih
    | delivered l key points =>
      simp only [Entry.watch, Phase.told]
      split
      · rcases ih with rfl | rfl <;> exact .inr rfl
      · exact ih
    | ended => rcases ih with rfl | rfl <;> simp [Entry.watch, Phase.ended, Phase.Bad]
    | cleared | flushed => rcases ih with rfl | rfl <;> simp [Entry.watch, Phase.Bad]
    | scheduled | batch => exact ih

/-- Nothing happens to a listener that would let it off a point that waits for a flush. -/
def Waits (listener : Nat) (series : SeriesId) : Entry T V → Prop
  | .unsubscribed l s => ¬(l = listener ∧ s = series)
  | .cleared => False
  | .flushed => False
  | _ => True

theorem waiting_append {n : Nat} {log more : List (Entry T V)}
    (h : (watched listener series n log).phase = .waiting)
    (hmore : ∀ e ∈ more, Waits listener series e)
    (hbad : ¬(watched listener series n (log ++ more)).phase.Bad) :
    (watched listener series n (log ++ more)).phase = .waiting := by
  induction more using List.reverseRecOn with
  | nil => rwa [List.append_nil]
  | append_singleton more e ih =>
    have hwaits := hmore e (by simp)
    rw [← List.append_assoc] at hbad ⊢
    have hbefore := ih (fun e' he' => hmore e' (List.mem_append_left _ he'))
      fun hb => hbad (bad_append hb [e])
    rw [watched_snoc] at hbad ⊢
    generalize watched listener series n (log ++ more) = w at hbefore hbad ⊢
    obtain ⟨sub, phase⟩ := w
    subst hbefore
    cases e with
    | pushed s p => by_cases hid : p.id = n <;> simp [Entry.watch, hid, Phase.pushed]
    | subscribed l s => by_cases hl : l = listener ∧ s = series <;> simp [Entry.watch, hl]
    | unsubscribed l s => simp only [Entry.watch, if_neg hwaits]
    | delivered l key points =>
      by_cases hl : l = listener ∧ n ∈ ids points
      · exact absurd (by simp [Entry.watch, hl, Phase.told, Phase.Bad]) hbad
      · simp [Entry.watch, hl, Phase.told]
    | cleared => exact hwaits.elim
    | flushed => exact hwaits.elim
    | ended => rfl
    | scheduled => rfl
    | batch => rfl

/-- **The listener stays while the flush goes on**: it does not leave before it is told the point, and
does not come again once it has left. Only the listener's own subscription to the series counts, and
a flush whose callbacks leave the sets alone meets this. -/
def Stays (listener : Nat) (series : SeriesId) (n : Nat) (during : List (Entry T V)) : Prop :=
  ∀ before after, during = before ++ .unsubscribed listener series :: after →
    before.any (delivers listener n) = true ∧ .subscribed listener series ∉ after

theorem Stays.of_append {n : Nat} {during more : List (Entry T V)}
    (h : Stays listener series n (during ++ more)) :
    Stays listener series n during := by
  intro before after heq
  obtain ⟨hany, hnot⟩ := h before (after ++ more) (by rw [heq]; simp)
  exact ⟨hany, fun hmem => hnot (List.mem_append_left _ hmem)⟩

/-- Where the point is while the flush goes on. -/
def Within (listener : Nat) (series : SeriesId) (n : Nat) (during : List (Entry T V)) :
    Phase → Prop
  | .due => during.any (delivers listener n) = false
  | .got => True
  | .left => .unsubscribed listener series ∈ during
  | _ => False

/-- An entry that does not tell the point. -/
theorem Within.snoc {n : Nat} {during : List (Entry T V)} {phase : Phase}
    (h : Within listener series n during phase) {e : Entry T V}
    (he : phase = .due → delivers listener n e = false) :
    Within listener series n (during ++ [e]) phase := by
  cases phase with
  | due =>
    have hnone : during.any (delivers listener n) = false := h
    change (during ++ [e]).any (delivers listener n) = false
    rw [List.any_append, hnone, Bool.false_or, List.any_cons, he rfl]
    rfl
  | got => trivial
  | left => exact List.mem_append_left _ h
  | _ => exact h.elim

theorem due_append {n : Nat} {log during : List (Entry T V)}
    (h : (watched listener series n log).phase = .due) (hended : .ended ∉ during)
    (hstays : Stays listener series n during)
    (hbad : ¬(watched listener series n (log ++ during)).phase.Bad) :
    Within listener series n during (watched listener series n (log ++ during)).phase := by
  induction during using List.reverseRecOn with
  | nil =>
    rw [List.append_nil, h]
    rfl
  | append_singleton during e ih =>
    rw [← List.append_assoc] at hbad ⊢
    have hbefore := ih (fun hmem => hended (List.mem_append_left _ hmem)) hstays.of_append
      fun hb => hbad (bad_append hb [e])
    rw [watched_snoc] at hbad ⊢
    generalize watched listener series n (log ++ during) = w at hbefore hbad ⊢
    obtain ⟨sub, phase⟩ := w
    cases e with
    | pushed s p =>
      simp only [Entry.watch]
      split
      · cases phase with
        | due | got | left => exact hbefore.snoc fun _ => rfl
        | _ => exact hbefore.elim
      · exact hbefore.snoc fun _ => rfl
    | subscribed l s =>
      simp only [Entry.watch]
      split
      · rename_i hl
        split
        · rename_i hleft
          -- It would have come again.
          dsimp only at hleft hbefore
          rw [hleft] at hbefore
          obtain ⟨before, after, heq⟩ := List.append_of_mem hbefore
          obtain ⟨-, hnot⟩ := hstays before (after ++ [.subscribed l s]) (by rw [heq]; simp)
          exact absurd (by simp [hl.1, hl.2]) hnot
        · exact hbefore.snoc fun _ => rfl
      · exact hbefore.snoc fun _ => rfl
    | unsubscribed l s =>
      simp only [Entry.watch]
      split
      · rename_i hl
        cases phase with
        | due =>
          -- It would have left before it was told.
          obtain ⟨hany, -⟩ := hstays during [] (by rw [hl.1, hl.2])
          have hnone : during.any (delivers listener n) = false := hbefore
          rw [hnone] at hany
          cases hany
        | got => exact List.mem_append_right _ (by rw [hl.1, hl.2]; exact List.mem_singleton_self _)
        | left => exact List.mem_append_left _ hbefore
        | _ => exact hbefore.elim
      · exact hbefore.snoc fun _ => rfl
    | delivered l key points =>
      by_cases hl : l = listener ∧ n ∈ ids points
      · simp only [Entry.watch, Phase.told, if_pos hl] at hbad ⊢
        cases phase with
        | due => trivial
        | got | left => exact absurd (.inr rfl) hbad
        | _ => exact hbefore.elim
      · simp only [Entry.watch, Phase.told, if_neg hl]
        exact hbefore.snoc fun _ => by simpa [delivers] using hl
    | ended => exact absurd (by simp) hended
    | cleared | flushed =>
      simp only [Entry.watch]
      split
      · rename_i hwaiting
        dsimp only at hwaiting hbefore
        rw [hwaiting] at hbefore
        exact hbefore.elim
      · exact hbefore.snoc fun _ => rfl
    | scheduled | batch => exact hbefore.snoc fun _ => rfl

/-- What was over stays over. -/
theorem over_append {n : Nat} {log more : List (Entry T V)}
    (h : (watched listener series n log).phase = .settled)
    (hbad : ¬(watched listener series n (log ++ more)).phase.Bad) :
    (watched listener series n (log ++ more)).phase = .settled := by
  induction more using List.reverseRecOn with
  | nil => rwa [List.append_nil]
  | append_singleton more e ih =>
    rw [← List.append_assoc] at hbad ⊢
    have hbefore := ih fun hb => hbad (bad_append hb [e])
    rw [watched_snoc] at hbad ⊢
    generalize watched listener series n (log ++ more) = w at hbefore hbad ⊢
    obtain ⟨sub, phase⟩ := w
    subst hbefore
    cases e with
    | pushed s p => by_cases hid : p.id = n <;> simp [Entry.watch, hid, Phase.pushed]
    | subscribed l s | unsubscribed l s =>
      by_cases hl : l = listener ∧ s = series <;> simp [Entry.watch, hl, Phase.dropped]
    | delivered l key points =>
      by_cases hl : l = listener ∧ n ∈ ids points
      · exact absurd (by simp [Entry.watch, hl, Phase.told, Phase.Bad]) hbad
      · simp [Entry.watch, hl, Phase.told]
    | _ => simp [Entry.watch, Phase.ended]

/-! ## The numbers of points -/

def isPushed : Entry T V → Bool
  | .pushed .. => true
  | _ => false

/-- A point has the number of points that were pushed before it. -/
def Numbered (before : List (Entry T V)) : Entry T V → Prop
  | .pushed _ p => p.id = before.countP isPushed
  | _ => True

end

namespace LiveBuffer

variable {T V : Type*} [LinearOrder T]

structure Counted (s : LiveBuffer T V) : Prop where
  pushes : s.pushes = s.log.countP isPushed
  numbered : Every Numbered s.log

omit [LinearOrder T] in
theorem Counted.grow {s s' : LiveBuffer T V} (h : s.Counted) (e : Entry T V)
    (he : isPushed e = false) (hpushes : s'.pushes = s.pushes) (hlog : s'.log = s.log ++ [e]) :
    s'.Counted where
  pushes := by
    rw [hpushes, h.pushes, hlog, List.countP_append, List.countP_singleton, he]
    rfl
  numbered := by
    rw [hlog]
    apply h.numbered.snoc
    cases e with
    | pushed => cases he
    | _ => trivial

omit [LinearOrder T] in
theorem Counted.idles {s s' : LiveBuffer T V} (h : s.Counted) (hidles : Idles s s') :
    s'.Counted := by
  rcases hidles.log with hlog | ⟨e, he, hlog⟩
  · exact ⟨by rw [hidles.pushes, hlog, h.pushes], hlog ▸ h.numbered⟩
  · refine h.grow e ?_ hidles.pushes hlog
    cases e with
    | pushed => exact he.elim
    | _ => rfl

theorem Counted.step {s s' : LiveBuffer T V} (h : s.Counted) (hstep : Step s s') :
    s'.Counted := by
  cases hstep with
  | minds hidles => exact h.idles hidles
  | records series value t =>
    refine ⟨?_, h.numbered.snoc h.pushes⟩
    have hlog : (s.record series value t).log =
        s.log ++ [.pushed series ⟨s.pushes, t, value⟩] := rfl
    rw [hlog, List.countP_append, ← h.pushes]
    rfl
  | joins hjoins => exact h.grow (.subscribed _ _) rfl hjoins.pushes hjoins.log
  | leaves _ hleaves => exact h.grow (.unsubscribed _ _) rfl hleaves.pushes hleaves.log
  | clears => exact h.grow .cleared rfl rfl rfl
  | takes =>
    have htaken : s.take.Counted := h.grow .flushed rfl rfl rfl
    exact htaken.idles (handLatest_idles s.take s.latest)
  | tells => exact h.grow (.delivered _ _ _) rfl rfl rfl
  | finishes => exact h.grow .ended rfl rfl rfl

/-! ## A flush ends -/

/-- The buffer after some callbacks that do nothing. -/
def calls (k : Nat) (s : LiveBuffer T V) : LiveBuffer T V :=
  (List.replicate k Event.next).foldl react s

theorem calls_succ (k : Nat) (s : LiveBuffer T V) : calls (k + 1) s = calls k (s.react .next) := rfl

/-- How many entries the round has still to come to. -/
def remaining (s : LiveBuffer T V) (d : Delivery T V) : Nat :=
  match d.current with
  | none => 0
  | some r => (s.setAt r.set).entries.length - r.index

/-- A flush ends, if its callbacks add no listeners for ever: here they do nothing. -/
theorem flush_ends {s : LiveBuffer T V} {d : Delivery T V} (hdelivery : s.delivery = some d) :
    ∃ k, (calls k s).delivery = none := by
  -- The series that follow get fewer, or, in the same series, the entries that follow.
  induction hm : d.rest.length using Nat.strong_induction_on generalizing s d with
  | _ m ihm =>
    induction hj : s.remaining d using Nat.strong_induction_on generalizing s d with
    | _ j ihj =>
      have hreact : s.react .next = s.next d := by rw [react, hdelivery]
      rcases next_cases s d with ⟨l, r, rest, hturn, hnext⟩ | ⟨-, -, hnext⟩
      · have hmore : ∃ k, (calls k (s.tell l r rest)).delivery = none := by
          cases hturn with
          | @again r₀ i hcur hmet =>
            have hfewer : (s.setAt r₀.set).entries.length - i < j := by
              obtain ⟨k, rfl, hle, hat, -⟩ := JsSet.at_of_next hmet
              have hlt := (List.getElem?_eq_some_iff.mp hat).1
              rw [remaining, hcur] at hj
              dsimp only at hj
              omega
            exact ihj _ hfewer (s := s.tell l { r₀ with index := i } d.rest)
              (d := ⟨some { r₀ with index := i }, d.rest⟩) rfl hm rfl
          | on _ hrest =>
            apply ihm rest.length ?_ rfl rfl
            rw [← hm, hrest, List.length_append, List.length_cons]
            omega
        obtain ⟨k, hk⟩ := hmore
        exact ⟨k + 1, by rw [calls_succ, hreact, hnext, hk]⟩
      · exact ⟨1, by rw [calls_succ, hreact, hnext]; rfl⟩

/-! ## Every point is told once -/

section

omit [LinearOrder T]

variable {s : LiveBuffer T V} {l : Nat} {series : SeriesId} {p : LivePoint T V}

theorem Follows.not_bad (h : s.Follows) (before after : List (Entry T V))
    (hlog : s.log = before ++ after) (l : Nat) (series : SeriesId) (n : Nat) :
    ¬(watched l series n before).phase.Bad := by
  intro hbad
  have hfits := h.fits l series n
  rcases hlog ▸ bad_append hbad after with hlost | htwice
  · rw [hlost] at hfits
    exact hfits
  · rw [htwice] at hfits
    exact hfits

/-- **A point that waits for a listener is told to it once**, in the flush that comes next. -/
theorem told_once (h : s.Follows) {before between during later : List (Entry T V)}
    (hlog : s.log = before ++ .pushed series p :: between ++ .flushed :: during ++ .ended :: later)
    (hthere : subscribed l series before = true) (hwaits : ∀ e ∈ between, Waits l series e)
    (hended : .ended ∉ during) (hstays : Stays l series p.id during) :
    during.countP (delivers l p.id) = 1 ∧ s.log.countP (delivers l p.id) = 1 := by
  -- The point is new to the log, waits from its push, and is due from the flush on.
  have hnew : (watched l series p.id before).phase = .absent :=
    h.new before (.pushed series p) (between ++ .flushed :: during ++ .ended :: later)
      (by simp [hlog]) l series
  have hpushed : (watched l series p.id (before ++ [.pushed series p])).phase = .waiting := by
    rw [watched_snoc]
    simp [Entry.watch, hnew, watched_subscribed, hthere, Phase.pushed]
  have hwaiting := waiting_append hpushed hwaits
    (h.not_bad _ (.flushed :: during ++ .ended :: later) (by simp [hlog]) l series p.id)
  let start := before ++ [.pushed series p] ++ between ++ [.flushed]
  have hdue : (watched l series p.id start).phase = .due := by
    rw [watched_snoc, Entry.watch, hwaiting]
    rfl
  have hstart : start.countP (delivers l p.id) = 0 := by
    have hcounts := counts_watched l series p.id start
    rw [hdue] at hcounts
    exact hcounts
  -- During the flush it is got or still due; at the end of it nothing may be due.
  have hwithin := due_append hdue hended hstays
    (h.not_bad _ (.ended :: later) (by simp [start, hlog]) l series p.id)
  have hend := h.not_bad (start ++ during ++ [.ended]) later (by simp [start, hlog]) l series p.id
  have hover : (watched l series p.id (start ++ during ++ [.ended])).phase = .settled := by
    rw [watched_snoc] at hend ⊢
    generalize watched l series p.id (start ++ during) = w at hwithin hend ⊢
    obtain ⟨sub, phase⟩ := w
    cases phase with
    | due => exact absurd (.inl rfl) hend
    | got => rfl
    | left => rfl
    | _ => exact hwithin.elim
  let whole : List (Entry T V) := start ++ during ++ [.ended]
  have hwhole : whole.countP (delivers l p.id) = 1 := by
    have hcounts := counts_watched l series p.id whole
    rw [hover] at hcounts
    exact hcounts
  have hall : s.log.countP (delivers l p.id) = 1 := by
    have hlog' : s.log = start ++ during ++ [.ended] ++ later := by simp [start, hlog]
    have hlast := over_append hover (h.not_bad _ [] (by rw [hlog', List.append_nil]) l series p.id)
    have hcounts := counts_watched l series p.id s.log
    rw [hlog', hlast, ← hlog'] at hcounts
    exact hcounts
  refine ⟨?_, hall⟩
  rw [List.countP_append, List.countP_append, hstart] at hwhole
  simpa [delivers] using hwhole

end

end LiveBuffer

open LiveBuffer

/-- **Live points are delivered.** In a run in which no listener unsubscribes from a series twice: a
point is told once to each listener that is subscribed from its push until the next flush has come to
it, in that flush. Points are numbered as they are pushed, each batch of points has them in that
order, and later flushes tell later points; who is told a point is subscribed to its series. The batch
for the caches has of every series the last of the latest readings that were pushed since the flush
or `clear` before, and a flush that finds a handler and any such reading hands one over first of all.
And a flush comes to its end. -/
theorem live_points_delivered {T V : Type*} [LinearOrder T] (events : List (Event T V))
    (honce : Once (after events).log) :
    (∀ before series p between during later l,
      (after events).log =
          before ++ .pushed series p :: between ++ .flushed :: during ++ .ended :: later →
        subscribed l series before = true → (∀ e ∈ between, Waits l series e) →
        .ended ∉ during → Stays l series p.id during →
        during.countP (delivers l p.id) = 1 ∧
          (after events).log.countP (delivers l p.id) = 1) ∧
    (∀ before series p later, (after events).log = before ++ .pushed series p :: later →
      p.id = before.countP isPushed) ∧
    (∀ before l key points later,
      (after events).log = before ++ .delivered l key points :: later →
        (ids points).Pairwise (· < ·) ∧ (∀ m, Past before m → ∀ n ∈ ids points, m < n) ∧
          ∀ p ∈ points, ∃ series, .pushed series p ∈ before ∧
            subscribed l series before = true) ∧
    (∀ before b later, (after events).log = before ++ .batch b :: later →
      ∃ before', before = before' ++ [.flushed] ∧ ∀ series, ∃ reading,
        Newest series.2 (since series before') reading ∧ readingsOf b series = reading.toList) ∧
    (∀ start rest series, events = start ++ .flush :: rest → (after start).delivery = none →
      (after start).onLatest = true → since series (after start).log ≠ [] →
      ∃ b, (after (start ++ [.flush])).log = (after start).log ++ [.flushed, .batch b]) ∧
    ∃ k, (calls k (after events)).delivery = none := by
  have hcounted : (after events).Counted :=
    (after_invariant ⟨rfl, every_nil⟩ (fun _ h hstep _ => h.step hstep) honce).2
  refine ⟨?_, ?_, ?_, ?_, ?_, ?_⟩
  · intro before series p between during later l hlog hthere hwaits hended hstays
    exact told_once (after_follows honce) hlog hthere hwaits hended hstays
  · intro before series p later hlog
    exact hcounted.numbered before (.pushed series p) later hlog
  · intro before l key points later hlog
    obtain ⟨htraced, hthere, hpast⟩ :=
      (after_ordered honce).inOrder before (.delivered l key points) later hlog
    refine ⟨htraced.sorted, hpast, ?_⟩
    intro p hp
    obtain ⟨series, hkey, hpushed⟩ := htraced.pushed p hp
    exact ⟨series, hpushed, hthere series hkey⟩
  · intro before b later hlog
    exact (after_handed honce).handed before (.batch b) later hlog
  · intro start rest series hevents hdelivery hhandler hpushed
    subst hevents
    obtain ⟨more, hmore⟩ := after_log start (.flush :: rest)
    have hstart : Once (after start).log := Once.of_append (hmore ▸ honce)
    refine ⟨batchOf (after start).latest, ?_⟩
    rw [after, List.foldl_append, List.foldl_cons, List.foldl_nil]
    exact (after_handed hstart).hands hdelivery hhandler hpushed
  · cases hdelivery : (after events).delivery with
    | none => exact ⟨0, hdelivery⟩
    | some d => exact flush_ends hdelivery

/-- The pressure of a pump. -/
def pressure : SeriesId := (⟨"pump", by decide⟩, "pressure")

/-- Two charts draw a series, and the first leaves when it has got the points. -/
def twoCharts : List (Event Nat Nat) :=
  [.subscribe 0 pressure, .subscribe 1 pressure, .setLatestHandler true, .push pressure 20 1,
    .push pressure 21 2, .flush, .next, .unsubscribe 0, .next, .next]

theorem live_points_delivered_twoCharts : Once (after twoCharts).log ∧
    (after twoCharts).log.countP (delivers 1 0) = 1 := by
  have honce : Once (after twoCharts).log := by decide
  let points : List (LivePoint Nat Nat) := [⟨0, 1, 20⟩, ⟨1, 2, 21⟩]
  let between : List (Entry Nat Nat) := [.scheduled, .pushed pressure ⟨1, 2, 21⟩]
  let during : List (Entry Nat Nat) :=
    [.batch [(pressure.1, [⟨"pressure", 21, 2⟩])], .delivered 0 (seriesKey pressure) points,
      .unsubscribed 0 pressure, .delivered 1 (seriesKey pressure) points]
  have hlog : (after twoCharts).log = [.subscribed 0 pressure, .subscribed 1 pressure] ++
      .pushed pressure ⟨0, 1, 20⟩ :: between ++ .flushed :: during ++ .ended :: [] := rfl
  have hwaits : ∀ e ∈ between, Waits 1 pressure e := by simp [between, Waits]
  have hended : .ended ∉ during := by simp [during]
  have hstays : Stays 1 pressure 0 during := by
    intro before after heq
    have hmem : .unsubscribed 1 pressure ∈ during := by simp [heq]
    simp [during] at hmem
  exact ⟨honce, ((live_points_delivered twoCharts honce).1 _ _ _ _ _ _ 1 hlog (by decide) hwaits
    hended hstays).2⟩

/-- A point waits for a listener when a flush begins that comes to its end. -/
def Awaited (listener n : Nat) (log : List (Entry Nat Nat)) : Prop :=
  ∃ before series p between during later,
    log = before ++ .pushed series p :: between ++ .flushed :: during ++ .ended :: later ∧
      p.id = n ∧ subscribed listener series before = true ∧
      (∀ e ∈ between, Waits listener series e) ∧ .ended ∉ during

/-- The callback of the first chart takes the second one off the page. -/
def takenOff : List (Event Nat Nat) :=
  [.subscribe 0 pressure, .subscribe 1 pressure, .push pressure 20 1, .flush, .next,
    .unsubscribe 1, .next]

/-- The first chart subscribes anew when it has been told. -/
def subscribedAnew : List (Event Nat Nat) :=
  [.subscribe 0 pressure, .subscribe 1 pressure, .push pressure 20 1, .flush, .next,
    .unsubscribe 0, .subscribe 0 pressure, .next, .next, .next]

/-- **Callbacks interfere.** A listener that is subscribed from the push until the flush may miss the
point, or be told it twice. -/
theorem callbacks_interfere :
    (Once (after takenOff).log ∧ Awaited 1 0 (after takenOff).log ∧
      (after takenOff).log.countP (delivers 1 0) = 0) ∧
    Once (after subscribedAnew).log ∧ Awaited 0 0 (after subscribedAnew).log ∧
      (after subscribedAnew).log.countP (delivers 0 0) = 2 := by
  let before : List (Entry Nat Nat) := [.subscribed 0 pressure, .subscribed 1 pressure]
  let point : LivePoint Nat Nat := ⟨0, 1, 20⟩
  let told (l : Nat) : Entry Nat Nat := .delivered l (seriesKey pressure) [point]
  have hwaits : ∀ l, ∀ e ∈ [(.scheduled : Entry Nat Nat)], Waits l pressure e := by simp [Waits]
  refine ⟨⟨by decide, ?_, by decide⟩, by decide, ?_, by decide⟩
  · exact ⟨before, pressure, point, [.scheduled], [told 0, .unsubscribed 1 pressure], [], rfl, rfl,
      by decide, hwaits 1, by simp [told]⟩
  · exact ⟨before, pressure, point, [.scheduled],
      [told 0, .unsubscribed 0 pressure, .subscribed 0 pressure, told 1, told 0], [], rfl, rfl,
      by decide, hwaits 0, by simp [told]⟩

end IotSaas.Charts
