import IotSaas.Charts.Newest

/-!
# `Charts/Watch.lean` — one point and one listener

One point and one listener are followed through a log (`Entry.watch`): a point that is pushed while
the listener is subscribed waits, is due when a flush begins, and is got when the listener is called
with it. `Fits` says what the buffer holds meanwhile. It is kept by every step, so no point is lost
and none comes twice (`after_follows`). A point is let off when its listener leaves before it is
got, or leaves and comes again within the flush that told it, or when the buffer is cleared.
-/

set_option autoImplicit false

namespace IotSaas.Charts

open Lib

/-! ## Following a point -/

/-- How a point stands with a listener. -/
inductive Phase where
  | absent
  | waiting
  | due
  | got
  /-- Got, and the listener has left before the end of the flush. -/
  | left
  | settled
  | excused
  | lost
  | twice
  deriving DecidableEq

structure Watch where
  subscribed : Bool := false
  phase : Phase := .absent

section

variable {T V : Type*}

/-- The phase of the point `n` with `listener` after a callback of `l` with `points`. -/
def Phase.told (listener n l : Nat) (points : List (LivePoint T V)) (phase : Phase) : Phase :=
  if l = listener ∧ n ∈ ids points then
    match phase with
    | .due => .got
    | .excused => .excused
    | _ => .twice
  else phase

/-- The phase after the point was pushed, if the listener is there for it, or is not. -/
def Phase.pushed (there : Bool) : Phase → Phase
  | .absent => if there then .waiting else .excused
  | phase => phase

/-- The phase after the end of a flush. -/
def Phase.ended : Phase → Phase
  | .due => .lost
  | .got => .settled
  | .left => .settled
  | phase => phase

/-- The phase after the listener has left. -/
def Phase.dropped : Phase → Phase
  | .waiting => .excused
  | .due => .excused
  | .got => .left
  | phase => phase

/-- The point `n`, which is of `series`, and `listener`, after an entry. -/
def Entry.watch (listener : Nat) (series : SeriesId) (n : Nat) (w : Watch) : Entry T V → Watch
  | .pushed s p =>
      if p.id = n then
        { w with phase := w.phase.pushed (decide (s = series) && w.subscribed) }
      else w
  | .subscribed l s =>
      if l = listener ∧ s = series then
        { subscribed := true, phase := if w.phase = .left then .excused else w.phase }
      else w
  | .unsubscribed l s =>
      if l = listener ∧ s = series then
        { subscribed := false, phase := w.phase.dropped }
      else w
  | .cleared => { w with phase := if w.phase = .waiting then .excused else w.phase }
  | .flushed => { w with phase := if w.phase = .waiting then .due else w.phase }
  | .delivered l _ points => { w with phase := w.phase.told listener n l points }
  | .ended => { w with phase := w.phase.ended }
  | _ => w

/-- The point and the listener after a log. -/
def watched (listener : Nat) (series : SeriesId) (n : Nat) (log : List (Entry T V)) : Watch :=
  log.foldl (Entry.watch listener series n) {}

@[simp] theorem watched_snoc (listener : Nat) (series : SeriesId) (n : Nat)
    (log : List (Entry T V)) (e : Entry T V) : watched listener series n (log ++ [e]) =
      e.watch listener series n (watched listener series n log) := by
  simp [watched]

theorem watched_subscribed (listener : Nat) (series : SeriesId) (n : Nat)
    (log : List (Entry T V)) :
    (watched listener series n log).subscribed = subscribed listener series log := by
  induction log using List.reverseRecOn with
  | nil => rfl
  | append_singleton log e ih =>
    rw [watched_snoc, subscribed_snoc, ← ih]
    cases e with
    | pushed s p => by_cases h : p.id = n <;> simp [Entry.watch, Entry.listens, h]
    | subscribed l s | unsubscribed l s =>
      by_cases h : l = listener ∧ s = series <;> simp [Entry.watch, Entry.listens, h]
    | _ => rfl

/-- A listener whose point is to come is subscribed. -/
theorem subscribed_of_watched {listener : Nat} {series : SeriesId} {n : Nat}
    {log : List (Entry T V)} (h : (watched listener series n log).phase = .waiting ∨
      (watched listener series n log).phase = .due) : subscribed listener series log = true := by
  rw [← watched_subscribed listener series n]
  induction log using List.reverseRecOn with
  | nil => rcases h with h | h <;> cases h
  | append_singleton log e ih =>
    rw [watched_snoc] at h ⊢
    generalize watched listener series n log = w at h ih ⊢
    obtain ⟨sub, phase⟩ := w
    cases e with
    | pushed s p =>
      by_cases hid : p.id = n
      · simp only [Entry.watch, hid, if_true] at h ih ⊢
        cases phase with
        | absent =>
          by_cases hs : s = series ∧ sub = true
          · exact hs.2
          · simp [Phase.pushed, hs] at h
        | _ => exact ih h
      · simpa [Entry.watch, hid] using ih (by simpa [Entry.watch, hid] using h)
    | subscribed l s =>
      by_cases hl : l = listener ∧ s = series
      · simp [Entry.watch, hl]
      · simpa [Entry.watch, hl] using ih (by simpa [Entry.watch, hl] using h)
    | unsubscribed l s =>
      by_cases hl : l = listener ∧ s = series
      · cases phase <;> simp [Entry.watch, Phase.dropped, hl] at h
      · simpa [Entry.watch, hl] using ih (by simpa [Entry.watch, hl] using h)
    | delivered l key points =>
      by_cases hl : l = listener ∧ n ∈ ids points
      · cases phase <;> simp [Entry.watch, Phase.told, hl] at h
      · simp only [Entry.watch, Phase.told, if_neg hl] at h ⊢
        exact ih h
    | cleared | flushed | ended => cases phase <;> simp_all [Entry.watch, Phase.ended]
    | scheduled | batch => exact ih h

end

namespace LiveBuffer

variable {T V : Type*} [LinearOrder T]

section

omit [LinearOrder T]

/-- The point is not among those that wait for a flush. -/
def NotPending (s : LiveBuffer T V) (n : Nat) : Prop := ∀ x ∈ s.series.items, n ∉ ids x.2

/-- The point is not of a series that the flush has still to come to. -/
def NotQueued (s : LiveBuffer T V) (n : Nat) : Prop :=
  ∀ d, s.delivery = some d → ∀ x ∈ d.rest, n ∉ ids x.2

/-- What holds of the round the point is in, if it is in one. -/
def Underway (s : LiveBuffer T V) (n : Nat) (P : Round T V → Prop) : Prop :=
  ∀ d r, s.delivery = some d → d.current = some r → n ∈ ids r.points → P r

/-- A round that goes through the set of the series and has met the listener. -/
def Met (s : LiveBuffer T V) (l : Nat) (key : String) (r : Round T V) : Prop :=
  s.label r.set = some key ∧ ∃ i < r.index, (s.setAt r.set).At i l

/-- A round that goes through the set of the series, which the listener has left. -/
def Gone (s : LiveBuffer T V) (l : Nat) (key : String) (r : Round T V) : Prop :=
  s.label r.set = some key ∧ ∀ i, ¬(s.setAt r.set).At i l

/-- A round that goes through the set of the series and comes to the listener yet. -/
def Ahead (s : LiveBuffer T V) (l : Nat) (key : String) (r : Round T V) : Prop :=
  s.label r.set = some key ∧ ∃ i, r.index ≤ i ∧ (s.setAt r.set).At i l

/-- What the buffer holds of a point in a phase. -/
def Fits (s : LiveBuffer T V) (l : Nat) (series : SeriesId) (n : Nat) : Phase → Prop
  | .absent => s.pushes ≤ n ∧ s.NotPending n ∧ s.NotQueued n ∧ s.Underway n fun _ => False
  | .waiting => n < s.pushes ∧ s.NotQueued n ∧ (s.Underway n fun _ => False) ∧
      (∀ x ∈ s.series.items, n ∈ ids x.2 → x.1 = seriesKey series) ∧
      ∃ points, (seriesKey series, points) ∈ s.series.items ∧ n ∈ ids points
  | .due => n < s.pushes ∧ s.NotPending n ∧ ∃ d, s.delivery = some d ∧
      (∀ x ∈ d.rest, n ∈ ids x.2 → x.1 = seriesKey series) ∧
      (((s.Underway n fun _ => False) ∧
          ∃ points, (seriesKey series, points) ∈ d.rest ∧ n ∈ ids points) ∨
        s.NotQueued n ∧ ∃ r, d.current = some r ∧ n ∈ ids r.points ∧
          s.Ahead l (seriesKey series) r)
  | .got => n < s.pushes ∧ s.NotPending n ∧ s.NotQueued n ∧ s.Underway n (s.Met l (seriesKey series))
  | .left => n < s.pushes ∧ s.NotPending n ∧ s.NotQueued n ∧
      s.Underway n (s.Gone l (seriesKey series))
  | .settled => n < s.pushes ∧ s.NotPending n ∧ s.NotQueued n ∧ s.Underway n fun _ => False
  | .excused => n < s.pushes
  | .lost => False
  | .twice => False

/-! ## What leaves a point where it is -/

variable {s s' : LiveBuffer T V} {l : Nat} {series : SeriesId} {n : Nat} {phase : Phase}

theorem Fits.frame (h : s.Fits l series n phase) (hpushes : s'.pushes = s.pushes)
    (hdelivery : s'.delivery = s.delivery)
    (hseries : ∀ x ∈ s'.series.items, x ∈ s.series.items)
    (hkept : phase = .waiting → ∀ points, (seriesKey series, points) ∈ s.series.items →
      (seriesKey series, points) ∈ s'.series.items)
    (hlabel : ∀ a key, s.label a = some key → s'.label a = some key)
    (hat : phase = .due ∨ phase = .got → ∀ a i, s.label a = some (seriesKey series) →
      (s.setAt a).At i l → (s'.setAt a).At i l)
    (hgone : phase = .left → ∀ a i, s.label a = some (seriesKey series) →
      (s'.setAt a).At i l → (s.setAt a).At i l) : s'.Fits l series n phase := by
  have hpending (hn : s.NotPending n) : s'.NotPending n := fun x hx => hn x (hseries x hx)
  have hqueued (hn : s.NotQueued n) : s'.NotQueued n := fun d hd => hn d (hdelivery ▸ hd)
  have hround {P P' : Round T V → Prop} (hP : ∀ r, P r → P' r) (hn : s.Underway n P) :
      s'.Underway n P' := fun d r hd hcur hmem => hP r (hn d r (hdelivery ▸ hd) hcur hmem)
  cases phase with
  | absent =>
    obtain ⟨hlt, hp, hq, hr⟩ := h
    exact ⟨hpushes ▸ hlt, hpending hp, hqueued hq, hround (fun _ hr => hr) hr⟩
  | waiting =>
    obtain ⟨hlt, hq, hr, hkey, points, hmem, hn⟩ := h
    exact ⟨hpushes ▸ hlt, hqueued hq, hround (fun _ hr => hr) hr,
      fun x hx => hkey x (hseries x hx), points, hkept rfl points hmem, hn⟩
  | due =>
    obtain ⟨hlt, hp, d, hd, hkey, hwhere⟩ := h
    refine ⟨hpushes ▸ hlt, hpending hp, d, hdelivery ▸ hd, hkey, ?_⟩
    rcases hwhere with ⟨hr, hmem⟩ | ⟨hq, r, hcur, hn, hl, i, hi, hi'⟩
    · exact .inl ⟨hround (fun _ hr => hr) hr, hmem⟩
    · exact .inr ⟨hqueued hq, r, hcur, hn, hlabel _ _ hl, i, hi, hat (.inl rfl) _ _ hl hi'⟩
  | got =>
    obtain ⟨hlt, hp, hq, hr⟩ := h
    refine ⟨hpushes ▸ hlt, hpending hp, hqueued hq, hround ?_ hr⟩
    intro r ⟨hl, i, hi, hi'⟩
    exact ⟨hlabel _ _ hl, i, hi, hat (.inr rfl) _ _ hl hi'⟩
  | left =>
    obtain ⟨hlt, hp, hq, hr⟩ := h
    refine ⟨hpushes ▸ hlt, hpending hp, hqueued hq, hround ?_ hr⟩
    intro r ⟨hl, hnot⟩
    exact ⟨hlabel _ _ hl, fun i hi => hnot i (hgone rfl _ _ hl hi)⟩
  | settled =>
    obtain ⟨hlt, hp, hq, hr⟩ := h
    exact ⟨hpushes ▸ hlt, hpending hp, hqueued hq, hround (fun _ hr => hr) hr⟩
  | excused => exact lt_of_lt_of_eq h hpushes.symm
  | lost => exact h
  | twice => exact h

theorem Fits.lt (h : s.Fits l series n phase) (hphase : phase ≠ .absent) : n < s.pushes := by
  cases phase with
  | absent => exact absurd rfl hphase
  | excused => exact h
  | lost => exact h.elim
  | twice => exact h.elim
  | _ => exact h.1

theorem Fits.idles (h : s.Fits l series n phase) (hidles : Idles s s') :
    s'.Fits l series n phase := by
  refine h.frame hidles.pushes hidles.delivery (fun x hx => hidles.series ▸ hx)
    (fun _ points hmem => hidles.series ▸ hmem)
    (fun a key ha => (hidles.leavesSets.label a).trans ha) (fun _ a i _ hat => ?_)
    (fun _ a i _ hat => ?_)
  · exact hidles.leavesSets.setAt a ▸ hat
  · exact hidles.leavesSets.setAt a ▸ hat

/-- Another listener comes, or comes to another series. -/
theorem Fits.joins {series' : SeriesId} {l' set : Nat} (h : s.Fits l series n phase)
    (hreg : s.Registered) (hjoins : Joins s s' series' l' set)
    (hother : phase = .left → ¬(l' = l ∧ series' = series)) : s'.Fits l series n phase := by
  refine h.frame hjoins.pushes hjoins.delivery (fun x hx => hjoins.series ▸ hx)
    (fun _ points hmem => hjoins.series ▸ hmem) (fun a key ha => hjoins.label_mono hreg ha)
    (fun _ a i _ hat => hjoins.at_mono hat) ?_
  intro hphase a i hlabel hat
  apply hjoins.at_of_at hat
  by_contra hsame
  rw [not_or, not_not, not_not] at hsame
  obtain ⟨rfl, rfl⟩ := hsame
  have hseries := hjoins.label_mono hreg hlabel
  rw [hjoins.label, Option.some.injEq] at hseries
  exact hother hphase ⟨rfl, seriesKey_inj hseries⟩

/-- A listener that leaves, and another place in the sets of the watched one. -/
theorem Leaves.apart {sub : Subscription} (hreg : s.Registered) (hsub : sub ∈ s.subscriptions)
    (hother : ¬(sub.listener = l ∧ sub.series = series)) {a : Nat}
    (hlabel : s.label a = some (seriesKey series)) : a ≠ sub.set ∨ l ≠ sub.listener := by
  by_contra hsame
  rw [not_or, not_not, not_not] at hsame
  obtain ⟨rfl, rfl⟩ := hsame
  rw [hreg.label_of_subscription hsub, Option.some.injEq] at hlabel
  exact hother ⟨rfl, seriesKey_inj hlabel⟩

/-- The set of a subscribed listener. -/
theorem Registered.heard (hreg : s.Registered) (h : subscribed l series s.log = true) :
    ∃ a i, s.listeners.get (seriesKey series) = some a ∧
      s.label a = some (seriesKey series) ∧ (s.setAt a).At i l := by
  obtain ⟨a, i, hlabel, hat⟩ := (hreg.subscribed_iff l series).mp h
  exact ⟨a, i, hreg.get_of_at hlabel hat, hlabel, hat⟩

/-- Another listener leaves, or leaves another series. -/
theorem Fits.leaves {sub : Subscription} (h : s.Fits l series n phase) (hreg : s.Registered)
    (hsub : sub ∈ s.subscriptions) (hlive : .unsubscribed sub.listener sub.series ∉ s.log)
    (hleaves : Leaves s s' sub)
    (hsubscribed : phase = .waiting → subscribed l series s.log = true)
    (hother : ¬(sub.listener = l ∧ sub.series = series)) : s'.Fits l series n phase := by
  refine h.frame hleaves.pushes hleaves.delivery (fun x hx => hleaves.mem_of_mem hx) ?_
    (fun a key ha => (hleaves.label a).trans ha)
    (fun _ a i ha hat => hleaves.at_mono hat (Leaves.apart hreg hsub hother ha))
    (fun _ a i _ hat => hleaves.at_of_at hat)
  intro hphase points hmem
  obtain ⟨a, i, hget, hlabel, hat⟩ := hreg.heard (hsubscribed hphase)
  have hat' := hleaves.at_mono hat (Leaves.apart hreg hsub hother hlabel)
  obtain ⟨-, hsame⟩ := hleaves.get_of_at hget hat' (hreg.get_of_live hsub hlive)
  rw [← JsMap.get_eq_some_iff, hsame, JsMap.get_eq_some_iff]
  exact hmem

/-- The listener leaves that has got the point. -/
theorem Fits.left {sub : Subscription} (h : s.Fits sub.listener sub.series n .got)
    (hreg : s.Registered) (hsub : sub ∈ s.subscriptions)
    (hlive : .unsubscribed sub.listener sub.series ∉ s.log) (hleaves : Leaves s s' sub) :
    s'.Fits sub.listener sub.series n .left := by
  obtain ⟨hlt, hp, hq, hr⟩ := h
  refine ⟨hleaves.pushes ▸ hlt, fun x hx => hp x (hleaves.mem_of_mem hx),
    fun d hd => hq d (hleaves.delivery ▸ hd), ?_⟩
  intro d r hd hcur hmem
  obtain ⟨hlabel, i, -, hat⟩ := hr d r (hleaves.delivery ▸ hd) hcur hmem
  refine ⟨(hleaves.label _).trans hlabel, ?_⟩
  have hset := hreg.get_of_at hlabel hat
  rw [hreg.get_of_live hsub hlive, Option.some.injEq] at hset
  intro j hj
  rw [← hset, hleaves.setAt] at hj
  exact (JsSet.at_delete.mp hj).2 rfl

/-! ## A flush -/

/-- A flush begins. -/
theorem Fits.take (h : s.Fits l series n phase) (hnone : s.delivery = none) :
    s.take.Fits l series n (if phase = .waiting then .due else phase) := by
  have hpending : s.take.NotPending n := fun x hx => nomatch hx
  have hround {P : Round T V → Prop} : s.take.Underway n P := by
    intro d r hd hcur
    obtain rfl := Option.some.inj hd
    cases hcur
  have hqueued (hp : s.NotPending n) : s.take.NotQueued n := by
    intro d hd x hx
    obtain rfl := Option.some.inj hd
    exact hp x hx
  cases phase with
  | absent => exact ⟨h.1, hpending, hqueued h.2.1, hround⟩
  | waiting =>
    obtain ⟨hlt, -, -, hkey, hmem⟩ := h
    exact ⟨hlt, hpending, _, rfl, hkey, .inl ⟨hround, hmem⟩⟩
  | due =>
    obtain ⟨-, -, d, hd, -⟩ := h
    rw [hnone] at hd
    cases hd
  | got | left | settled => exact ⟨h.1, hpending, hqueued h.2.1, hround⟩
  | excused => exact h
  | lost => exact h
  | twice => exact h

variable {d : Delivery T V} {r : Round T V} {rest : Pile T V}

/-- Where a point is that is told. -/
theorem Turn.mem (h : Turn s d l r rest) (hn : n ∈ ids r.points) :
    (∃ r₀, d.current = some r₀ ∧ r₀.points = r.points) ∨
      (r.key, r.points) ∈ d.rest := by
  cases h with
  | again hcur => exact .inl ⟨_, hcur, rfl⟩
  | on _ hrest => exact .inr (by simp [hrest])

theorem Turn.rest_subset (h : Turn s d l r rest) : rest ⊆ d.rest := by
  cases h with
  | again => exact fun _ hx => hx
  | on _ hrest =>
    intro x hx
    rw [hrest]
    exact List.mem_append_right _ (List.mem_cons_of_mem _ hx)

/-- A point that the flush does not have is not told. -/
theorem Turn.not_mem {l' : Nat} (h : Turn s d l' r rest) (hdelivery : s.delivery = some d)
    (hq : s.NotQueued n) (hr : s.Underway n fun _ => False) : n ∉ ids r.points := by
  intro hn
  rcases h.mem hn with ⟨r₀, hcur, hpoints⟩ | hmem
  · exact hr d r₀ hdelivery hcur (hpoints ▸ hn)
  · exact hq d hdelivery _ hmem hn

theorem notQueued_tell {l' : Nat} (h : Turn s d l' r rest) (hdelivery : s.delivery = some d)
    (hq : s.NotQueued n) :
    (s.tell l' r rest).NotQueued n := by
  intro d' hd x hx
  obtain rfl := Option.some.inj hd
  exact hq d hdelivery x (h.rest_subset hx)

theorem underway_tell {l' : Nat} {P : Round T V → Prop} (h : n ∈ ids r.points → P r) :
    (s.tell l' r rest).Underway n P := by
  intro d' r' hd hcur hn
  obtain rfl := Option.some.inj hd
  obtain rfl := Option.some.inj hcur
  exact h hn

theorem told_of_not {l' : Nat} {points : List (LivePoint T V)} (h : ¬(l' = l ∧ n ∈ ids points)) :
    phase.told l n l' points = phase := if_neg h

/-- The next listener of the set that comes to the listener yet: it is that one, or one before it. -/
theorem met_or_ahead {key : String} {l' i : Nat} (h : s.Ahead l key r)
    (hnext : (s.setAt r.set).next r.index = some (l', i)) :
    if l' = l then s.Met l key { r with index := i } else s.Ahead l key { r with index := i } := by
  obtain ⟨hlabel, j, hj, hat⟩ := h
  obtain ⟨k, rfl, -, hat', hfirst⟩ := JsSet.at_of_next hnext
  split
  · rename_i hl
    subst hl
    exact ⟨hlabel, k, Nat.lt_succ_self k, hat'⟩
  · rename_i hl
    refine ⟨hlabel, j, ?_, hat⟩
    have hne : k ≠ j := by
      intro heq
      subst heq
      exact hl (hat'.eq hat)
    exact Nat.lt_of_le_of_ne (hfirst j l hj hat) hne

theorem Fits.tell_due {l' : Nat} (h : s.Fits l series n .due) (hreg : s.Registered)
    (hdelivery : s.delivery = some d) (hnodup : (d.rest.map Prod.fst).Nodup)
    (hsubscribed : subscribed l series s.log = true) (hturn : Turn s d l' r rest) :
    (s.tell l' r rest).Fits l series n (Phase.due.told l n l' r.points) := by
  obtain ⟨hlt, hp, d', hd, hkey, hwhere⟩ := h
  rw [hdelivery, Option.some.injEq] at hd
  subst hd
  have hkey' : ∀ x ∈ rest, n ∈ ids x.2 → x.1 = seriesKey series :=
    fun x hx => hkey x (hturn.rest_subset hx)
  -- The point is in the round that the callback is of, and in no other series.
  have hround {r : Round T V} {rest : Pile T V} {l' : Nat} (hn : n ∈ ids r.points)
      (hq : (s.tell l' r rest).NotQueued n)
      (hkey' : ∀ x ∈ rest, n ∈ ids x.2 → x.1 = seriesKey series)
      (hnext : if l' = l then s.Met l (seriesKey series) r else s.Ahead l (seriesKey series) r) :
      (s.tell l' r rest).Fits l series n (Phase.due.told l n l' r.points) := by
    by_cases hl : l' = l
    · rw [if_pos hl] at hnext
      rw [Phase.told, if_pos ⟨hl, hn⟩]
      exact ⟨hlt, hp, hq, underway_tell fun _ => hnext⟩
    · rw [if_neg hl] at hnext
      rw [told_of_not fun h => hl h.1]
      exact ⟨hlt, hp, _, rfl, hkey', .inr ⟨hq, r, rfl, hn, hnext⟩⟩
  cases hturn with
  | @again r₀ i hcur hnext =>
    rcases hwhere with ⟨hr, hmem⟩ | ⟨hq, r, hcur', hn, hahead⟩
    · have hnot : n ∉ ids r₀.points := fun hn => hr d r₀ hdelivery hcur hn
      rw [told_of_not fun h => hnot h.2]
      exact ⟨hlt, hp, _, rfl, hkey, .inl ⟨underway_tell fun hn => hnot hn, hmem⟩⟩
    · rw [hcur, Option.some.injEq] at hcur'
      subst hcur'
      refine hround hn ?_ hkey (met_or_ahead hahead hnext)
      exact notQueued_tell (.again hcur hnext) hdelivery hq
  | @on skipped rest key points set i hidle hrest hskipped hget hnext =>
    rcases hwhere with ⟨hr, points', hmem, hn⟩ | ⟨-, r, hcur, -, -, i, hi, hat⟩
    · obtain ⟨a, j, hget', hlabel, hat⟩ := hreg.heard hsubscribed
      rw [hrest, List.mem_append, List.mem_cons] at hmem
      rw [hrest, List.map_append, List.map_cons] at hnodup
      have hfresh : key ∉ rest.map Prod.fst := (List.nodup_cons.mp hnodup.of_append_right).1
      rcases hmem with hmem | heq | hmem
      · exact absurd hat (hskipped _ hmem a hget' j l)
      · obtain ⟨rfl, rfl⟩ := Prod.mk.inj heq
        rw [hget, Option.some.injEq] at hget'
        subst hget'
        have hq : (s.tell l' ⟨seriesKey series, points', set, i⟩ rest).NotQueued n := by
          intro d' hd x hx hn'
          obtain rfl := Option.some.inj hd
          exact hfresh (hkey' x hx hn' ▸ List.mem_map_of_mem hx)
        have hahead : s.Ahead l (seriesKey series) ⟨seriesKey series, points', set, 0⟩ :=
          ⟨hlabel, j, Nat.zero_le j, hat⟩
        exact hround (r := ⟨seriesKey series, points', set, i⟩) hn hq hkey'
          (met_or_ahead hahead hnext)
      · have hnot : n ∉ ids points := by
          intro hn'
          have hkey₀ : key = seriesKey series := hkey (key, points) (by simp [hrest]) hn'
          subst hkey₀
          exact hfresh (List.mem_map_of_mem hmem)
        rw [told_of_not fun h => hnot h.2]
        exact ⟨hlt, hp, _, rfl, hkey',
          .inl ⟨underway_tell fun hn' => hnot hn', points', hmem, hn⟩⟩
    · exact absurd hat (JsSet.not_at_of_next_eq_none (hidle r hcur) hi)

/-- A callback is called. -/
theorem Fits.tell {l' : Nat} (h : s.Fits l series n phase) (hreg : s.Registered)
    (hdelivery : s.delivery = some d) (hnodup : (d.rest.map Prod.fst).Nodup)
    (hsubscribed : phase = .due → subscribed l series s.log = true) (hturn : Turn s d l' r rest) :
    (s.tell l' r rest).Fits l series n (phase.told l n l' r.points) := by
  have hqueued (hq : s.NotQueued n) := notQueued_tell hturn hdelivery hq
  -- A point the flush tells, and has no more in a series to come to, is that of the round.
  have hagain (hq : s.NotQueued n) (hn : n ∈ ids r.points) :
      ∃ r₀ i, d.current = some r₀ ∧ r = { r₀ with index := i } ∧
        (s.setAt r₀.set).next r₀.index = some (l', i) := by
    cases hturn with
    | @again r₀ i hcur hnext => exact ⟨r₀, i, hcur, rfl, hnext⟩
    | @on _ _ key points _ _ _ hrest =>
      exact absurd hn (hq d hdelivery (key, points) (by simp [hrest]))
  cases phase with
  | absent =>
    obtain ⟨hle, hp, hq, hr⟩ := h
    have hnot := hturn.not_mem hdelivery hq hr
    rw [told_of_not fun h => hnot h.2]
    exact ⟨hle, hp, hqueued hq, underway_tell fun hn => hnot hn⟩
  | waiting =>
    obtain ⟨hlt, hq, hr, hmem⟩ := h
    have hnot := hturn.not_mem hdelivery hq hr
    rw [told_of_not fun h => hnot h.2]
    exact ⟨hlt, hqueued hq, underway_tell fun hn => hnot hn, hmem⟩
  | due => exact h.tell_due hreg hdelivery hnodup (hsubscribed rfl) hturn
  | got =>
    obtain ⟨hlt, hp, hq, hr⟩ := h
    by_cases hn : n ∈ ids r.points
    · obtain ⟨r₀, i, hcur, rfl, hnext⟩ := hagain hq hn
      obtain ⟨hlabel, j, hj, hat⟩ := hr d r₀ hdelivery hcur hn
      obtain ⟨k, rfl, hk, hat', -⟩ := JsSet.at_of_next hnext
      have hne : l' ≠ l := by
        intro hl
        subst hl
        have := hat.inj hat'
        omega
      rw [told_of_not fun h => hne h.1]
      exact ⟨hlt, hp, hqueued hq, underway_tell fun _ =>
        ⟨hlabel, j, Nat.lt_succ_of_lt (Nat.lt_of_lt_of_le hj hk), hat⟩⟩
    · rw [told_of_not fun h => hn h.2]
      exact ⟨hlt, hp, hqueued hq, underway_tell fun hn' => absurd hn' hn⟩
  | left =>
    obtain ⟨hlt, hp, hq, hr⟩ := h
    by_cases hn : n ∈ ids r.points
    · obtain ⟨r₀, i, hcur, rfl, hnext⟩ := hagain hq hn
      obtain ⟨hlabel, hgone⟩ := hr d r₀ hdelivery hcur hn
      obtain ⟨k, -, -, hat', -⟩ := JsSet.at_of_next hnext
      have hne : l' ≠ l := fun hl => hgone k (hl ▸ hat')
      rw [told_of_not fun h => hne h.1]
      exact ⟨hlt, hp, hqueued hq, underway_tell fun _ => ⟨hlabel, hgone⟩⟩
    · rw [told_of_not fun h => hn h.2]
      exact ⟨hlt, hp, hqueued hq, underway_tell fun hn' => absurd hn' hn⟩
  | settled =>
    obtain ⟨hlt, hp, hq, hr⟩ := h
    have hnot := hturn.not_mem hdelivery hq hr
    rw [told_of_not fun h => hnot h.2]
    exact ⟨hlt, hp, hqueued hq, underway_tell fun hn => hnot hn⟩
  | excused =>
    have hsame : Phase.excused.told l n l' r.points = .excused := by
      unfold Phase.told
      split <;> rfl
    rw [hsame]
    exact h
  | lost => exact h.elim
  | twice => exact h.elim

/-- A flush ends. -/
theorem Fits.finish (h : s.Fits l series n phase) (hreg : s.Registered)
    (hdelivery : s.delivery = some d) (hidle : s.Idle d) (hunheard : ∀ x ∈ d.rest, s.Unheard x.1)
    (hsubscribed : phase = .due → subscribed l series s.log = true) :
    s.finish.Fits l series n phase.ended := by
  have hqueued : s.finish.NotQueued n := fun d hd => nomatch hd
  have hround {P : Round T V → Prop} : s.finish.Underway n P := fun d r hd => nomatch hd
  cases phase with
  | absent => exact ⟨h.1, h.2.1, hqueued, hround⟩
  | waiting => exact ⟨h.1, hqueued, hround, h.2.2.2⟩
  | due =>
    obtain ⟨-, -, d', hd, -, hwhere⟩ := h
    rw [hdelivery, Option.some.injEq] at hd
    subst hd
    rcases hwhere with ⟨-, points, hmem, -⟩ | ⟨-, r, hcur, -, -, i, hi, hat⟩
    · obtain ⟨a, j, hget, -, hat⟩ := hreg.heard (hsubscribed rfl)
      exact absurd hat (hunheard _ hmem a hget j l)
    · exact absurd hat (JsSet.not_at_of_next_eq_none (hidle r hcur) hi)
  | got | left | settled => exact ⟨h.1, h.2.1, hqueued, hround⟩
  | excused => exact h
  | lost => exact h
  | twice => exact h

end

/-! ## Pushes -/

section

variable {s : LiveBuffer T V} {l : Nat} {series : SeriesId} {n : Nat} {phase : Phase}

theorem notPending_record {series' : SeriesId} {value : V} {t : T} (hp : s.NotPending n)
    (hne : s.pushes ≠ n) : (s.record series' value t).NotPending n := by
  intro x hx hn
  rcases mem_record hx with hx | ⟨-, old, hold, hpoints⟩
  · exact hp x hx hn
  · rw [hpoints, ids, List.map_append, List.mem_append] at hn
    rcases hn with hn | hn
    · rcases hold with rfl | hold
      · cases hn
      · exact hp _ hold hn
    · rw [List.map_singleton, List.mem_singleton] at hn
      exact hne hn.symm

/-- Another point is pushed. -/
theorem Fits.record (h : s.Fits l series n phase) (series' : SeriesId) (value : V) (t : T)
    (hne : s.pushes ≠ n) : (s.record series' value t).Fits l series n phase := by
  have hlt (h : n < s.pushes) : n < (s.record series' value t).pushes := Nat.lt_succ_of_lt h
  cases phase with
  | absent =>
    obtain ⟨hle, hp, hq, hr⟩ := h
    exact ⟨Nat.lt_of_le_of_ne hle hne, notPending_record hp hne, hq, hr⟩
  | waiting =>
    obtain ⟨hlt', hq, hr, hkey, points, hmem, hn⟩ := h
    refine ⟨hlt hlt', hq, hr, ?_, ?_⟩
    · intro x hx hn'
      rcases mem_record hx with hx | ⟨-, old, hold, hpoints⟩
      · exact hkey x hx hn'
      · rw [hpoints, ids, List.map_append, List.mem_append] at hn'
        rcases hn' with hn' | hn'
        · rcases hold with rfl | hold
          · cases hn'
          · exact hkey (x.1, old) hold hn'
        · rw [List.map_singleton, List.mem_singleton] at hn'
          exact absurd hn'.symm hne
    · by_cases hsame : (s.listeners.get (seriesKey series')).isSome = true ∧
          seriesKey series = seriesKey series'
      · refine ⟨points ++ [⟨s.pushes, t, value⟩], ?_, ?_⟩
        · simp only [LiveBuffer.record, note_series]
          rw [if_pos hsame.1, JsMap.mem_set, if_pos hsame.2, ← hsame.2, JsMap.get_of_mem hmem]
          rfl
        · rw [ids, List.map_append]
          exact List.mem_append_left _ hn
      · refine ⟨points, ?_, hn⟩
        simp only [LiveBuffer.record, note_series]
        split
        · rename_i hsome
          rw [JsMap.mem_set, if_neg fun hkey => hsame ⟨hsome, hkey⟩]
          exact hmem
        · exact hmem
  | due =>
    obtain ⟨hlt', hp, hrest⟩ := h
    exact ⟨hlt hlt', notPending_record hp hne, hrest⟩
  | got | left | settled =>
    obtain ⟨hlt', hp, hrest⟩ := h
    exact ⟨hlt hlt', notPending_record hp hne, hrest⟩
  | excused => exact hlt h
  | lost => exact h
  | twice => exact h

/-- The point is pushed, and the listener is there. -/
theorem Fits.recorded (h : s.Fits l series s.pushes .absent) (hreg : s.Registered)
    (hsubscribed : subscribed l series s.log = true) (value : V) (t : T) :
    (s.record series value t).Fits l series s.pushes .waiting := by
  obtain ⟨-, hp, hq, hr⟩ := h
  obtain ⟨a, i, hget, -, -⟩ := hreg.heard hsubscribed
  refine ⟨Nat.lt_succ_self _, hq, hr, ?_, ?_⟩
  · intro x hx hn
    rcases mem_record hx with hx | ⟨hkey, -⟩
    · exact absurd hn (hp x hx)
    · exact hkey
  · refine ⟨(s.series.get (seriesKey series)).getD [] ++ [⟨s.pushes, t, value⟩], ?_, by simp [ids]⟩
    simp only [LiveBuffer.record, note_series]
    rw [if_pos (by rw [hget]; rfl), JsMap.mem_set, if_pos rfl]

end

/-! ## Runs -/

/-- An entry's point is new. -/
def New (before : List (Entry T V)) : Entry T V → Prop
  | .pushed _ p => ∀ l series, (watched l series p.id before).phase = .absent
  | _ => True

/-- The buffer holds what its log says of every point and every listener. -/
structure Follows (s : LiveBuffer T V) : Prop where
  labelled : s.Labelled
  nodup : ∀ d, s.delivery = some d → (d.rest.map Prod.fst).Nodup
  fits : ∀ l series n, s.Fits l series n (watched l series n s.log).phase
  new : Every New s.log

omit [LinearOrder T] in
theorem follows_empty : ({} : LiveBuffer T V).Follows where
  labelled := fun _ _ h => nomatch h
  nodup := fun _ h => nomatch h
  fits _ _ n := ⟨Nat.zero_le n, (fun _ hx => nomatch hx), (fun _ h => nomatch h),
    fun _ _ h => nomatch h⟩
  new := every_nil

omit [LinearOrder T] in
theorem Follows.absent {s : LiveBuffer T V} (h : s.Follows) (l : Nat) (series : SeriesId) :
    (watched l series s.pushes s.log).phase = .absent := by
  by_contra hne
  exact Nat.lt_irrefl _ ((h.fits l series s.pushes).lt hne)

omit [LinearOrder T] in
theorem Follows.idles {s s' : LiveBuffer T V} (h : s.Follows) (hidles : Idles s s') :
    s'.Follows := by
  have hlabelled : s'.Labelled := by
    intro d r hd hcur
    rw [hidles.leavesSets.label]
    exact h.labelled d r (hidles.delivery ▸ hd) hcur
  have hnodup : ∀ d, s'.delivery = some d → (d.rest.map Prod.fst).Nodup :=
    fun d hd => h.nodup d (hidles.delivery ▸ hd)
  rcases hidles.log with hlog | ⟨e, he, hlog⟩
  · exact ⟨hlabelled, hnodup, fun l series n => hlog ▸ (h.fits l series n).idles hidles,
      hlog ▸ h.new⟩
  · refine ⟨hlabelled, hnodup, fun l series n => ?_, ?_⟩
    · have hsame : watched l series n s'.log = watched l series n s.log := by
        rw [hlog, watched_snoc]
        cases e with
        | scheduled | batch => rfl
        | _ => exact he.elim
      rw [hsame]
      exact (h.fits l series n).idles hidles
    · rw [hlog]
      apply h.new.snoc
      cases e with
      | scheduled | batch => trivial
      | _ => exact he.elim

theorem Follows.record {s : LiveBuffer T V} (h : s.Follows) (hreg : s.Registered)
    (series : SeriesId) (value : V) (t : T) : (s.record series value t).Follows where
  labelled := fun d r hd hcur => h.labelled d r hd hcur
  nodup := h.nodup
  fits l series' n := by
    have hlog : (s.record series value t).log =
        s.log ++ [.pushed series ⟨s.pushes, t, value⟩] := rfl
    rw [hlog, watched_snoc]
    by_cases hn : s.pushes = n
    · subst hn
      have hfits := h.fits l series' s.pushes
      rw [h.absent l series'] at hfits
      simp only [Entry.watch, if_true, h.absent l series', Phase.pushed]
      split
      · rename_i hthere
        rw [watched_subscribed, Bool.and_eq_true, decide_eq_true_eq] at hthere
        obtain ⟨rfl, hsubscribed⟩ := hthere
        exact hfits.recorded hreg hsubscribed value t
      · exact Nat.lt_succ_self s.pushes
    · simp only [Entry.watch, hn, if_false]
      exact (h.fits l series' n).record series value t hn
  new := h.new.snoc fun l series => h.absent l series

omit [LinearOrder T] in
theorem Follows.take {s : LiveBuffer T V} (h : s.Follows) (hdelivery : s.delivery = none) :
    s.take.Follows where
  labelled := by
    intro d r hd hcur
    obtain rfl := Option.some.inj hd
    cases hcur
  nodup := by
    intro d hd
    obtain rfl := Option.some.inj hd
    exact s.series.nodup
  fits l series n := by
    have hlog : s.take.log = s.log ++ [.flushed] := rfl
    rw [hlog, watched_snoc]
    exact (h.fits l series n).take hdelivery
  new := h.new.snoc trivial

theorem Follows.step {s s' : LiveBuffer T V} (hreg : s.Registered) (h : s.Follows)
    (hstep : Step s s') (honce : Once s'.log) : s'.Follows := by
  have hlabelled := h.labelled.step hreg hstep
  have hsubscribed {l : Nat} {series : SeriesId} {n : Nat}
      (hphase : (watched l series n s.log).phase = .waiting ∨
        (watched l series n s.log).phase = .due) := subscribed_of_watched hphase
  cases hstep with
  | minds hidles => exact h.idles hidles
  | records series value t => exact h.record hreg series value t
  | @joins _ series' l' set hjoins =>
    refine ⟨hlabelled, fun d hd => h.nodup d (hjoins.delivery ▸ hd), fun l series n => ?_, ?_⟩
    · have hfits := h.fits l series n
      rw [hjoins.log, watched_snoc]
      by_cases hsame : l' = l ∧ series' = series
      · simp only [Entry.watch, hsame, and_self, if_true]
        split
        · rename_i hleft
          rw [hleft] at hfits
          exact lt_of_lt_of_eq (hfits.lt (by simp)) hjoins.pushes.symm
        · rename_i hleft
          exact hfits.joins hreg hjoins fun hphase => absurd hphase hleft
      · simp only [Entry.watch, hsame, if_false]
        exact hfits.joins hreg hjoins fun _ => hsame
    · rw [hjoins.log]
      exact h.new.snoc trivial
  | @leaves _ sub hsub hleaves =>
    rw [hleaves.log] at honce
    have hlive := honce.fresh
    refine ⟨hlabelled, fun d hd => h.nodup d (hleaves.delivery ▸ hd), fun l series n => ?_, ?_⟩
    · have hfits := h.fits l series n
      rw [hleaves.log, watched_snoc]
      by_cases hsame : sub.listener = l ∧ sub.series = series
      · obtain ⟨rfl, rfl⟩ := hsame
        simp only [Entry.watch, and_self, if_true]
        -- What the listener had to come is let off; what it got it has got.
        have hstill (hwaiting : (watched sub.listener sub.series n s.log).phase ≠ .waiting)
            (hheld : ¬((watched sub.listener sub.series n s.log).phase = .due ∨
              (watched sub.listener sub.series n s.log).phase = .got)) :
            s'.Fits sub.listener sub.series n
              (watched sub.listener sub.series n s.log).phase :=
          hfits.frame hleaves.pushes hleaves.delivery (fun x hx => hleaves.mem_of_mem hx)
            (fun hphase => absurd hphase hwaiting)
            (fun a key ha => (hleaves.label a).trans ha) (fun hphase => absurd hphase hheld)
            (fun _ a i _ hat => hleaves.at_of_at hat)
        cases hphase : (watched sub.listener sub.series n s.log).phase with
        | waiting | due =>
          rw [hphase] at hfits
          exact lt_of_lt_of_eq hfits.1 hleaves.pushes.symm
        | got =>
          rw [hphase] at hfits
          exact hfits.left hreg hsub hlive hleaves
        | _ =>
          rw [hphase] at hstill
          exact hstill (by simp) (by simp)
      · simp only [Entry.watch, hsame, if_false]
        exact hfits.leaves hreg hsub hlive hleaves (fun hphase => hsubscribed (.inl hphase)) hsame
    · rw [hleaves.log]
      exact h.new.snoc trivial
  | clears =>
    refine ⟨hlabelled, h.nodup, fun l series n => ?_, h.new.snoc trivial⟩
    have hfits := h.fits l series n
    have hlog : s.clear.log = s.log ++ [.cleared] := rfl
    rw [hlog, watched_snoc]
    simp only [Entry.watch]
    split
    · rename_i hwaiting
      rw [hwaiting] at hfits
      exact hfits.1
    · rename_i hwaiting
      exact hfits.frame rfl rfl (fun x hx => nomatch hx) (fun hphase => absurd hphase hwaiting)
        (fun _ _ ha => ha) (fun _ _ _ _ hat => hat) (fun _ _ _ _ hat => hat)
  | takes hdelivery => exact (h.take hdelivery).idles (handLatest_idles s.take s.latest)
  | @tells d l' r rest hdelivery hturn =>
    refine ⟨hlabelled, ?_, fun l series n => ?_, h.new.snoc trivial⟩
    · intro d' hd
      obtain rfl := Option.some.inj hd
      have hsublist : rest.Sublist d.rest := by
        cases hturn with
        | again => exact List.Sublist.refl _
        | on _ hrest =>
          rw [hrest]
          exact (List.sublist_cons_self _ _).trans (List.sublist_append_right _ _)
      exact (h.nodup d hdelivery).sublist (hsublist.map Prod.fst)
    · have hlog : (s.tell l' r rest).log = s.log ++ [.delivered l' r.key r.points] := rfl
      rw [hlog, watched_snoc]
      exact (h.fits l series n).tell hreg hdelivery (h.nodup d hdelivery)
        (fun hphase => hsubscribed (.inr hphase)) hturn
  | finishes hdelivery hidle hunheard =>
    refine ⟨hlabelled, (fun d hd => nomatch hd), fun l series n => ?_, h.new.snoc trivial⟩
    have hlog : s.finish.log = s.log ++ [.ended] := rfl
    rw [hlog, watched_snoc]
    exact (h.fits l series n).finish hreg hdelivery hidle hunheard
      fun hphase => hsubscribed (.inr hphase)

theorem after_follows {events : List (Event T V)} (honce : Once (after events).log) :
    (after events).Follows :=
  (after_invariant follows_empty (fun hreg h hstep honce => h.step hreg hstep honce) honce).2

end LiveBuffer

end IotSaas.Charts
