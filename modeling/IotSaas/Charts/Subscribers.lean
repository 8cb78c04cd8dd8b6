import IotSaas.Charts.LiveBuffer

/-!
# `Charts/Subscribers.lean` — the sets of listeners are who has subscribed

`LiveBuffer` drops a set when its last listener leaves, and makes a new one for the next who comes,
while a function it returned earlier still holds the old set. As long as nobody leaves twice, a
listener that has not left is in the set that is in use for its series, so no other set is ever
changed (`after_registered`).
-/

set_option autoImplicit false

namespace IotSaas.Charts

open Lib

/-! ## What a log says of subscriptions -/

section

variable {T V : Type*}

/-- Whether a listener is subscribed to a series after an entry. -/
def Entry.listens (listener : Nat) (series : SeriesId) (before : Bool) : Entry T V → Bool
  | .subscribed l s => before || decide (l = listener ∧ s = series)
  | .unsubscribed l s => before && !decide (l = listener ∧ s = series)
  | _ => before

/-- Whether a listener is subscribed to a series after a log. -/
def subscribed (listener : Nat) (series : SeriesId) (log : List (Entry T V)) : Bool :=
  log.foldl (Entry.listens listener series) false

@[simp] theorem subscribed_snoc (listener : Nat) (series : SeriesId) (log : List (Entry T V))
    (e : Entry T V) : subscribed listener series (log ++ [e]) =
      e.listens listener series (subscribed listener series log) := by
  simp [subscribed]

/-- Whose subscription an entry ends. -/
def Entry.unsubscription : Entry T V → Option (Nat × SeriesId)
  | .unsubscribed listener series => some (listener, series)
  | _ => none

/-- Who has unsubscribed from what. -/
def unsubscriptions (log : List (Entry T V)) : List (Nat × SeriesId) :=
  log.filterMap Entry.unsubscription

/-- No listener has unsubscribed from a series twice. -/
def Once (log : List (Entry T V)) : Prop := (unsubscriptions log).Nodup

instance (log : List (Entry T V)) : Decidable (Once log) :=
  inferInstanceAs (Decidable (unsubscriptions log).Nodup)

theorem Once.of_append {log more : List (Entry T V)} (h : Once (log ++ more)) : Once log := by
  unfold Once unsubscriptions at *
  rw [List.filterMap_append] at h
  exact h.of_append_left

theorem Once.fresh {log : List (Entry T V)} {listener : Nat} {series : SeriesId}
    (h : Once (log ++ [.unsubscribed listener series])) :
    .unsubscribed listener series ∉ log := by
  intro hmem
  unfold Once unsubscriptions at h
  rw [List.filterMap_append] at h
  have hold : (listener, series) ∈ log.filterMap Entry.unsubscription :=
    List.mem_filterMap.mpr ⟨_, hmem, rfl⟩
  exact (List.nodup_append.mp h).2.2 _ hold (listener, series) (by simp [Entry.unsubscription]) rfl

/-- An entry that is not about subscriptions. -/
def Entry.Apart : Entry T V → Prop
  | .subscribed .. => False
  | .unsubscribed .. => False
  | _ => True

theorem subscribed_append {log more : List (Entry T V)} (h : ∀ e ∈ more, e.Apart) (listener : Nat)
    (series : SeriesId) :
    subscribed listener series (log ++ more) = subscribed listener series log := by
  unfold subscribed
  rw [List.foldl_append]
  induction more with
  | nil => rfl
  | cons e more ih =>
    have hapart := h e List.mem_cons_self
    have hsame : e.listens listener series (log.foldl (Entry.listens listener series) false) =
        log.foldl (Entry.listens listener series) false := by
      cases e <;> simp_all [Entry.Apart, Entry.listens]
    rw [List.foldl_cons, hsame]
    exact ih fun e' he' => h e' (List.mem_cons_of_mem _ he')

end

/-- Two series have two keys: NUL ends the id of the device. -/
theorem seriesKey_inj {a b : SeriesId} (h : seriesKey a = seriesKey b) : a = b := by
  obtain ⟨⟨device, hdevice⟩, metric⟩ := a
  obtain ⟨⟨device', hdevice'⟩, metric'⟩ := b
  have hlists : device.toList ++ '\x00' :: metric.toList =
      device'.toList ++ '\x00' :: metric'.toList := by
    have h' := congrArg String.toList h
    simpa [seriesKey, String.toList_append] using h'
  have hcut : ∀ {xs ys xs' ys' : List Char}, '\x00' ∉ xs → '\x00' ∉ xs' →
      xs ++ '\x00' :: ys = xs' ++ '\x00' :: ys' → xs = xs' ∧ ys = ys' := by
    intro xs
    induction xs with
    | nil =>
      intro ys xs' ys' _ hxs' heq
      cases xs' with
      | nil => exact ⟨rfl, by simpa using heq⟩
      | cons c xs' =>
        rw [List.nil_append, List.cons_append, List.cons.injEq] at heq
        exact absurd (heq.1 ▸ List.mem_cons_self) hxs'
    | cons c xs ih =>
      intro ys xs' ys' hxs hxs' heq
      cases xs' with
      | nil =>
        rw [List.nil_append, List.cons_append, List.cons.injEq] at heq
        exact absurd (heq.1 ▸ List.mem_cons_self) hxs
      | cons c' xs' =>
        rw [List.cons_append, List.cons_append, List.cons.injEq] at heq
        obtain ⟨hrest, hys⟩ := ih (fun hm => hxs (List.mem_cons_of_mem _ hm))
          (fun hm => hxs' (List.mem_cons_of_mem _ hm)) heq.2
        exact ⟨by rw [heq.1, hrest], hys⟩
  obtain ⟨hd, hm⟩ := hcut hdevice hdevice' hlists
  obtain rfl := String.toList_inj.mp hd
  obtain rfl := String.toList_inj.mp hm
  rfl

namespace LiveBuffer

variable {T V : Type*} [LinearOrder T]

/-! ## Sets -/

section

omit [LinearOrder T]

/-- The key a set was made for. -/
def label (s : LiveBuffer T V) (set : Nat) : Option String := s.sets[set]?.map Prod.fst

variable {s : LiveBuffer T V} {set set' : Nat} {key : String} {change : JsSet Nat → JsSet Nat}

@[simp] theorem note_series (e : Entry T V) : (note e s).series = s.series := rfl
@[simp] theorem note_listeners (e : Entry T V) : (note e s).listeners = s.listeners := rfl
@[simp] theorem note_sets (e : Entry T V) : (note e s).sets = s.sets := rfl
@[simp] theorem note_subscriptions (e : Entry T V) :
    (note e s).subscriptions = s.subscriptions := rfl
@[simp] theorem note_delivery (e : Entry T V) : (note e s).delivery = s.delivery := rfl
@[simp] theorem note_pushes (e : Entry T V) : (note e s).pushes = s.pushes := rfl
@[simp] theorem note_latest (e : Entry T V) : (note e s).latest = s.latest := rfl
@[simp] theorem note_log (e : Entry T V) : (note e s).log = s.log ++ [e] := rfl

theorem label_changeSet : (s.changeSet set change).label set' = s.label set' := by
  simp only [label, changeSet, List.getElem?_modify]
  cases s.sets[set']? with
  | none => rfl
  | some labelled => by_cases h : set = set' <;> simp [h]

theorem setAt_changeSet_self (h : s.label set = some key) :
    (s.changeSet set change).setAt set = change (s.setAt set) := by
  obtain ⟨labelled, hget, rfl⟩ := Option.map_eq_some_iff.mp h
  simp [setAt, changeSet, hget]

theorem setAt_changeSet_ne (h : set' ≠ set) :
    (s.changeSet set change).setAt set' = s.setAt set' := by
  simp only [setAt, changeSet, List.getElem?_modify]
  cases s.sets[set']? with
  | none => rfl
  | some labelled => simp [Ne.symm h]

/-- Nobody stands in a set that was not made. -/
theorem label_of_at {i l : Nat} (h : (s.setAt set).At i l) : ∃ key, s.label set = some key := by
  cases hget : s.sets[set]? with
  | none =>
    rw [setAt, hget] at h
    exact absurd h (JsSet.not_at_empty i l)
  | some labelled => exact ⟨labelled.1, by rw [label, hget]; rfl⟩

/-- The set a key has, found or made. -/
structure Found (s : LiveBuffer T V) (key : String) (found : Nat × LiveBuffer T V) : Prop where
  get : found.2.listeners.get key = some found.1
  others : ∀ k, k ≠ key → found.2.listeners.get k = s.listeners.get k
  kept : ∀ set, s.listeners.get key = some set → found.1 = set
  made : s.listeners.get key = none → s.label found.1 = none
  label : found.2.label found.1 = some key
  label_ne : ∀ set, set ≠ found.1 → found.2.label set = s.label set
  setAt : ∀ set, found.2.setAt set = s.setAt set
  rest : found.2.series = s.series ∧ found.2.subscriptions = s.subscriptions ∧
    found.2.delivery = s.delivery ∧ found.2.pushes = s.pushes ∧ found.2.log = s.log ∧
    found.2.latest = s.latest ∧ found.2.scheduled = s.scheduled

theorem found_findSet (hlabel : ∀ set, s.listeners.get key = some set → s.label set = some key) :
    s.Found key (s.findSet key) := by
  unfold findSet
  cases hget : s.listeners.get key with
  | some set =>
    exact
      { get := hget
        others := fun _ _ => rfl
        kept := fun set' h => Option.some.inj (hget.symm.trans h)
        made := fun h => by rw [hget] at h; cases h
        label := hlabel set hget
        label_ne := fun _ _ => rfl
        setAt := fun _ => rfl
        rest := ⟨rfl, rfl, rfl, rfl, rfl, rfl, rfl⟩ }
  | none =>
    refine
      { get := JsMap.get_set_self _ _ _
        others := fun k hk => JsMap.get_set_ne _ _ hk
        kept := fun set h => by rw [hget] at h; cases h
        made := fun _ => by simp [LiveBuffer.label]
        label := by simp [LiveBuffer.label]
        label_ne := ?_
        setAt := ?_
        rest := ⟨rfl, rfl, rfl, rfl, rfl, rfl, rfl⟩ }
    · intro set hne
      rcases Nat.lt_or_ge set s.sets.length with hlt | hge
      · simp only [LiveBuffer.label, List.getElem?_append_left hlt]
      · have hnew : s.sets.length ≠ set := Ne.symm hne
        have hold : s.sets[set]? = none := List.getElem?_eq_none hge
        have hgrown : (s.sets ++ [(key, JsSet.empty)])[set]? = none := by
          apply List.getElem?_eq_none
          rw [List.length_append, List.length_singleton]
          exact Nat.lt_of_le_of_ne hge hnew
        simp only [LiveBuffer.label, hold, hgrown]
    · intro set
      rcases Nat.lt_trichotomy set s.sets.length with hlt | heq | hgt
      · simp only [LiveBuffer.setAt, List.getElem?_append_left hlt]
      · simp [LiveBuffer.setAt, heq]
      · have hold : s.sets[set]? = none := List.getElem?_eq_none hgt.le
        have hnew : (s.sets ++ [(key, (.empty : JsSet Nat))])[set]? = none := by
          apply List.getElem?_eq_none
          rw [List.length_append, List.length_singleton]
          exact hgt
        simp only [LiveBuffer.setAt, hold, hnew]

end

/-! ## The invariant -/

/-- The listeners of the buffer are those its log speaks of. -/
structure Registered (s : LiveBuffer T V) : Prop where
  label_of_get : ∀ {key set}, s.listeners.get key = some set → s.label set = some key
  get_of_at : ∀ {key set i l}, s.label set = some key → (s.setAt set).At i l →
    s.listeners.get key = some set
  label_of_subscription : ∀ {sub}, sub ∈ s.subscriptions →
    s.label sub.set = some (seriesKey sub.series)
  live : ∀ {sub : Subscription}, sub ∈ s.subscriptions →
    .unsubscribed sub.listener sub.series ∉ s.log → ∃ i, (s.setAt sub.set).At i sub.listener
  subscribed_iff : ∀ l series, subscribed l series s.log = true ↔
    ∃ set i, s.label set = some (seriesKey series) ∧ (s.setAt set).At i l

omit [LinearOrder T] in
theorem registered_empty : ({} : LiveBuffer T V).Registered where
  label_of_get h := by cases h
  get_of_at h := by simp [label] at h
  label_of_subscription h := by simp at h
  live h := by simp at h
  subscribed_iff l series := by simp [subscribed, label]

/-- An operation that leaves the sets alone. -/
structure LeavesSets (s s' : LiveBuffer T V) : Prop where
  listeners : s'.listeners = s.listeners
  sets : s'.sets = s.sets
  subscriptions : s'.subscriptions = s.subscriptions
  log : ∃ more, (∀ e ∈ more, e.Apart) ∧ s'.log = s.log ++ more

variable {s s' : LiveBuffer T V}

omit [LinearOrder T] in
theorem LeavesSets.setAt (h : LeavesSets s s') (set : Nat) :
    s'.setAt set = s.setAt set := by
  rw [LiveBuffer.setAt, h.sets, LiveBuffer.setAt]

omit [LinearOrder T] in
theorem LeavesSets.label (h : LeavesSets s s') (set : Nat) :
    s'.label set = s.label set := by
  rw [LiveBuffer.label, h.sets, LiveBuffer.label]

omit [LinearOrder T] in
theorem LeavesSets.subscribed (h : LeavesSets s s') (l : Nat) (series : SeriesId) :
    subscribed l series s'.log = subscribed l series s.log := by
  obtain ⟨more, hmore, hlog⟩ := h.log
  rw [hlog, subscribed_append hmore]

omit [LinearOrder T] in
theorem Registered.leavesSets (hreg : s.Registered) (h : LeavesSets s s') :
    s'.Registered where
  label_of_get hget := by
    rw [h.label]
    exact hreg.label_of_get (h.listeners ▸ hget)
  get_of_at hlabel hat := by
    rw [h.label] at hlabel
    rw [h.setAt] at hat
    rw [h.listeners]
    exact hreg.get_of_at hlabel hat
  label_of_subscription hsub := by
    rw [h.label]
    exact hreg.label_of_subscription (h.subscriptions ▸ hsub)
  live hsub hnot := by
    obtain ⟨more, -, hlog⟩ := h.log
    rw [h.setAt]
    apply hreg.live (h.subscriptions ▸ hsub)
    intro hmem
    exact hnot (hlog ▸ List.mem_append_left _ hmem)
  subscribed_iff l series := by
    rw [h.subscribed, hreg.subscribed_iff]
    simp only [h.label, h.setAt]

/-! ## Subscribing -/

/-- What `subscribeSeries` does to a buffer: `set` is that of the series. -/
structure Joins (s s' : LiveBuffer T V) (series : SeriesId) (l set : Nat) : Prop where
  get : s'.listeners.get (seriesKey series) = some set
  get_ne : ∀ key, key ≠ seriesKey series → s'.listeners.get key = s.listeners.get key
  found : s.listeners.get (seriesKey series) = some set ∨
    s.listeners.get (seriesKey series) = none ∧ s.label set = none
  label : s'.label set = some (seriesKey series)
  label_ne : ∀ a, a ≠ set → s'.label a = s.label a
  setAt : s'.setAt set = (s.setAt set).add l
  setAt_ne : ∀ a, a ≠ set → s'.setAt a = s.setAt a
  subscriptions : s'.subscriptions = s.subscriptions ++ [⟨set, series, l⟩]
  log : s'.log = s.log ++ [.subscribed l series]
  series : s'.series = s.series
  delivery : s'.delivery = s.delivery
  pushes : s'.pushes = s.pushes
  latest : s'.latest = s.latest

omit [LinearOrder T] in
theorem Registered.joins {s : LiveBuffer T V} (hreg : s.Registered) (series : SeriesId) (l : Nat) :
    ∃ set, Joins s (s.subscribeSeries series l) series l set := by
  have hfound : s.Found (seriesKey series) (s.findSet (seriesKey series)) :=
    found_findSet fun set h => hreg.label_of_get h
  obtain ⟨hseries, hsubscriptions, hdelivery, hpushes, hlog, hlatest, -⟩ := hfound.rest
  let s₁ := (s.findSet (seriesKey series)).2
  let set := (s.findSet (seriesKey series)).1
  have hlabel (a : Nat) :
      (s₁.changeSet set fun listeners => listeners.add l).label a = s₁.label a := label_changeSet
  have hself : (s₁.changeSet set fun listeners => listeners.add l).setAt set =
      (s₁.setAt set).add l := setAt_changeSet_self hfound.label
  have hother (a : Nat) (ha : a ≠ set) :
      (s₁.changeSet set fun listeners => listeners.add l).setAt a = s₁.setAt a :=
    setAt_changeSet_ne ha
  refine ⟨set,
    { get := hfound.get
      get_ne := hfound.others
      found := ?_
      label := (hlabel set).trans hfound.label
      label_ne := fun a ha => (hlabel a).trans (hfound.label_ne a ha)
      setAt := hself.trans (by rw [hfound.setAt])
      setAt_ne := fun a ha => (hother a ha).trans (hfound.setAt a)
      subscriptions := by simp [subscribeSeries, changeSet, hsubscriptions, set]
      log := by simp [subscribeSeries, changeSet, hlog]
      series := by simp [subscribeSeries, changeSet, hseries]
      delivery := by simp [subscribeSeries, changeSet, hdelivery]
      pushes := by simp [subscribeSeries, changeSet, hpushes]
      latest := by simp [subscribeSeries, changeSet, hlatest] }⟩
  cases hget : s.listeners.get (seriesKey series) with
  | none => exact .inr ⟨rfl, hfound.made hget⟩
  | some old => exact .inl (congrArg some (hfound.kept old hget).symm)

section

omit [LinearOrder T]

variable {s s' : LiveBuffer T V} {series : SeriesId} {l set : Nat}

/-- A label that is given stays. -/
theorem Joins.label_mono (h : Joins s s' series l set) (hreg : s.Registered) {a : Nat}
    {key : String} (ha : s.label a = some key) : s'.label a = some key := by
  by_cases hset : a = set
  · subst hset
    rcases h.found with hget | ⟨-, hnone⟩
    · rw [h.label, ← hreg.label_of_get hget, ha]
    · rw [hnone] at ha
      cases ha
  · rw [h.label_ne a hset, ha]

/-- Who is in a set stays in it, where it stands. -/
theorem Joins.at_mono (h : Joins s s' series l set) {a i g : Nat} (hat : (s.setAt a).At i g) :
    (s'.setAt a).At i g := by
  by_cases hset : a = set
  · rw [hset, h.setAt]
    exact JsSet.At.add (hset ▸ hat) l
  · rwa [h.setAt_ne a hset]

/-- Nobody else comes. -/
theorem Joins.at_of_at (h : Joins s s' series l set) {a i g : Nat} (hat : (s'.setAt a).At i g)
    (hne : a ≠ set ∨ g ≠ l) : (s.setAt a).At i g := by
  by_cases hset : a = set
  · rw [hset, h.setAt] at hat
    rw [hset]
    exact (JsSet.at_add_of_ne (hne.resolve_left fun hn => hn hset)).mp hat
  · rwa [h.setAt_ne a hset] at hat

theorem Registered.joined (hreg : s.Registered) (h : Joins s s' series l set) : s'.Registered where
  label_of_get {key a} hget := by
    by_cases hkey : key = seriesKey series
    · subst hkey
      rw [h.get] at hget
      exact Option.some.inj hget ▸ h.label
    · rw [h.get_ne key hkey] at hget
      exact h.label_mono hreg (hreg.label_of_get hget)
  get_of_at {key a i g} hlabel hat := by
    by_cases hset : a = set
    · subst hset
      rw [h.label] at hlabel
      exact Option.some.inj hlabel ▸ h.get
    · rw [h.label_ne a hset] at hlabel
      have hget := hreg.get_of_at hlabel (h.at_of_at hat (.inl hset))
      rw [h.get_ne, hget]
      intro hkey
      subst hkey
      -- Under the joined key stands the joined set or nothing, so another set has another key.
      rcases h.found with hget' | ⟨hnone, -⟩
      · exact hset (Option.some.inj (hget.symm.trans hget'))
      · rw [hnone] at hget
        cases hget
  label_of_subscription {sub} hsub := by
    rw [h.subscriptions, List.mem_append, List.mem_singleton] at hsub
    rcases hsub with hsub | rfl
    · exact h.label_mono hreg (hreg.label_of_subscription hsub)
    · exact h.label
  live {sub} hsub hnot := by
    rw [h.subscriptions, List.mem_append, List.mem_singleton] at hsub
    rcases hsub with hsub | rfl
    · obtain ⟨i, hat⟩ := hreg.live hsub fun hmem => hnot (h.log ▸ List.mem_append_left _ hmem)
      exact ⟨i, h.at_mono hat⟩
    · obtain ⟨i, hat⟩ := JsSet.mem_add (s.setAt set) l
      exact ⟨i, h.setAt ▸ hat⟩
  subscribed_iff g other := by
    rw [h.log, subscribed_snoc, Entry.listens, Bool.or_eq_true, decide_eq_true_eq,
      hreg.subscribed_iff]
    constructor
    · intro hsub
      rcases hsub with ⟨a, i, hlabel, hat⟩ | ⟨rfl, rfl⟩
      · exact ⟨a, i, h.label_mono hreg hlabel, h.at_mono hat⟩
      · obtain ⟨i, hat⟩ := JsSet.mem_add (s.setAt set) l
        exact ⟨set, i, h.label, h.setAt ▸ hat⟩
    · intro ⟨a, i, hlabel, hat⟩
      by_cases hset : a = set
      · subst hset
        rw [h.label, Option.some.injEq] at hlabel
        have hseries := seriesKey_inj hlabel
        by_cases hg : g = l
        · exact .inr ⟨hg.symm, hseries⟩
        · have hold := h.at_of_at hat (.inr hg)
          obtain ⟨key, hkey⟩ := label_of_at hold
          have hsame := h.label_mono hreg hkey
          rw [h.label, hlabel] at hsame
          exact .inl ⟨a, i, hkey.trans hsame.symm, hold⟩
      · rw [h.label_ne a hset] at hlabel
        exact .inl ⟨a, i, hlabel, h.at_of_at hat (.inl hset)⟩

end

/-! ## Unsubscribing -/

/-- What unsubscribing does to a buffer. -/
structure Leaves (s s' : LiveBuffer T V) (sub : Subscription) : Prop where
  label : ∀ a, s'.label a = s.label a
  setAt : s'.setAt sub.set = (s.setAt sub.set).delete sub.listener
  setAt_ne : ∀ a, a ≠ sub.set → s'.setAt a = s.setAt a
  kept_or_dropped : s'.listeners = s.listeners ∧ s'.series = s.series ∨
    s'.listeners = s.listeners.erase (seriesKey sub.series) ∧
      s'.series = s.series.erase (seriesKey sub.series) ∧ ∀ i g, ¬(s'.setAt sub.set).At i g
  subscriptions : s'.subscriptions = s.subscriptions
  log : s'.log = s.log ++ [.unsubscribed sub.listener sub.series]
  delivery : s'.delivery = s.delivery
  pushes : s'.pushes = s.pushes
  latest : s'.latest = s.latest

section

omit [LinearOrder T]

variable {s s' : LiveBuffer T V} {sub : Subscription}

theorem Registered.leaves (hreg : s.Registered) (hsub : sub ∈ s.subscriptions) :
    Leaves s (s.unsubscribe sub) sub := by
  have hlabel (a : Nat) : (s.changeSet sub.set fun listeners =>
      listeners.delete sub.listener).label a = s.label a := label_changeSet
  have hself : (s.changeSet sub.set fun listeners => listeners.delete sub.listener).setAt sub.set =
      (s.setAt sub.set).delete sub.listener :=
    setAt_changeSet_self (hreg.label_of_subscription hsub)
  have hother (a : Nat) (ha : a ≠ sub.set) : (s.changeSet sub.set fun listeners =>
      listeners.delete sub.listener).setAt a = s.setAt a := setAt_changeSet_ne ha
  unfold unsubscribe
  dsimp only
  split
  · rename_i hsize
    exact
      { label := hlabel
        setAt := hself
        setAt_ne := hother
        kept_or_dropped := .inr ⟨rfl, rfl, JsSet.size_eq_zero_iff.mp hsize⟩
        subscriptions := rfl
        log := rfl
        delivery := rfl
        pushes := rfl
        latest := rfl }
  · exact
      { label := hlabel
        setAt := hself
        setAt_ne := hother
        kept_or_dropped := .inl ⟨rfl, rfl⟩
        subscriptions := rfl
        log := rfl
        delivery := rfl
        pushes := rfl
        latest := rfl }

/-- Nobody comes. -/
theorem Leaves.at_of_at (h : Leaves s s' sub) {a i g : Nat} (hat : (s'.setAt a).At i g) :
    (s.setAt a).At i g := by
  by_cases hset : a = sub.set
  · subst hset
    rw [h.setAt] at hat
    exact (JsSet.at_delete.mp hat).1
  · rwa [h.setAt_ne a hset] at hat

/-- Nobody else leaves. -/
theorem Leaves.at_mono (h : Leaves s s' sub) {a i g : Nat} (hat : (s.setAt a).At i g)
    (hne : a ≠ sub.set ∨ g ≠ sub.listener) : (s'.setAt a).At i g := by
  by_cases hset : a = sub.set
  · subst hset
    rw [h.setAt]
    exact JsSet.at_delete.mpr ⟨hat, hne.resolve_left fun hn => hn rfl⟩
  · rwa [h.setAt_ne a hset]

/-- The series keeps its set while somebody is in it. -/
theorem Leaves.get_of_at (h : Leaves s s' sub) {key : String} {a i g : Nat}
    (hget : s.listeners.get key = some a) (hat : (s'.setAt a).At i g)
    (hlive : s.listeners.get (seriesKey sub.series) = some sub.set) :
    s'.listeners.get key = some a ∧ s'.series.get key = s.series.get key := by
  rcases h.kept_or_dropped with ⟨hl, hs⟩ | ⟨hl, hs, hempty⟩
  · exact ⟨hl ▸ hget, by rw [hs]⟩
  · have hkey : key ≠ seriesKey sub.series := by
      intro hkey
      rw [hkey, hlive] at hget
      exact hempty i g (Option.some.inj hget ▸ hat)
    rw [hl, hs, JsMap.get_erase, if_neg hkey, JsMap.get_erase, if_neg hkey]
    exact ⟨hget, rfl⟩

/-- A listener that has not left is in the set that is in use. -/
theorem Registered.get_of_live (hreg : s.Registered) (hsub : sub ∈ s.subscriptions)
    (hlive : .unsubscribed sub.listener sub.series ∉ s.log) :
    s.listeners.get (seriesKey sub.series) = some sub.set := by
  obtain ⟨i, hat⟩ := hreg.live hsub hlive
  exact hreg.get_of_at (hreg.label_of_subscription hsub) hat

theorem Registered.left (hreg : s.Registered) (h : Leaves s s' sub) (hsub : sub ∈ s.subscriptions)
    (hlive : .unsubscribed sub.listener sub.series ∉ s.log) : s'.Registered where
  label_of_get {key a} hget := by
    rw [h.label]
    rcases h.kept_or_dropped with ⟨hl, -⟩ | ⟨hl, -⟩
    · exact hreg.label_of_get (hl ▸ hget)
    · rw [hl, JsMap.get_erase] at hget
      split at hget
      · cases hget
      · exact hreg.label_of_get hget
  get_of_at {key a i g} hlabel hat := by
    rw [h.label] at hlabel
    have hget := hreg.get_of_at hlabel (h.at_of_at hat)
    exact (h.get_of_at hget hat (hreg.get_of_live hsub hlive)).1
  label_of_subscription hother := by
    rw [h.label]
    exact hreg.label_of_subscription (h.subscriptions ▸ hother)
  live {other} hother hnot := by
    rw [h.subscriptions] at hother
    rw [h.log, List.mem_append, List.mem_singleton, not_or] at hnot
    obtain ⟨i, hat⟩ := hreg.live hother hnot.1
    refine ⟨i, h.at_mono hat ?_⟩
    by_contra hsame
    rw [not_or, not_not, not_not] at hsame
    -- The same set is of the same series.
    have hlabel := hreg.label_of_subscription hother
    rw [hsame.1, hreg.label_of_subscription hsub, Option.some.injEq] at hlabel
    apply hnot.2
    rw [hsame.2, seriesKey_inj hlabel]
  subscribed_iff g series := by
    rw [h.log, subscribed_snoc, Entry.listens, Bool.and_eq_true, Bool.not_eq_true',
      decide_eq_false_iff_not, hreg.subscribed_iff]
    constructor
    · intro ⟨⟨a, i, hlabel, hat⟩, hne⟩
      refine ⟨a, i, by rw [h.label, hlabel], h.at_mono hat ?_⟩
      by_contra hsame
      rw [not_or, not_not, not_not] at hsame
      rw [hsame.1, hreg.label_of_subscription hsub, Option.some.injEq] at hlabel
      exact hne ⟨hsame.2.symm, seriesKey_inj hlabel⟩
    · intro ⟨a, i, hlabel, hat⟩
      rw [h.label] at hlabel
      have hold := h.at_of_at hat
      refine ⟨⟨a, i, hlabel, hold⟩, ?_⟩
      intro ⟨hg, hseries⟩
      have hget := hreg.get_of_at hlabel hold
      rw [← hseries, hreg.get_of_live hsub hlive, Option.some.injEq] at hget
      subst hget hg
      rw [h.setAt] at hat
      exact (JsSet.at_delete.mp hat).2 rfl

end

end LiveBuffer

end IotSaas.Charts
