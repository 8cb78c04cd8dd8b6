import IotSaas.Firmware.Publish

/-!
# `Firmware/DigitalIn.lean` — a contact that has settled

`DigitalIn` of `firmware/src/drivers/digital_in.cpp` once it has begun: `poll` takes a sample of the
pin, `read` says what the pin has settled at. A level is HIGH or not, and -1 is `none`.

A sample carries the time it was taken at; the device sees that time modulo 2³².
-/

set_option autoImplicit false

namespace IotSaas.Firmware

/-- The fields of a `DigitalIn`. -/
structure DigitalIn where
  invert : Bool := false
  debounceMs : Nat := 30
  candidate : Option Bool := none
  stable : Option Bool := none
  sinceMs : Int := 0

/-- `DigitalIn::poll`. -/
def DigitalIn.poll (nowMs : Int) (level : Bool) (d : DigitalIn) : DigitalIn :=
  let d := if d.candidate ≠ some level then { d with candidate := some level, sinceMs := nowMs }
    else d
  if (d.debounceMs : Int) ≤ sinceLast nowMs d.sinceMs then { d with stable := d.candidate } else d

/-- `DigitalIn::read`; NAN is `none`. -/
def DigitalIn.read (d : DigitalIn) : Option Nat :=
  match d.stable with
  | none => none
  | some level => if level != d.invert then some 1 else some 0

/-- What a call of `poll` meets. -/
structure Sample where
  ms : Nat
  level : Bool

/-- The calls of `poll`, in order. -/
def DigitalIn.polled (d : DigitalIn) (samples : List Sample) : DigitalIn :=
  samples.foldl (fun d s => d.poll (s.ms % 2 ^ 32) s.level) d

theorem DigitalIn.polled_concat (d : DigitalIn) (samples : List Sample) (s : Sample) :
    d.polled (samples ++ [s]) = (d.polled samples).poll (s.ms % 2 ^ 32) s.level := by
  simp [DigitalIn.polled]

/-! ## One call -/

/-- **What a call does**: a new level starts the clock, one that has been there long enough is
accepted. -/
theorem DigitalIn.poll_spec (nowMs : Int) (level : Bool) (d : DigitalIn) :
    (d.poll nowMs level).invert = d.invert ∧
    (d.poll nowMs level).debounceMs = d.debounceMs ∧
    (d.poll nowMs level).candidate = some level ∧
    (d.poll nowMs level).sinceMs = (if d.candidate = some level then d.sinceMs else nowMs) ∧
    (d.poll nowMs level).stable =
      if (d.debounceMs : Int) ≤ sinceLast nowMs (d.poll nowMs level).sinceMs then some level
      else d.stable := by
  unfold DigitalIn.poll
  by_cases hsame : d.candidate = some level
  · simp only [hsame, ne_eq, not_true_eq_false, if_false, if_true]
    split <;> simp_all
  · simp only [hsame, ne_eq, not_false_eq_true, if_true, if_false]
    split <;> simp_all

/-! ## The samples so far -/

/-- The last samples, up to `last`, are all of this level, and go back at least this far. -/
def Held (debounceMs : Nat) (v : Bool) (samples : List Sample) (last : Sample) : Prop :=
  ∃ before run, samples ++ [last] = before ++ run ∧ (∀ s ∈ run, s.level = v) ∧
    ∃ first ∈ run, first.ms + debounceMs ≤ last.ms

theorem Held.level {debounceMs : Nat} {v : Bool} {samples : List Sample} {last : Sample}
    (h : Held debounceMs v samples last) : last.level = v := by
  obtain ⟨before, run, hsplit, hlevel, first, hfirst, -⟩ := h
  obtain ⟨end', hend⟩ := Option.isSome_iff_exists.mp
    (List.getLast?_isSome.mpr (List.ne_nil_of_mem hfirst))
  have hlast := congrArg List.getLast? hsplit
  rw [List.getLast?_concat, List.getLast?_append, hend, Option.some_or, Option.some.injEq] at hlast
  rw [hlast]
  exact hlevel end' (List.mem_of_getLast? hend)

/-- Samples are taken in time order. -/
def InOrder (samples : List Sample) : Prop := samples.Pairwise fun a b => a.ms ≤ b.ms

/-- The clock does not come round between two samples, the debounce time included. -/
def Close (debounceMs : Nat) (samples : List Sample) : Prop :=
  samples.IsChain fun a b => b.ms + debounceMs ≤ a.ms + 2 ^ 32

/-- How a device stands to its samples. `since` is the time the candidate was first seen. -/
structure Debounces (start : DigitalIn) (samples : List Sample) (since : Nat) (d : DigitalIn) :
    Prop where
  invert : d.invert = start.invert
  debounceMs : d.debounceMs = start.debounceMs
  clock : d.sinceMs = (since : Int) % 2 ^ 32
  fresh : samples = [] → d.candidate = none
  candidate : ∀ last, samples.getLast? = some last → d.candidate = some last.level
  source : samples ≠ [] → ∃ before run, samples = before ++ run ∧
    (∀ s ∈ run, d.candidate = some s.level) ∧ ∃ first ∈ run, first.ms = since
  earliest : ∀ before run, samples = before ++ run → (∀ s ∈ run, d.candidate = some s.level) →
    ∀ s ∈ run, since ≤ s.ms
  settled : Close start.debounceMs samples → ∀ last, samples.getLast? = some last →
    since + start.debounceMs ≤ last.ms → d.stable = d.candidate
  held : d.stable ≠ none → ∃ before last, before ++ [last] <+: samples ∧
    Held start.debounceMs last.level before last

theorem debounces_start (invert : Bool) (debounceMs : Nat) :
    Debounces { invert, debounceMs } [] 0 { invert, debounceMs } := by
  refine ⟨rfl, rfl, rfl, fun _ => rfl, ?_, fun hne => absurd rfl hne, ?_, ?_,
    fun hne => absurd rfl hne⟩
  · intro last hlast
    simp at hlast
  · intro before run heq _ s hs
    simp_all
  · intro _ last hlast
    simp at hlast

section

variable {start d : DigitalIn} {samples : List Sample} {since : Nat} {s : Sample}

/-- When the candidate of the next call was first seen. -/
def sinceNext (d : DigitalIn) (since : Nat) (s : Sample) : Nat :=
  if d.candidate = some s.level then since else s.ms

section

variable (h : Debounces start samples since d)

include h

theorem Debounces.clock_next :
    (d.poll (s.ms % 2 ^ 32) s.level).sinceMs = (sinceNext d since s : Int) % 2 ^ 32 := by
  obtain ⟨-, -, -, hsince, -⟩ := DigitalIn.poll_spec (s.ms % 2 ^ 32) s.level d
  rw [hsince, sinceNext]
  split
  · exact h.clock
  · rfl

/-- The next call's candidate has a run of its level behind it, whose first sample is the one the
clock was started at. -/
theorem Debounces.source_next :
    ∃ before run, samples ++ [s] = before ++ run ∧ (∀ q ∈ run, q.level = s.level) ∧
      ∃ first ∈ run, first.ms = sinceNext d since s := by
  by_cases hsame : d.candidate = some s.level
  · have hne : samples ≠ [] := by
      intro hnil
      rw [h.fresh hnil] at hsame
      nomatch hsame
    obtain ⟨before, run, heq, hlevel, first, hfirst, hms⟩ := h.source hne
    refine ⟨before, run ++ [s], by rw [heq, List.append_assoc], ?_, first,
      List.mem_append_left _ hfirst, by rw [sinceNext, if_pos hsame, hms]⟩
    intro q hq
    rcases List.mem_append.mp hq with hq | hq
    · have hcandidate := hlevel q hq
      rw [hsame, Option.some.injEq] at hcandidate
      exact hcandidate.symm
    · rw [List.mem_singleton.mp hq]
  · refine ⟨samples, [s], rfl, ?_, s, List.mem_singleton_self s,
      by rw [sinceNext, if_neg hsame]⟩
    intro q hq
    rw [List.mem_singleton.mp hq]

section

variable (horder : InOrder (samples ++ [s]))

include horder

theorem Debounces.since_le :
    sinceNext d since s ≤ s.ms := by
  obtain ⟨before, run, heq, -, first, hfirst, hms⟩ := h.source_next (s := s)
  rw [← hms]
  have hmem : first ∈ samples ++ [s] := by
    rw [heq]
    exact List.mem_append_right _ hfirst
  rcases List.mem_append.mp hmem with hmem | hmem
  · exact (List.pairwise_append.mp horder).2.2 first hmem s (List.mem_singleton_self s)
  · rw [List.mem_singleton.mp hmem]

/-- **What is accepted has been held.** -/
theorem Debounces.accepted
    (hlong : (d.debounceMs : Int) ≤
      sinceLast (s.ms % 2 ^ 32) (d.poll (s.ms % 2 ^ 32) s.level).sinceMs) :
    Held start.debounceMs s.level samples s := by
  have hle := h.since_le horder
  rw [h.clock_next, sinceLast_wrapped, h.debounceMs] at hlong
  have hreal := sinceLast_le (show (sinceNext d since s : Int) ≤ s.ms by exact_mod_cast hle)
  obtain ⟨before, run, heq, hlevel, first, hfirst, hms⟩ := h.source_next (s := s)
  exact ⟨before, run, heq, hlevel, first, hfirst, by omega⟩

/-- A run of the next call's level goes back no further than the clock does. -/
theorem Debounces.earliest_next {before run : List Sample} (heq : samples ++ [s] = before ++ run)
    (hlevel : ∀ q ∈ run, q.level = s.level) :
    ∀ q ∈ run, sinceNext d since s ≤ q.ms := by
  have hle := h.since_le horder
  rcases List.eq_nil_or_concat run with hnil | ⟨run, last, hrun⟩
  · simp [hnil]
  · rw [List.concat_eq_append] at hrun
    subst hrun
    rw [← List.append_assoc] at heq
    obtain ⟨hsamples, hlast⟩ := List.append_inj' heq rfl
    obtain rfl : s = last := List.singleton_inj.mp hlast
    intro q hq
    rcases List.mem_append.mp hq with hold | hnew
    · by_cases hsame : d.candidate = some s.level
      · rw [sinceNext, if_pos hsame]
        refine h.earliest before run hsamples (fun q' hq' => ?_) q hold
        rw [hsame, hlevel q' (List.mem_append_left _ hq')]
      · -- the sample before was of another level, so the run has none before `s`
        obtain ⟨last, hlast⟩ := Option.isSome_iff_exists.mp
          (List.getLast?_isSome.mpr (List.ne_nil_of_mem hold))
        have hend : samples.getLast? = some last := by
          rw [hsamples, List.getLast?_append, hlast]
          rfl
        have hlevel' := hlevel last (List.mem_append_left _ (List.mem_of_getLast? hlast))
        exact absurd (hlevel' ▸ h.candidate last hend) hsame
    · rw [List.mem_singleton.mp hnew]
      exact hle

/-- The gap before a sample that still counts from an earlier one. -/
theorem Debounces.settled_next (hclose : Close start.debounceMs (samples ++ [s]))
    (hlong : sinceNext d since s + start.debounceMs ≤ s.ms) :
    (d.poll (s.ms % 2 ^ 32) s.level).stable = some s.level := by
  have hle := h.since_le horder
  obtain ⟨-, -, -, -, hstable⟩ := DigitalIn.poll_spec (s.ms % 2 ^ 32) s.level d
  rw [hstable, h.clock_next, sinceLast_wrapped, h.debounceMs]
  have hint : (sinceNext d since s : Int) ≤ s.ms := by exact_mod_cast hle
  by_cases hsame : d.candidate = some s.level
  · have hsince : sinceNext d since s = since := by rw [sinceNext, if_pos hsame]
    have hne : samples ≠ [] := by
      intro hnil
      rw [h.fresh hnil] at hsame
      nomatch hsame
    obtain ⟨last, hlast⟩ := Option.isSome_iff_exists.mp (List.getLast?_isSome.mpr hne)
    have hgap : s.ms + start.debounceMs ≤ last.ms + 2 ^ 32 := by
      unfold Close at hclose
      rw [List.isChain_append] at hclose
      exact hclose.2.2 last hlast s rfl
    by_cases hdone : since + start.debounceMs ≤ last.ms
    · -- accepted before, and nothing else since
      have hclose' : Close start.debounceMs samples := (List.isChain_append.mp hclose).1
      rw [h.settled hclose' last hlast hdone, hsame, ite_self]
    · rw [if_pos]
      rw [sinceLast_eq hint (by omega)]
      omega
  · have hsince : sinceNext d since s = s.ms := by rw [sinceNext, if_neg hsame]
    rw [if_pos]
    rw [hsince, sinceLast_eq le_rfl (by omega)]
    omega

theorem Debounces.poll :
    Debounces start (samples ++ [s]) (sinceNext d since s) (d.poll (s.ms % 2 ^ 32) s.level) := by
  obtain ⟨hinvert, hdebounce, hcandidate, -, hstable⟩ :=
    DigitalIn.poll_spec (s.ms % 2 ^ 32) s.level d
  refine ⟨hinvert.trans h.invert, hdebounce.trans h.debounceMs, h.clock_next, ?_, ?_, ?_, ?_, ?_,
    ?_⟩
  · intro hnil
    simp at hnil
  · intro last hlast
    rw [List.getLast?_concat, Option.some.injEq] at hlast
    rw [hcandidate, hlast]
  · intro _
    obtain ⟨before, run, heq, hlevel, hfirst⟩ := h.source_next (s := s)
    refine ⟨before, run, heq, ?_, hfirst⟩
    intro q hq
    rw [hcandidate, hlevel q hq]
  · intro before run heq hlevel
    apply h.earliest_next horder heq
    intro q hq
    have hq' := hlevel q hq
    rw [hcandidate, Option.some.injEq] at hq'
    exact hq'.symm
  · intro hclose last hlast hlong
    rw [List.getLast?_concat, Option.some.injEq] at hlast
    subst hlast
    rw [h.settled_next horder hclose hlong, hcandidate]
  · intro hne
    rw [hstable] at hne
    split at hne
    · rename_i hlong
      exact ⟨samples, s, List.prefix_refl _, h.accepted horder hlong⟩
    · obtain ⟨before, last, hprefix, hheld⟩ := h.held hne
      exact ⟨before, last, hprefix.trans (List.prefix_append _ _), hheld⟩

end

end

/-- **A whole run.** -/
theorem polled_debounces (start : DigitalIn) (hstart : Debounces start [] 0 start)
    (samples : List Sample) (horder : InOrder samples) :
    ∃ since, Debounces start samples since (start.polled samples) := by
  induction samples using List.reverseRecOn with
  | nil => exact ⟨0, hstart⟩
  | append_singleton samples s ih =>
    obtain ⟨since, h⟩ := ih (List.pairwise_append.mp horder).1
    rw [DigitalIn.polled_concat]
    exact ⟨_, h.poll horder⟩

/-- What a level is reported as. -/
theorem DigitalIn.read_eq {v : Bool} (hstable : d.stable = some v) :
    d.read = some (if v != d.invert then 1 else 0) := by
  simp only [DigitalIn.read, hstable]
  split <;> rfl

end

/-! ## Whole runs -/

/-- **Only held levels are reported**, and a held level is, as long as the gaps between samples and
the debounce time fit into the clock together. -/
theorem held_levels_reported (invert : Bool) (debounceMs : Nat) (samples : List Sample)
    (horder : InOrder samples) :
    let start : DigitalIn := { invert, debounceMs }
    (∀ before s, samples = before ++ [s] →
      (start.polled samples).stable ≠ (start.polled before).stable →
        (start.polled samples).stable = some s.level ∧ Held debounceMs s.level before s ∧
          ∀ q ∈ samples, s.ms < q.ms + debounceMs → q.level = s.level) ∧
    ((∀ before s, before ++ [s] <+: samples → ¬ Held debounceMs s.level before s) →
      (start.polled samples).read = none) ∧
    (Close debounceMs samples → ∀ before s v, samples = before ++ [s] → Held debounceMs v before s →
      (start.polled samples).read = some (if v != invert then 1 else 0)) := by
  intro start
  have hstart := debounces_start invert debounceMs
  obtain ⟨since, h⟩ := polled_debounces start hstart samples horder
  refine ⟨?_, ?_, ?_⟩
  · intro before s heq hchange
    subst heq
    obtain ⟨sinceBefore, hbefore⟩ :=
      polled_debounces start hstart before (List.pairwise_append.mp horder).1
    rw [DigitalIn.polled_concat] at hchange ⊢
    obtain ⟨-, -, -, -, hstable⟩ :=
      DigitalIn.poll_spec (s.ms % 2 ^ 32) s.level (start.polled before)
    rw [hstable] at hchange ⊢
    by_cases hlong : ((start.polled before).debounceMs : Int) ≤ sinceLast (s.ms % 2 ^ 32)
        ((start.polled before).poll (s.ms % 2 ^ 32) s.level).sinceMs
    · have hheld := hbefore.accepted horder hlong
      refine ⟨if_pos hlong, hheld, ?_⟩
      intro q hq hrecent
      obtain ⟨earlier, run, hsplit, hlevel, first, hfirst, hms⟩ := hheld
      rw [hsplit] at hq horder
      rcases List.mem_append.mp hq with hq | hq
      · -- before the run, so not later than its first sample
        have hle := (List.pairwise_append.mp horder).2.2 q hq first hfirst
        have hdebounce : start.debounceMs = debounceMs := rfl
        omega
      · exact hlevel q hq
    · rw [if_neg hlong] at hchange
      exact absurd rfl hchange
  · intro hnever
    cases hstable : (start.polled samples).stable with
    | none => simp [DigitalIn.read, hstable]
    | some v =>
      obtain ⟨before, s, hprefix, hheld⟩ := h.held (by simp [hstable])
      exact absurd hheld (hnever before s hprefix)
  · intro hclose before s v heq hheld
    obtain rfl := hheld.level
    obtain ⟨earlier, run, hsplit, hlevel, first, hfirst, hms⟩ := hheld
    have hlast : samples.getLast? = some s := by rw [heq, List.getLast?_concat]
    have hcandidate := h.candidate s hlast
    have hfirst' : since ≤ first.ms := by
      apply h.earliest earlier run (heq.trans hsplit) ?_ first hfirst
      intro q hq
      rw [hcandidate, hlevel q hq]
    have hstable := h.settled hclose s hlast
      (show since + start.debounceMs ≤ s.ms from (Nat.add_le_add_right hfirst' _).trans hms)
    rw [hcandidate] at hstable
    rw [DigitalIn.read_eq hstable, h.invert]

/-- A level that is there for as long as asked. -/
theorem held_levels_reported_once :
    InOrder [⟨0, true⟩, ⟨30, true⟩] ∧ Close 30 [⟨0, true⟩, ⟨30, true⟩] ∧
      (({ } : DigitalIn).polled [⟨0, true⟩, ⟨30, true⟩]).read = some 1 := by
  have horder : InOrder [⟨0, true⟩, ⟨30, true⟩] := by simp [InOrder]
  have hclose : Close 30 [⟨0, true⟩, ⟨30, true⟩] := by simp [Close]
  have hheld : Held 30 true [⟨0, true⟩] ⟨30, true⟩ := ⟨[], _, rfl, by simp, ⟨0, true⟩, by simp⟩
  exact ⟨horder, hclose,
    (held_levels_reported false 30 _ horder).2.2 hclose [⟨0, true⟩] ⟨30, true⟩ true rfl hheld⟩

/-- **A gap close to 2³² ms** looks like a short one: the level was there all along and is not
reported. -/
theorem held_around_the_clock :
    ¬ ∀ (debounceMs : Nat) (before : List Sample) (s : Sample) (v : Bool), debounceMs ≤ 1000 →
      InOrder (before ++ [s]) → (before ++ [s]).IsChain (fun a b => b.ms < a.ms + 2 ^ 32) →
        Held debounceMs v before s →
          (({ debounceMs } : DigitalIn).polled (before ++ [s])).read = some (if v then 1 else 0) := by
  intro h
  have hheld : Held 30 true [⟨0, true⟩, ⟨20, true⟩] ⟨2 ^ 32 + 15, true⟩ :=
    ⟨[], _, rfl, by simp, ⟨0, true⟩, by simp⟩
  have hread := h 30 [⟨0, true⟩, ⟨20, true⟩] ⟨2 ^ 32 + 15, true⟩ true (by decide)
    (by simp [InOrder]) (by simp) hheld
  revert hread
  decide

end IotSaas.Firmware
