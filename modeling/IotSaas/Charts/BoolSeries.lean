import Mathlib.Algebra.Order.Field.Basic
import Mathlib.Data.List.Basic
import Mathlib.Data.List.Pairwise
import Mathlib.Tactic.Linarith

/-!
# `Charts/BoolSeries.lean` — on and off, from averages

`boolBuckets` of `lib/bool-series.ts`, in exact arithmetic. A bucket is a time and an average; what
is drawn is a column of times and one of states, a state being held until the next time. No state
(`null`) breaks the line.

`boolBuckets_draws` says that the line shows what is known at each time up to its end: the state of
the last bucket, if that had one state only or is not over yet. The times ascend, as the chart needs
them (`boolBuckets_ascends`).
-/

set_option autoImplicit false

namespace IotSaas.Charts.BoolSeries

variable {F : Type*} [Field F] [LinearOrder F]

/-- The average is 0 or 1, or beyond. -/
def pure (value : F) : Prop := value ≤ 0 ∨ 1 ≤ value

instance (value : F) : Decidable (pure value) := inferInstanceAs (Decidable (_ ∨ _))

/-- What follows the start of a mixed bucket: On is held up to a millisecond before its end, and
then the line breaks, unless the next bucket has begun. -/
def holdOn (t bucketSec : F) : List (F × F) → List (F × Option Bool)
  | [] => [(t + bucketSec - 1 / 1000, some true)]
  | (next, _) :: _ =>
      if next ≤ t + bucketSec then []
      else [(t + bucketSec - 1 / 1000, some true), (t + bucketSec, none)]

/-- `boolBuckets`. -/
def boolBuckets (bucketSec : F) : List (F × F) → List (F × Option Bool)
  | [] => []
  | (t, value) :: rest =>
      (t, some (decide (0 < value))) ::
        ((if pure value then [] else holdOn t bucketSec rest) ++ boolBuckets bucketSec rest)

/-- The last item that is not after `x`. -/
def lastAt {K α : Type*} [LinearOrder K] (items : List (K × α)) (x : K) : Option (K × α) :=
  (items.filter fun a => decide (a.1 ≤ x)).getLast?

/-- The line at `x`. -/
def drawn (points : List (F × Option Bool)) (x : F) : Option Bool := (lastAt points x).bind (·.2)

/-- What the buckets say of `x`. -/
def known (bucketSec : F) (buckets : List (F × F)) (x : F) : Option Bool :=
  (lastAt buckets x).bind fun (t, value) =>
    if pure value ∨ x < t + bucketSec then some (decide (0 < value)) else none

section

variable {K α : Type*} [LinearOrder K] {items rest : List (K × α)} {a : K × α} {x : K}

theorem lastAt_append_of_mem {later : List (K × α)} (hmem : a ∈ later) (hle : a.1 ≤ x) :
    lastAt (items ++ later) x = lastAt later x := by
  unfold lastAt
  rw [List.filter_append]
  have hne : later.filter (fun a => decide (a.1 ≤ x)) ≠ [] :=
    List.ne_nil_of_mem (List.mem_filter.mpr ⟨hmem, decide_eq_true hle⟩)
  exact List.getLast?_append_of_ne_nil _ hne

theorem lastAt_append_of_lt {later : List (K × α)} (h : ∀ b ∈ later, x < b.1) :
    lastAt (items ++ later) x = lastAt items x := by
  have hnone : later.filter (fun b => decide (b.1 ≤ x)) = [] := by
    refine List.filter_eq_nil_iff.mpr fun b hb => ?_
    simpa using h b hb
  rw [lastAt, List.filter_append, hnone, List.append_nil, lastAt]

theorem lastAt_cons_of_lt (h : ∀ b ∈ rest, x < b.1) :
    lastAt (a :: rest) x = if a.1 ≤ x then some a else none := by
  rw [← List.singleton_append, lastAt_append_of_lt h]
  unfold lastAt
  by_cases hle : a.1 ≤ x <;> simp [hle]

end

theorem pos_of_not_pure {value : F} (h : ¬ pure value) : 0 < value := not_le.mp (not_or.mp h).1

section

variable [IsStrictOrderedRing F] {bucketSec t value x : F} {rest buckets : List (F × F)}

/-- What follows a mixed bucket is within it, and before the next. -/
theorem holdOn_bounds (hwidth : 1 / 1000 < bucketSec)
    (hnext : ∀ b ∈ rest, t < b.1) : ∀ p ∈ holdOn t bucketSec rest, t < p.1 ∧
      ∀ b, rest.head? = some b → p.1 < b.1 := by
  intro p hp
  have hsmall : (0 : F) < 1 / 1000 := by norm_num
  cases rest with
  | nil =>
    rw [holdOn, List.mem_singleton] at hp
    subst hp
    exact ⟨by dsimp only; linarith, fun b hb => by cases hb⟩
  | cons next later =>
    rw [holdOn] at hp
    split at hp
    · cases hp
    · rename_i hgap
      have hgap := not_le.mp hgap
      have hin : t < p.1 ∧ p.1 < next.1 := by
        rcases List.mem_cons.mp hp with rfl | hp
        · dsimp only
          constructor <;> linarith
        · obtain rfl := List.mem_singleton.mp hp
          dsimp only
          constructor <;> linarith
      refine ⟨hin.1, fun b hb => ?_⟩
      obtain rfl := Option.some.inj hb
      exact hin.2

/-- The points of a bucket, and where the rest begins. -/
theorem boolBuckets_ge (hsorted : buckets.Pairwise fun a b => a.1 < b.1)
    (hwidth : 1 / 1000 < bucketSec) :
    ∀ p ∈ boolBuckets bucketSec buckets, ∀ b, buckets.head? = some b → b.1 ≤ p.1 := by
  induction buckets with
  | nil => exact fun p hp => by cases hp
  | cons first rest ih =>
    intro p hp b hb
    obtain rfl := Option.some.inj hb
    obtain ⟨hfirst, hrest⟩ := List.pairwise_cons.mp hsorted
    rw [boolBuckets] at hp
    rcases List.mem_cons.mp hp with rfl | hp
    · exact le_rfl
    · rcases List.mem_append.mp hp with hp | hp
      · split at hp
        · cases hp
        · exact (holdOn_bounds hwidth hfirst p hp).1.le
      · cases rest with
        | nil => cases hp
        | cons next later =>
          exact (hfirst next List.mem_cons_self).le.trans (ih hrest p hp next rfl)

/-- **The times ascend.** -/
theorem boolBuckets_ascends (hsorted : buckets.Pairwise fun a b => a.1 < b.1)
    (hwidth : 1 / 1000 < bucketSec) :
    (boolBuckets bucketSec buckets).Pairwise fun a b => a.1 < b.1 := by
  induction buckets with
  | nil => exact .nil
  | cons first rest ih =>
    obtain ⟨hfirst, hrest⟩ := List.pairwise_cons.mp hsorted
    have hlater : ∀ p ∈ boolBuckets bucketSec rest, first.1 < p.1 := by
      intro p hp
      cases rest with
      | nil => cases hp
      | cons next later =>
        exact (hfirst next List.mem_cons_self).trans_le (boolBuckets_ge hrest hwidth p hp next rfl)
    have hheld : ∀ p ∈ (if pure first.2 then [] else holdOn first.1 bucketSec rest), first.1 < p.1 ∧
        ∀ q ∈ boolBuckets bucketSec rest, p.1 < q.1 := by
      intro p hp
      split at hp
      · cases hp
      · obtain ⟨hafter, hbefore⟩ := holdOn_bounds hwidth hfirst p hp
        refine ⟨hafter, fun q hq => ?_⟩
        cases rest with
        | nil => cases hq
        | cons next later =>
          exact (hbefore next rfl).trans_le (boolBuckets_ge hrest hwidth q hq next rfl)
    have hheld' : (if pure first.2 then [] else holdOn first.1 bucketSec rest).Pairwise
        fun a b => a.1 < b.1 := by
      split
      · exact .nil
      · unfold holdOn
        split
        · exact List.pairwise_singleton _ _
        · split
          · exact .nil
          · refine List.pairwise_pair.mpr ?_
            have hsmall : (0 : F) < 1 / 1000 := by norm_num
            exact sub_lt_self _ hsmall
    rw [boolBuckets]
    refine List.pairwise_cons.mpr ⟨fun p hp => ?_, List.pairwise_append.mpr
      ⟨hheld', ih hrest, fun p hp q hq => (hheld p hp).2 q hq⟩⟩
    rcases List.mem_append.mp hp with hp | hp
    · exact (hheld p hp).1
    · exact hlater p hp

/-- A mixed bucket, until the next begins or the line ends. -/
theorem lastAt_holdOn (hwidth : 1 / 1000 < bucketSec) (hbegun : t ≤ x)
    (hnext : ∀ b ∈ rest, x < b.1)
    (hend : rest = [] → ∃ p ∈ (t, some true) :: holdOn t bucketSec rest, x ≤ p.1) :
    (lastAt ((t, some true) :: holdOn t bucketSec rest) x).bind (·.2) =
      if x < t + bucketSec then some true else none := by
  have hsmall : (0 : F) < 1 / 1000 := by norm_num
  cases rest with
  | nil =>
    -- the line ends within the bucket
    obtain ⟨p, hp, hle⟩ := hend rfl
    have hin : x ≤ t + bucketSec - 1 / 1000 := by
      rw [holdOn, List.mem_cons, List.mem_singleton] at hp
      rcases hp with rfl | rfl
      · dsimp only at hle
        linarith
      · exact hle
    have hlt : x < t + bucketSec := by linarith
    rw [if_pos hlt, holdOn]
    rcases hin.lt_or_eq with hbefore | rfl
    · rw [lastAt_cons_of_lt (by simpa using hbefore), if_pos hbegun]
      rfl
    · simp [lastAt]
  | cons next later =>
    have hlt := hnext next List.mem_cons_self
    rw [holdOn]
    split
    · rename_i hsoon
      rw [lastAt_cons_of_lt (by simp), if_pos hbegun, if_pos (hlt.trans_le hsoon)]
      rfl
    · by_cases hover : x < t + bucketSec
      · rw [if_pos hover]
        by_cases hbefore : x < t + bucketSec - 1 / 1000
        · rw [lastAt_cons_of_lt (fun p hp => ?_), if_pos hbegun]
          · rfl
          · rcases List.mem_cons.mp hp with rfl | hp
            · exact hbefore
            · exact List.mem_singleton.mp hp ▸ hover
        · have hheld := not_lt.mp hbefore
          simp only [lastAt, List.filter_cons, hbegun, hheld, not_le.mpr hover]
          rfl
      · have hpast := not_lt.mp hover
        have hheld : t + bucketSec - 1 / 1000 ≤ x := by linarith
        rw [if_neg hover]
        simp only [lastAt, List.filter_cons, hbegun, hheld, hpast]
        rfl

/-- A bucket, until the next begins or the line ends. -/
theorem drawn_bucket (hwidth : 1 / 1000 < bucketSec) (hfirst : ∀ b ∈ rest, t < b.1)
    {later : List (F × Option Bool)} (hnext : ∀ b ∈ rest, x < b.1) (hlater : ∀ p ∈ later, x < p.1)
    (hend : rest = [] → ∃ p ∈ (t, some (decide (0 < value))) ::
      (if pure value then [] else holdOn t bucketSec rest), x ≤ p.1) :
    drawn ((t, some (decide (0 < value))) ::
      ((if pure value then [] else holdOn t bucketSec rest) ++ later)) x =
        known bucketSec ((t, value) :: rest) x := by
  unfold drawn known
  rw [← List.cons_append, lastAt_append_of_lt hlater, lastAt_cons_of_lt hnext]
  dsimp only
  by_cases hbegun : t ≤ x
  · rw [if_pos hbegun, Option.bind_some]
    by_cases hpure : pure value
    · rw [if_pos hpure, if_pos (.inl hpure), lastAt_cons_of_lt (by simp), if_pos hbegun]
      rfl
    · rw [if_neg hpure] at hend ⊢
      have hon : decide (0 < value) = true := decide_eq_true (pos_of_not_pure hpure)
      rw [hon] at hend ⊢
      rw [lastAt_holdOn hwidth hbegun hnext hend]
      simp only [hpure, false_or]
  · rw [if_neg hbegun, Option.bind_none, lastAt_cons_of_lt, if_neg hbegun, Option.bind_none]
    intro p hp
    split at hp
    · cases hp
    · exact (not_le.mp hbegun).trans (holdOn_bounds hwidth hfirst p hp).1

/-- **The line shows what is known**: up to its end, the state of the last bucket, if it had only
one or is not over yet; and where nothing is known it breaks. -/
theorem boolBuckets_draws (hsorted : buckets.Pairwise fun a b => a.1 < b.1)
    (hwidth : 1 / 1000 < bucketSec) (hend : ∃ p ∈ boolBuckets bucketSec buckets, x ≤ p.1) :
    drawn (boolBuckets bucketSec buckets) x = known bucketSec buckets x := by
  induction buckets with
  | nil => rfl
  | cons first rest ih =>
    obtain ⟨hfirst, hrest⟩ := List.pairwise_cons.mp hsorted
    have hascends := boolBuckets_ascends hsorted hwidth
    rw [boolBuckets, ← List.cons_append] at hascends
    rw [boolBuckets, ← List.cons_append] at hend
    cases rest with
    | nil =>
      rw [boolBuckets, List.append_nil] at hend
      exact drawn_bucket hwidth hfirst (by simp) (by simp [boolBuckets]) fun _ => hend
    | cons next later =>
      by_cases hbegun : next.1 ≤ x
      · -- the bucket is over: both sides are about the rest
        have hstart : (next.1, some (decide (0 < next.2))) ∈
            boolBuckets bucketSec (next :: later) := List.mem_cons_self
        have hend' : ∃ p ∈ boolBuckets bucketSec (next :: later), x ≤ p.1 := by
          obtain ⟨p, hp, hle⟩ := hend
          rcases List.mem_append.mp hp with hown | hlater
          · have hlt := (List.pairwise_append.mp hascends).2.2 p hown _ hstart
            exact absurd (hbegun.trans hle) (not_le.mpr hlt)
          · exact ⟨p, hlater, hle⟩
        have hover : lastAt (first :: next :: later) x = lastAt (next :: later) x := by
          rw [← List.singleton_append]
          exact lastAt_append_of_mem List.mem_cons_self hbegun
        rw [boolBuckets, ← List.cons_append, drawn, lastAt_append_of_mem hstart hbegun, ← drawn,
          ih hrest hend', known, known, hover]
      · have hbefore := not_le.mp hbegun
        refine drawn_bucket hwidth hfirst (fun b hb => ?_) (fun p hp => ?_) nofun
        · rcases List.mem_cons.mp hb with rfl | hb
          · exact hbefore
          · exact hbefore.trans ((List.pairwise_cons.mp hrest).1 b hb)
        · exact hbefore.trans_le (boolBuckets_ge hrest hwidth p hp next rfl)

end

/-- A pump that was on for part of the first minute and all of the third. -/
def pump : List (ℚ × ℚ) := [(0, 1 / 4), (120, 1)]

theorem boolBuckets_draws_pump :
    drawn (boolBuckets 60 pump) (1 / 2) = known 60 pump (1 / 2) ∧
      drawn (boolBuckets 60 pump) 90 = known 60 pump 90 := by
  have hend : (120, some true) ∈ boolBuckets 60 pump := by decide +kernel
  exact ⟨boolBuckets_draws (by simp [pump]) (by norm_num) ⟨_, hend, by norm_num⟩,
    boolBuckets_draws (by simp [pump]) (by norm_num) ⟨_, hend, by norm_num⟩⟩

end IotSaas.Charts.BoolSeries
