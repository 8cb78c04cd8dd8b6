import Mathlib.Algebra.Order.Field.Basic
import Mathlib.Data.Finset.Max
import Mathlib.Data.Finset.Dedup
import Mathlib.Data.List.Sort
import Mathlib.Tactic.GCongr
import Mathlib.Tactic.Linarith
import Mathlib.Tactic.Positivity

/-!
# `Charts/Decimate.lean` — fewer points, the same trace

`decimateMinMax` of `packages/shared/src/chart-decimate.ts`, in exact arithmetic: a series is cut
into time slices, and of each slice its lowest and its highest reading are kept. A point is known by
its index; `x` and `y` are the columns.

The rounds of the outer loop are kept beside the state (`Walk.rounds`), so that it can be said which
points a bucket was made of.
-/

set_option autoImplicit false

namespace IotSaas.Charts

section

variable {K : Type*} [Field K] [LinearOrder K]

/-- What a round of the outer loop has found: where it is, and the lowest and the highest reading it
has seen; -1 is `none`. -/
structure Scan where
  i : Nat
  minI : Option Nat := none
  maxI : Option Nat := none

/-- `xs[i]`. -/
def nth (xs : List K) (i : Nat) : K := xs.getD i 0

/-- The new extreme, if `better` says so. -/
def pick (ys : List K) (better : K → K → Bool) (i : Nat) : Option Nat → Option Nat
  | none => some i
  | some j => if better (nth ys i) (nth ys j) then some i else some j

/-- The inner loop. -/
def scan (xs ys : List K) (stop : K) (isLast : Bool) (s : Scan) : Scan :=
  if s.i < xs.length - 1 ∧ (nth xs s.i ≤ stop ∨ isLast = true) then
    scan xs ys stop isLast
      { i := s.i + 1
        minI := pick ys (fun a b => decide (a < b)) s.i s.minI
        maxI := pick ys (fun a b => decide (a > b)) s.i s.maxI }
  else s
termination_by xs.length - s.i

/-- `push`: the columns so far. -/
def push (xs ys : List K) (out : List K × List K) (i : Nat) : List K × List K :=
  if out.1.getLast? = some (nth xs i) then out else (out.1 ++ [nth xs i], out.2 ++ [nth ys i])

/-- The state of the outer loop, with what each round went through: from the first index up to the
second. -/
structure Walk (K : Type*) where
  out : List K × List K
  i : Nat := 1
  rounds : List (Nat × Nat) := []

/-- `xs[n - 1] - x0 || 1`. -/
def span (xs : List K) : K :=
  let width := nth xs (xs.length - 1) - nth xs 0
  if width = 0 then 1 else width

/-- `end` of bucket `b`. -/
def border (xs : List K) (buckets b : Int) : K :=
  nth xs 0 + span xs * (b + 1 : Int) / (buckets : Int)

/-- A round of the outer loop. -/
def bucket (xs ys : List K) (buckets b : Int) (w : Walk K) : Walk K :=
  let s := scan xs ys (border xs buckets b) (decide (b = buckets - 1)) { i := w.i }
  let out :=
    match s.minI, s.maxI with
    | some minI, some maxI =>
        if minI < maxI then push xs ys (push xs ys w.out minI) maxI
        else push xs ys (push xs ys w.out maxI) minI
    | _, _ => w.out
  { out, i := s.i, rounds := w.rounds ++ [(w.i, s.i)] }

/-- The outer loop, from bucket `b`. -/
def walk (xs ys : List K) (buckets b : Int) (w : Walk K) : Walk K :=
  if b < buckets ∧ w.i < xs.length - 1 then walk xs ys buckets (b + 1) (bucket xs ys buckets b w)
  else w
termination_by (buckets - b).toNat

/-- The loops of a series that is not returned as it is. -/
def walked (xs ys : List K) (buckets : Int) : Walk K :=
  walk xs ys buckets 0 { out := push xs ys ([], []) 0 }

/-- `decimateMinMax`. -/
def decimateMinMax (xs ys : List K) (buckets : Int) : List K × List K :=
  if buckets < 1 ∨ (xs.length : Int) ≤ buckets * 2 then (xs, ys)
  else push xs ys (walked xs ys buckets).out (xs.length - 1)

end

section

variable {K : Type*} [Field K] [LinearOrder K] {xs ys : List K}

/-! ## One bucket -/

/-- The lowest and the highest of a run of readings, where there are any. -/
structure Extremes (ys : List K) (first i : Nat) (minI maxI : Option Nat) : Prop where
  of_eq : first = i → minI = none ∧ maxI = none
  of_lt : first < i → ∃ lo hi, minI = some lo ∧ maxI = some hi ∧ first ≤ lo ∧ lo < i ∧ first ≤ hi ∧
    hi < i ∧ ∀ j, first ≤ j → j < i → nth ys lo ≤ nth ys j ∧ nth ys j ≤ nth ys hi

/-- One more reading. -/
theorem Extremes.pick {first i : Nat} {minI maxI : Option Nat} (hfirst : first ≤ i)
    (h : Extremes ys first i minI maxI) :
    Extremes ys first (i + 1) (Charts.pick ys (fun a b => decide (a < b)) i minI)
      (Charts.pick ys (fun a b => decide (a > b)) i maxI) := by
  refine ⟨fun heq => by omega, fun _ => ?_⟩
  rcases Nat.eq_or_lt_of_le hfirst with heq | hlt
  · obtain ⟨hmin, hmax⟩ := h.of_eq heq
    subst heq
    refine ⟨first, first, by simp [Charts.pick, hmin], by simp [Charts.pick, hmax], le_rfl,
      by omega, le_rfl, by omega, ?_⟩
    intro j hj hj'
    obtain rfl : j = first := by omega
    exact ⟨le_rfl, le_rfl⟩
  · obtain ⟨lo, hi, hmin, hmax, hlo, hlo', hhi, hhi', hbounds⟩ := h.of_lt hlt
    refine ⟨if nth ys i < nth ys lo then i else lo, if nth ys hi < nth ys i then i else hi,
      ?_, ?_, ?_, ?_, ?_, ?_, ?_⟩
    · simp only [Charts.pick, hmin, decide_eq_true_eq]
      exact (apply_ite some _ _ _).symm
    · simp only [Charts.pick, hmax, decide_eq_true_eq, gt_iff_lt]
      exact (apply_ite some _ _ _).symm
    · split <;> omega
    · split <;> omega
    · split <;> omega
    · split <;> omega
    · intro j hj hj'
      -- the new reading, or one that the old extremes bound
      have hold : j = i ∨ nth ys lo ≤ nth ys j ∧ nth ys j ≤ nth ys hi := by
        rcases Nat.eq_or_lt_of_le (Nat.le_of_lt_succ hj') with heq | hlt'
        · exact .inl heq
        · exact .inr (hbounds j hj hlt')
      constructor
      · split
        · rename_i hless
          rcases hold with rfl | hold
          · exact le_rfl
          · exact hless.le.trans hold.1
        · rename_i hnot
          rcases hold with rfl | hold
          · exact not_lt.mp hnot
          · exact hold.1
      · split
        · rename_i hmore
          rcases hold with rfl | hold
          · exact le_rfl
          · exact hold.2.trans hmore.le
        · rename_i hnot
          rcases hold with rfl | hold
          · exact not_lt.mp hnot
          · exact hold.2

/-- What the inner loop has gone through when it is done. -/
structure Scanned (xs ys : List K) (stop : K) (isLast : Bool) (first : Nat) (s : Scan) : Prop where
  first_le : first ≤ s.i
  le_last : s.i ≤ xs.length - 1
  within : ∀ j, first ≤ j → j < s.i → nth xs j ≤ stop ∨ isLast = true
  extremes : Extremes ys first s.i s.minI s.maxI

/-- **The inner loop**: it stops at the first point that is not the bucket's. -/
theorem scan_scanned {stop : K} {isLast : Bool} {first : Nat} {s : Scan}
    (h : Scanned xs ys stop isLast first s) :
    Scanned xs ys stop isLast first (scan xs ys stop isLast s) ∧
      ((scan xs ys stop isLast s).i < xs.length - 1 →
        stop < nth xs (scan xs ys stop isLast s).i ∧ isLast = false) := by
  induction s using scan.induct xs ys stop isLast with
  | case1 s hmore ih =>
    rw [scan, if_pos hmore]
    refine ih ⟨Nat.le_succ_of_le h.first_le, hmore.1, ?_, h.extremes.pick h.first_le⟩
    intro j hj hj'
    rcases Nat.eq_or_lt_of_le (Nat.le_of_lt_succ hj') with rfl | hlt
    · exact hmore.2
    · exact h.within j hj hlt
  | case2 s hdone =>
    rw [scan, if_neg hdone]
    refine ⟨h, fun hlt => ?_⟩
    have hnot := not_and.mp hdone hlt
    simpa using hnot

/-! ## What is kept -/

/-- The columns hold these points, in time order. -/
structure Kept (xs ys : List K) (out : List K × List K) (kept : List Nat) (bound : Nat) : Prop where
  out_eq : out = (kept.map (nth xs), kept.map (nth ys))
  sorted : kept.Pairwise (· < ·)
  below : ∀ k ∈ kept, k < bound

omit [LinearOrder K] in
theorem Kept.mono {out : List K × List K} {kept : List Nat} {bound bound' : Nat}
    (h : Kept xs ys out kept bound) (hle : bound ≤ bound') : Kept xs ys out kept bound' :=
  ⟨h.out_eq, h.sorted, fun k hk => (h.below k hk).trans_le hle⟩

theorem nth_lt (hxs : xs.Pairwise (· < ·)) {i j : Nat} (hij : i < j) (hj : j < xs.length) :
    nth xs i < nth xs j := by
  have hi : i < xs.length := hij.trans hj
  simpa [nth, List.getD, hi, hj] using List.pairwise_iff_getElem.mp hxs i j hi hj hij

/-- A point behind all others goes in. -/
theorem Kept.push {out : List K × List K} {kept : List Nat} {bound k : Nat}
    (hxs : xs.Pairwise (· < ·)) (h : Kept xs ys out kept bound) (hk : bound ≤ k)
    (hlt : k < xs.length) :
    Kept xs ys (Charts.push xs ys out k) (kept ++ [k]) (k + 1) := by
  have hnew : out.1.getLast? ≠ some (nth xs k) := by
    intro hlast
    have hmem := List.mem_of_getLast? hlast
    rw [h.out_eq] at hmem
    obtain ⟨j, hj, heq⟩ := List.mem_map.mp hmem
    exact absurd heq (nth_lt hxs ((h.below j hj).trans_le hk) hlt).ne
  refine ⟨?_, ?_, ?_⟩
  · rw [Charts.push, if_neg hnew, h.out_eq]
    simp
  · rw [List.pairwise_append]
    refine ⟨h.sorted, List.pairwise_singleton _ _, ?_⟩
    intro a ha b hb
    rw [List.mem_singleton.mp hb]
    exact (h.below a ha).trans_le hk
  · intro j hj
    rcases List.mem_append.mp hj with hj | hj
    · exact ((h.below j hj).trans_le hk).trans (Nat.lt_succ_self k)
    · rw [List.mem_singleton.mp hj]
      exact Nat.lt_succ_self k

/-- The last point does not go in twice. -/
theorem Kept.push_again {out : List K × List K} {kept : List Nat} {bound k : Nat}
    (h : Kept xs ys out (kept ++ [k]) bound) : Charts.push xs ys out k = out := by
  rw [Charts.push, if_pos]
  rw [h.out_eq]
  simp

/-- The points of a bucket that go in. -/
def extremesOf (lo hi : Nat) : List Nat := if lo = hi then [lo] else [min lo hi, max lo hi]

theorem mem_extremesOf {lo hi : Nat} : lo ∈ extremesOf lo hi ∧ hi ∈ extremesOf lo hi := by
  unfold extremesOf
  split
  · rename_i heq
    simp [heq]
  · simp only [List.mem_cons, List.not_mem_nil, or_false]
    omega

theorem length_extremesOf (lo hi : Nat) : (extremesOf lo hi).length ≤ 2 := by
  unfold extremesOf
  split <;> simp

/-- **The two readings of a bucket go in in time order**, or once if they are one. -/
theorem Kept.extremes {out : List K × List K} {kept : List Nat} {bound lo hi : Nat}
    (hxs : xs.Pairwise (· < ·)) (h : Kept xs ys out kept bound) (hlo : bound ≤ lo)
    (hlo' : lo < xs.length) (hhi : bound ≤ hi) (hhi' : hi < xs.length) :
    Kept xs ys
      (if lo < hi then Charts.push xs ys (Charts.push xs ys out lo) hi
        else Charts.push xs ys (Charts.push xs ys out hi) lo)
      (kept ++ extremesOf lo hi) (max lo hi + 1) := by
  unfold extremesOf
  split
  · rename_i hlt
    have htwo := (h.push hxs hlo hlo').push hxs hlt hhi'
    simpa [hlt.ne, min_eq_left hlt.le, max_eq_right hlt.le] using htwo
  · rename_i hnot
    rcases Nat.eq_or_lt_of_le (not_lt.mp hnot) with rfl | hlt
    · have hone := h.push hxs hhi hhi'
      rw [hone.push_again]
      simpa using hone
    · have htwo := (h.push hxs hhi hhi').push hxs hlt hlo'
      simpa [hlt.ne', min_eq_right hlt.le, max_eq_left hlt.le] using htwo

/-! ## All buckets -/

/-- The points that rounds went through, in order. -/
def examined (rounds : List (Nat × Nat)) : List Nat :=
  rounds.flatMap fun r => List.range' r.1 (r.2 - r.1)

/-- A point between the borders of bucket `b`; the last bucket takes what is left. -/
def InBucket (xs : List K) (buckets : Int) (b j : Nat) : Prop :=
  (b = 0 ∨ border xs buckets ((b : Int) - 1) < nth xs j) ∧
    (nth xs j ≤ border xs buckets b ∨ (b : Int) = buckets - 1)

/-- Of these points, one with the lowest and one with the highest reading are kept. -/
def Spikes (ys : List K) (kept : List Nat) (P : Nat → Prop) : Prop :=
  (∃ j, P j) → ∃ lo ∈ kept, ∃ hi ∈ kept, P lo ∧ P hi ∧
    ∀ j, P j → nth ys lo ≤ nth ys j ∧ nth ys j ≤ nth ys hi

/-- A point of a round. -/
def InRound (s e j : Nat) : Prop := s ≤ j ∧ j < e

theorem Spikes.mono {kept kept' : List Nat} {P : Nat → Prop} (h : Spikes ys kept P)
    (hsub : kept ⊆ kept') : Spikes ys kept' P := by
  intro hany
  obtain ⟨lo, hlo, hi, hhi, hrest⟩ := h hany
  exact ⟨lo, hsub hlo, hi, hsub hhi, hrest⟩

theorem Spikes.congr {kept : List Nat} {P Q : Nat → Prop} (h : Spikes ys kept P)
    (hiff : ∀ j, P j ↔ Q j) : Spikes ys kept Q := by
  have heq : P = Q := funext fun j => propext (hiff j)
  rwa [← heq]

/-- It is enough that each point lies between two that are kept. -/
theorem Spikes.of_each {kept : List Nat} {P : Nat → Prop}
    (h : ∀ j, P j → ∃ lo ∈ kept, ∃ hi ∈ kept, P lo ∧ P hi ∧ nth ys lo ≤ nth ys j ∧
      nth ys j ≤ nth ys hi) : Spikes ys kept P := by
  classical
  rintro ⟨j₀, hj₀⟩
  obtain ⟨l, hl, -, -, hPl, -⟩ := h j₀ hj₀
  have hne : (kept.toFinset.filter P).Nonempty := ⟨l, by simp [hl, hPl]⟩
  obtain ⟨lo, hlo, hmin⟩ := Finset.exists_min_image _ (nth ys) hne
  obtain ⟨hi, hhi, hmax⟩ := Finset.exists_max_image _ (nth ys) hne
  simp only [Finset.mem_filter, List.mem_toFinset] at hlo hhi hmin hmax
  refine ⟨lo, hlo.1, hi, hhi.1, hlo.2, hhi.2, fun j hj => ?_⟩
  obtain ⟨a, ha, b, hb, hPa, hPb, hle, hge⟩ := h j hj
  exact ⟨(hmin a ⟨ha, hPa⟩).trans hle, hge.trans (hmax b ⟨hb, hPb⟩)⟩

/-- Where the outer loop stands before bucket `b`. -/
structure Walking (xs ys : List K) (buckets : Int) (b : Nat) (w : Walk K) (kept : List Nat) :
    Prop where
  holds : Kept xs ys w.out kept w.i
  first : kept.head? = some 0
  short : kept.length ≤ 2 * b + 1
  pos : 1 ≤ w.i
  le_last : w.i ≤ xs.length - 1
  rounds : w.rounds.length = b
  visited : examined w.rounds = List.range' 1 (w.i - 1)
  slices : ∀ r s e, w.rounds[r]? = some (s, e) →
    (∀ j, InRound s e j → InBucket xs buckets r j) ∧ Spikes ys kept (InRound s e)
  next : 0 < b → w.i < xs.length - 1 →
    border xs buckets ((b : Int) - 1) < nth xs w.i ∧ (b : Int) ≠ buckets

/-- **One bucket.** -/
theorem Walking.bucket {buckets : Int} {b : Nat} {w : Walk K} {kept : List Nat}
    (hxs : xs.Pairwise (· < ·)) (h : Walking xs ys buckets b w kept)
    (hmore : w.i < xs.length - 1) :
    ∃ more, Walking xs ys buckets (b + 1) (Charts.bucket xs ys buckets b w) (kept ++ more) := by
  have hstart : Scanned xs ys (border xs buckets b) (decide ((b : Int) = buckets - 1)) w.i
      { i := w.i } :=
    ⟨le_rfl, h.le_last, fun j hj hj' => absurd hj' (Nat.not_lt.mpr hj),
      ⟨fun _ => ⟨rfl, rfl⟩, fun hlt => absurd hlt (Nat.lt_irrefl _)⟩⟩
  obtain ⟨hscan, hborder⟩ := scan_scanned hstart
  set s := scan xs ys (border xs buckets b) (decide ((b : Int) = buckets - 1)) { i := w.i } with hs
  -- what goes in, and that it holds the spikes of the points gone through
  have hout : ∃ more, more.length ≤ 2 ∧
      Kept xs ys (Charts.bucket xs ys buckets b w).out (kept ++ more) s.i ∧
        Spikes ys (kept ++ more) (InRound w.i s.i) := by
    rcases Nat.eq_or_lt_of_le hscan.first_le with heq | hlt
    · obtain ⟨hmin, hmax⟩ := hscan.extremes.of_eq heq
      refine ⟨[], Nat.zero_le _, ?_, fun ⟨j, hj, hj'⟩ => by omega⟩
      have hsame : (Charts.bucket xs ys buckets b w).out = w.out := by
        simp only [Charts.bucket, ← hs, hmin]
      rw [hsame, List.append_nil, ← heq]
      exact h.holds
    · obtain ⟨lo, hi, hmin, hmax, hlo, hlo', hhi, hhi', hbounds⟩ := hscan.extremes.of_lt hlt
      have hlast := hscan.le_last
      refine ⟨extremesOf lo hi, length_extremesOf lo hi, ?_, fun _ => ⟨lo,
        List.mem_append_right _ mem_extremesOf.1, hi, List.mem_append_right _ mem_extremesOf.2,
        ⟨hlo, hlo'⟩, ⟨hhi, hhi'⟩, fun j hj => hbounds j hj.1 hj.2⟩⟩
      have hin := h.holds.extremes hxs hlo (by omega) hhi (by omega)
      have hsame : (Charts.bucket xs ys buckets b w).out =
          if lo < hi then push xs ys (push xs ys w.out lo) hi
          else push xs ys (push xs ys w.out hi) lo := by
        simp only [Charts.bucket, ← hs, hmin, hmax]
      rw [hsame]
      exact hin.mono (by omega)
  obtain ⟨more, hmoreLength, hkept, hspikes⟩ := hout
  have hi : (Charts.bucket xs ys buckets b w).i = s.i := rfl
  have hrounds : (Charts.bucket xs ys buckets b w).rounds = w.rounds ++ [(w.i, s.i)] := rfl
  have hfirst := hscan.first_le
  have hpos := h.pos
  refine ⟨more, ⟨hkept, ?_, ?_, hpos.trans hfirst, hscan.le_last, ?_, ?_, ?_, ?_⟩⟩
  · rw [List.head?_append, h.first]
    rfl
  · rw [List.length_append]
    have hshort := h.short
    omega
  · rw [hrounds, List.length_append, h.rounds]
    rfl
  · have hsplit : s.i - 1 = (w.i - 1) + (s.i - w.i) := by omega
    have hnext : 1 + (w.i - 1) = w.i := by omega
    rw [hrounds, examined, List.flatMap_append, ← examined, h.visited, hi, hsplit,
      ← List.range'_append_1, hnext]
    simp
  · intro r s' e' hr
    rw [hrounds] at hr
    rcases Nat.lt_or_ge r w.rounds.length with hlt | hge
    · rw [List.getElem?_append_left hlt] at hr
      obtain ⟨hin, hold⟩ := h.slices r s' e' hr
      exact ⟨hin, hold.mono (List.subset_append_left _ _)⟩
    · rw [List.getElem?_append_right hge] at hr
      have hzero : r - w.rounds.length = 0 := by
        by_contra hne
        rw [List.getElem?_eq_none (by simp; omega)] at hr
        cases hr
      rw [hzero] at hr
      cases hr
      obtain rfl : r = b := by
        have hlen := h.rounds
        omega
      refine ⟨fun j ⟨hj, hj'⟩ => ⟨?_, ?_⟩, hspikes⟩
      · rcases Nat.eq_zero_or_pos r with hr | hr
        · exact .inl hr
        · right
          refine (h.next hr hmore).1.trans_le ?_
          rcases Nat.eq_or_lt_of_le hj with rfl | hlt
          · exact le_rfl
          · have hlast := hscan.le_last
            exact (nth_lt hxs hlt (by omega)).le
      · simpa using hscan.within j hj hj'
  · intro _ hlt
    obtain ⟨hb, hnot⟩ := hborder hlt
    have hne : ¬(b : Int) = buckets - 1 := by simpa using hnot
    refine ⟨?_, fun hend => hne (by push_cast at hend; omega)⟩
    have hcast : ((b + 1 : Nat) : Int) - 1 = b := by push_cast; omega
    rw [hcast]
    exact hb

/-- **The outer loop** comes to the last point. -/
theorem Walking.walk {buckets : Int} {b : Nat} {w : Walk K} {kept : List Nat}
    (hxs : xs.Pairwise (· < ·)) (h : Walking xs ys buckets b w kept) (hb : (b : Int) ≤ buckets)
    (hbuckets : 1 ≤ buckets) :
    ∃ (b' : Nat) (kept' : List Nat), (b' : Int) ≤ buckets ∧
      Walking xs ys buckets b' (Charts.walk xs ys buckets b w) kept' ∧
        (Charts.walk xs ys buckets b w).i = xs.length - 1 := by
  rw [Charts.walk]
  split
  · rename_i hmore
    obtain ⟨more, hnext⟩ := h.bucket hxs hmore.2
    have hcast : (b : Int) + 1 = ((b + 1 : Nat) : Int) := by push_cast; rfl
    rw [hcast]
    exact hnext.walk hxs (by omega) hbuckets
  · rename_i hdone
    refine ⟨b, kept, hb, h, ?_⟩
    have hle := h.le_last
    by_contra hne
    have hlt : w.i < xs.length - 1 := by omega
    have hend : (b : Int) = buckets := by
      by_contra hne'
      exact hdone ⟨by omega, hlt⟩
    exact (h.next (by omega) hlt).2 hend
termination_by (buckets - b).toNat
decreasing_by omega

/-- The loops of a series that is too dense. -/
theorem walked_walking (ys : List K) {buckets : Int} (hxs : xs.Pairwise (· < ·))
    (hbuckets : 1 ≤ buckets)
    (hdense : buckets * 2 < xs.length) :
    ∃ (b : Nat) (kept : List Nat), (b : Int) ≤ buckets ∧
      Walking xs ys buckets b (walked xs ys buckets) kept ∧
        (walked xs ys buckets).i = xs.length - 1 := by
  have hfirst : push xs ys ([], []) 0 = ([nth xs 0], [nth ys 0]) := by simp [push]
  have hstart : Walking xs ys buckets 0 { out := push xs ys ([], []) 0 } [0] := by
    refine ⟨⟨by simp [hfirst], List.pairwise_singleton _ _, by simp⟩, rfl, by simp, le_rfl, ?_, rfl,
      rfl, ?_, ?_⟩
    · change 1 ≤ xs.length - 1
      omega
    · intro r s e hr
      simp at hr
    · intro hpos
      omega
  exact hstart.walk hxs (by simpa using by omega) hbuckets

/-! ## The borders -/

section

variable [IsStrictOrderedRing K]

theorem span_pos (hxs : xs.Pairwise (· < ·)) : 0 < span xs := by
  simp only [span]
  split
  · exact one_pos
  · rename_i hwidth
    have hlen : 0 < xs.length - 1 := by
      by_contra hzero
      have hlast : xs.length - 1 = 0 := by omega
      exact hwidth (by rw [hlast, sub_self])
    exact sub_pos.mpr (nth_lt hxs hlen (by omega))

theorem border_mono (hxs : xs.Pairwise (· < ·)) {buckets b b' : Int} (hbuckets : 1 ≤ buckets)
    (hle : b ≤ b') : border xs buckets b ≤ border xs buckets b' := by
  have hspan := span_pos hxs
  have hpos : (0 : K) < (buckets : Int) := by exact_mod_cast hbuckets
  have hcast : ((b + 1 : Int) : K) ≤ ((b' + 1 : Int) : K) := by
    exact_mod_cast Int.add_le_add_right hle 1
  unfold border
  gcongr

/-- A point is in one bucket only. -/
theorem InBucket.unique (hxs : xs.Pairwise (· < ·)) {buckets : Int} (hbuckets : 1 ≤ buckets)
    {b b' j : Nat} (hb : (b : Int) < buckets) (hb' : (b' : Int) < buckets)
    (h : InBucket xs buckets b j) (h' : InBucket xs buckets b' j) : b = b' := by
  -- the earlier bucket ends where the later one has not begun
  have hnot : ∀ {c c' : Nat}, (c' : Int) < buckets → InBucket xs buckets c j →
      InBucket xs buckets c' j → ¬ c < c' := by
    intro c c' hc' hin hin' hlt
    have hle : nth xs j ≤ border xs buckets c := by
      rcases hin.2 with hle | hlast
      · exact hle
      · omega
    have hgt : border xs buckets ((c' : Int) - 1) < nth xs j := by
      rcases hin'.1 with hzero | hgt
      · omega
      · exact hgt
    have hmono := border_mono hxs hbuckets (show (c : Int) ≤ (c' : Int) - 1 by omega)
    exact absurd (hgt.trans_le hle) (not_lt.mpr hmono)
  have hge := hnot hb h' h
  have hle := hnot hb' h h'
  omega

/-! ## The whole series -/

/-- A point that is neither the first nor the last. -/
def Interior (xs : List K) (j : Nat) : Prop := 1 ≤ j ∧ j < xs.length - 1

/-- What the kept points are of a series. -/
structure Keeps (xs ys : List K) (buckets : Int) (kept : List Nat) : Prop where
  sublist : kept.Sublist (List.range xs.length)
  ascending : (kept.map (nth xs)).Pairwise (· < ·)
  ends : xs ≠ [] → kept.head? = some 0 ∧ kept.getLast? = some (xs.length - 1)
  spikes : Spikes ys kept (· < xs.length)
  bucketSpikes : ∀ b : Nat, (b : Int) < buckets →
    Spikes ys kept fun j => Interior xs j ∧ InBucket xs buckets b j

omit [LinearOrder K] [IsStrictOrderedRing K] in
theorem map_nth_range (xs : List K) : (List.range xs.length).map (nth xs) = xs := by
  apply List.ext_getElem
  · simp
  · intro i _ hi
    simp [nth, hi]

omit [IsStrictOrderedRing K] in
/-- A series that is returned as it is. -/
theorem keeps_range (hxs : xs.Pairwise (· < ·)) (buckets : Int) :
    Keeps xs ys buckets (List.range xs.length) := by
  have heach : ∀ (P : Nat → Prop), (∀ j, P j → j < xs.length) →
      Spikes ys (List.range xs.length) P := by
    intro P hP
    apply Spikes.of_each
    intro j hj
    have hmem := List.mem_range.mpr (hP j hj)
    exact ⟨j, hmem, j, hmem, hj, hj, le_rfl, le_rfl⟩
  refine ⟨List.Sublist.refl _, ?_, ?_, heach _ fun j hj => hj, ?_⟩
  · rwa [map_nth_range]
  · intro hne
    have hpos := List.length_pos_of_ne_nil hne
    simp [List.head?_range, List.getLast?_range, hpos.ne']
  · intro b _
    apply heach
    intro j hj
    have hlt := hj.1.2
    omega

omit [LinearOrder K] [IsStrictOrderedRing K] in
theorem mem_examined {rounds : List (Nat × Nat)} {j : Nat} :
    j ∈ examined rounds ↔ ∃ r s e : Nat, rounds[r]? = some (s, e) ∧ InRound s e j := by
  unfold examined InRound
  rw [List.mem_flatMap]
  constructor
  · intro ⟨⟨s, e⟩, hmem, hj⟩
    obtain ⟨r, hr⟩ := List.mem_iff_getElem?.mp hmem
    rw [List.mem_range'_1] at hj
    exact ⟨r, s, e, hr, hj.1, by omega⟩
  · intro ⟨r, s, e, hr, hs, he⟩
    refine ⟨(s, e), List.mem_of_getElem? hr, ?_⟩
    rw [List.mem_range'_1]
    omega

/-- The points a round went through are those between the borders of its bucket. -/
theorem Walking.inRound_iff {buckets : Int} {b : Nat} {w : Walk K} {kept : List Nat}
    (hxs : xs.Pairwise (· < ·)) (hbuckets : 1 ≤ buckets) (hb : (b : Int) ≤ buckets)
    (h : Walking xs ys buckets b w kept) (hend : w.i = xs.length - 1) {r s e : Nat}
    (hr : w.rounds[r]? = some (s, e)) (j : Nat) :
    InRound s e j ↔ Interior xs j ∧ InBucket xs buckets r j := by
  have hlt : ∀ {q s' e' : Nat}, w.rounds[q]? = some (s', e') → (q : Int) < buckets := by
    intro q s' e' hq
    have hrounds := h.rounds
    have hbound := (List.getElem?_eq_some_iff.mp hq).1
    omega
  constructor
  · intro hj
    have hmem : j ∈ List.range' 1 (w.i - 1) := by
      rw [← h.visited]
      exact mem_examined.mpr ⟨r, s, e, hr, hj⟩
    rw [List.mem_range'_1] at hmem
    exact ⟨⟨hmem.1, by omega⟩, (h.slices r s e hr).1 j hj⟩
  · intro ⟨hinterior, hin⟩
    have hmem : j ∈ examined w.rounds := by
      have hlo := hinterior.1
      have hhi := hinterior.2
      rw [h.visited, List.mem_range'_1]
      omega
    obtain ⟨q, s', e', hq, hj⟩ := mem_examined.mp hmem
    have heq := ((h.slices q s' e' hq).1 j hj).unique hxs hbuckets (hlt hq) (hlt hr) hin
    rw [heq, hr] at hq
    cases hq
    exact hj

/-- A series that went through the loops. -/
theorem Walking.keeps {buckets : Int} {b : Nat} {w : Walk K} {kept : List Nat}
    (hxs : xs.Pairwise (· < ·)) (hbuckets : 1 ≤ buckets) (hb : (b : Int) ≤ buckets)
    (h : Walking xs ys buckets b w kept) (hend : w.i = xs.length - 1) :
    Keeps xs ys buckets (kept ++ [xs.length - 1]) := by
  have hpos := h.pos
  have hlast : xs.length - 1 < xs.length := by omega
  have hall := h.holds.push hxs (by omega) hlast
  have hfirst : 0 ∈ kept ++ [xs.length - 1] :=
    List.mem_append_left _ (List.mem_of_mem_head? (by rw [h.first]; rfl))
  have hsub : kept ⊆ kept ++ [xs.length - 1] := List.subset_append_left _ _
  -- every interior point is in a round, whose spikes are kept
  have hround : ∀ j, Interior xs j → ∃ r s e : Nat, w.rounds[r]? = some (s, e) ∧ InRound s e j := by
    intro j ⟨hlo, hhi⟩
    apply mem_examined.mp
    rw [h.visited, List.mem_range'_1]
    omega
  refine ⟨?_, ?_, ?_, ?_, ?_⟩
  · have hnodup := hall.sorted.imp ne_of_lt
    apply List.sublist_of_subperm_of_pairwise (List.subperm_of_subset hnodup ?_)
      (hall.sorted.imp le_of_lt) (List.pairwise_lt_range.imp le_of_lt)
    intro k hk
    have hbound := hall.below k hk
    exact List.mem_range.mpr (by omega)
  · rw [List.pairwise_map]
    apply hall.sorted.imp_of_mem
    intro a c _ hc hlt
    have hbound := hall.below c hc
    exact nth_lt hxs hlt (by omega)
  · intro _
    rw [List.head?_append, h.first, List.getLast?_concat]
    exact ⟨rfl, rfl⟩
  · apply Spikes.of_each
    intro j hj
    by_cases hinterior : Interior xs j
    · obtain ⟨r, s, e, hr, hin⟩ := hround j hinterior
      obtain ⟨lo, hlo, hi, hhi, hinlo, hinhi, hbounds⟩ := (h.slices r s e hr).2 ⟨j, hin⟩
      have hintlo := ((h.inRound_iff hxs hbuckets hb hend hr lo).mp hinlo).1.2
      have hinthi := ((h.inRound_iff hxs hbuckets hb hend hr hi).mp hinhi).1.2
      exact ⟨lo, hsub hlo, hi, hsub hhi, by omega, by omega, hbounds j hin⟩
    · have hkept : j ∈ kept ++ [xs.length - 1] := by
        rcases Nat.eq_zero_or_pos j with rfl | hj0
        · exact hfirst
        · have hj1 : j = xs.length - 1 := by
            unfold Interior at hinterior
            omega
          simp [hj1]
      exact ⟨j, hkept, j, hkept, hj, hj, le_rfl, le_rfl⟩
  · intro c hc ⟨j, hinterior, hin⟩
    obtain ⟨r, s, e, hr, hround⟩ := hround j hinterior
    have hiff := h.inRound_iff hxs hbuckets hb hend hr
    have hlt : (r : Int) < buckets := by
      have hrounds := h.rounds
      have hbound := (List.getElem?_eq_some_iff.mp hr).1
      omega
    obtain rfl : r = c := ((hiff j).mp hround).2.unique hxs hbuckets hlt hc hin
    exact (((h.slices r s e hr).2.mono hsub).congr hiff) ⟨j, hinterior, hin⟩

/-- **Decimation keeps the spikes.** A sparse series, and one for which no bucket is asked, comes back
as it is. -/
theorem decimate_keeps_spikes (hxs : xs.Pairwise (· < ·)) (hys : ys.length = xs.length)
    (buckets : Int) :
    (∃ kept, decimateMinMax xs ys buckets = (kept.map (nth xs), kept.map (nth ys)) ∧
      Keeps xs ys buckets kept ∧
        (1 ≤ buckets → (kept.length : Int) ≤ 2 * buckets + 2 ∨ (xs.length : Int) ≤ buckets * 2)) ∧
    (buckets < 1 ∨ (xs.length : Int) ≤ buckets * 2 → decimateMinMax xs ys buckets = (xs, ys)) ∧
    (1 ≤ buckets → buckets * 2 < xs.length →
      examined (walked xs ys buckets).rounds = List.range' 1 (xs.length - 2) ∧
      ((walked xs ys buckets).rounds.length : Int) ≤ buckets ∧
      ∀ b s e : Nat, (walked xs ys buckets).rounds[b]? = some (s, e) →
        ∀ j, InRound s e j ↔ Interior xs j ∧ InBucket xs buckets b j) := by
  have hasis : buckets < 1 ∨ (xs.length : Int) ≤ buckets * 2 →
      decimateMinMax xs ys buckets = (xs, ys) := fun hsparse => by
    rw [decimateMinMax, if_pos hsparse]
  by_cases hsparse : buckets < 1 ∨ (xs.length : Int) ≤ buckets * 2
  · refine ⟨⟨List.range xs.length, ?_, keeps_range hxs buckets, ?_⟩, hasis, ?_⟩
    · rw [hasis hsparse, map_nth_range, ← hys, map_nth_range]
    · intro hbuckets
      exact .inr (hsparse.resolve_left (not_lt.mpr hbuckets))
    · intro hbuckets hdense
      omega
  · have hbuckets : 1 ≤ buckets := by omega
    obtain ⟨b, kept, hb, hwalking, hend⟩ :=
      walked_walking ys hxs hbuckets (by omega)
    have hpos := hwalking.pos
    have hall := hwalking.holds.push hxs (show (walked xs ys buckets).i ≤ xs.length - 1 by omega)
      (by omega)
    refine ⟨⟨kept ++ [xs.length - 1], ?_, hwalking.keeps hxs hbuckets hb hend, ?_⟩, hasis, ?_⟩
    · rw [decimateMinMax, if_neg hsparse, hall.out_eq]
    · intro _
      have hshort := hwalking.short
      rw [List.length_append, List.length_singleton]
      omega
    · intro _ _
      refine ⟨?_, ?_, fun c s e hc => hwalking.inRound_iff hxs hbuckets hb hend hc⟩
      · rw [hwalking.visited, hend, Nat.sub_sub]
      · rw [hwalking.rounds]
        exact hb

/-- Five points, of which the last but one has the lowest reading. -/
theorem decimate_keeps_spikes_five :
    ∃ kept, decimateMinMax ([0, 1, 2, 3, 4] : List ℚ) [5, 6, 9, 2, 5] 1 =
      (kept.map (nth [0, 1, 2, 3, 4]), kept.map (nth [5, 6, 9, 2, 5])) ∧
        Keeps ([0, 1, 2, 3, 4] : List ℚ) [5, 6, 9, 2, 5] 1 kept := by
  have hxs : ([0, 1, 2, 3, 4] : List ℚ).Pairwise (· < ·) := by decide
  have hys : ([5, 6, 9, 2, 5] : List ℚ).length = ([0, 1, 2, 3, 4] : List ℚ).length := rfl
  obtain ⟨⟨kept, hout, hkeeps, -⟩, -⟩ := decimate_keeps_spikes hxs hys 1
  exact ⟨kept, hout, hkeeps⟩

end

end

/-- **No bucket asked for**: three points, more than twice none and two. -/
theorem decimate_without_buckets :
    ¬ ∀ (xs ys : List ℚ) (buckets : Int), xs.Pairwise (· < ·) → ys.length = xs.length →
      ((decimateMinMax xs ys buckets).1.length : Int) ≤ 2 * buckets + 2 ∨
        (xs.length : Int) ≤ buckets * 2 := by
  intro h
  have hthree := h [0, 1, 2] [0, 0, 0] 0 (by decide) rfl
  rw [decimateMinMax, if_pos (.inl (by omega))] at hthree
  revert hthree
  decide

end IotSaas.Charts
