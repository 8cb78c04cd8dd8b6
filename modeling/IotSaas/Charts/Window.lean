import IotSaas.Charts.LiveBuffer
import IotSaas.Lib.Bisect
import Mathlib.Data.List.Induction
import Mathlib.Order.BoundedOrder.Basic

/-!
# `Charts/Window.lean` — the points a chart draws

`reseed` and `appendToWindow` of `frontend/src/lib/live-buffer.ts`. A chart keeps its points as two
columns, times and values. A fetch replaces what it has returned and leaves the live points that are
newer; a flush of the live buffer appends what is newer than the last point, and drops what slid out
of the window.

What the columns are for is a `Window`: points in time order. Each call does to the columns what an
operation on windows does to the points (`Draws.call`), and so does a run of calls (`Draws.run`).

Of a time it matters only which is later; `⊥` is `-Infinity`. The numbers of JSON are so ordered: it
has no NaN.
-/

set_option autoImplicit false

namespace IotSaas.Charts

open Lib

/-! ## The columns -/

/-- `Series`. -/
structure Series (T V : Type*) where
  id : String
  xs : List T
  ys : List V
  deriving DecidableEq

section

variable {T V : Type*} [LinearOrder T] [OrderBot T] [Inhabited V]

/-- The last time of a column, or `-Infinity`. -/
def tipOf (xs : List T) : T := xs.getLast?.getD ⊥

/-- A round of the loop of `reseed`. -/
def keepNewer (prev : Series T V) (tip : T) (columns : List T × List V) (i : Nat) :
    List T × List V :=
  if prev.xs.getD i ⊥ > tip then
    (columns.1 ++ [prev.xs.getD i ⊥], columns.2 ++ [prev.ys.getD i default])
  else columns

/-- `reseed`. -/
def reseed (prev : Series T V) (id : String) (xs : List T) (ys : List V) : Series T V :=
  if prev.id ≠ id then { id, xs, ys }
  else
    let columns := (List.range prev.xs.length).foldl (keepNewer prev (tipOf xs)) (xs, ys)
    { id, xs := columns.1, ys := columns.2 }

/-- A round of the loop over `points`. -/
def pushNewer (columns : List T × List V) (p : LivePoint T V) : List T × List V :=
  if columns.1.getLast?.any fun tip => p.t ≤ tip then columns
  else (columns.1 ++ [p.t], columns.2 ++ [p.v])

/-- "First index inside the window". -/
def firstInside (xs : List T) (cutoff : T) : Nat :=
  bisect (fun mid => xs[mid]?.any fun x => x < cutoff) 0 xs.length

/-- `appendToWindow`. -/
def appendToWindow (xs : List T) (ys : List V) (points : List (LivePoint T V)) (cutoff : T) :
    List T × List V :=
  let columns := points.foldl pushNewer (xs, ys)
  let lo := firstInside columns.1 cutoff
  if lo > 0 then (columns.1.drop lo, columns.2.drop lo) else columns

end

/-! ## Windows -/

/-- Points in time order, each with its value. -/
structure Window (T V : Type*) [LT T] where
  points : List (T × V)
  ascending : points.Pairwise fun p q => p.1 < q.1

namespace Window

section

variable {T V : Type*} [LinearOrder T]

def times (w : Window T V) : List T := w.points.map Prod.fst

def values (w : Window T V) : List V := w.points.map Prod.snd

/-- Nothing to draw. -/
def empty : Window T V := ⟨[], List.Pairwise.nil⟩

/-- The time comes after every point. -/
def Ends (w : Window T V) (t : T) : Prop := ∀ p ∈ w.points, p.1 < t

instance (w : Window T V) (t : T) : Decidable (w.Ends t) := List.decidableBAll _ _

/-- One more point, if it comes after all others. -/
def record (w : Window T V) (p : LivePoint T V) : Window T V :=
  if h : w.Ends p.t then
    ⟨w.points ++ [(p.t, p.v)], by
      rw [List.pairwise_append]
      exact ⟨w.ascending, List.pairwise_singleton _ _, fun q hq r hr => by
        obtain rfl := List.mem_singleton.mp hr
        exact h q hq⟩⟩
  else w

/-- The points from a time on. -/
def since (w : Window T V) (cutoff : T) : Window T V :=
  ⟨w.points.filter fun p => cutoff ≤ p.1, w.ascending.filter _⟩

@[simp] theorem times_empty : (empty : Window T V).times = [] := rfl

@[simp] theorem values_empty : (empty : Window T V).values = [] := rfl

@[simp] theorem length_times (w : Window T V) : w.times.length = w.points.length := by
  simp [times]

@[simp] theorem length_values (w : Window T V) : w.values.length = w.points.length := by
  simp [values]

@[simp] theorem zip_times_values (w : Window T V) : w.times.zip w.values = w.points := by
  simp [times, values, List.zip_map']

theorem times_ascending (w : Window T V) : w.times.Pairwise (· < ·) := by
  rw [times, List.pairwise_map]
  exact w.ascending

theorem getLast?_times (w : Window T V) : w.times.getLast? = w.points.getLast?.map Prod.fst := by
  simp [times]

/-- The last time is the latest. -/
theorem le_last {w : Window T V} {last : T} (h : w.times.getLast? = some last) {p : T × V}
    (hp : p ∈ w.points) : p.1 ≤ last := by
  obtain ⟨init, hinit⟩ := List.getLast?_eq_some_iff.mp h
  have hmem : p.1 ∈ init ++ [last] := by
    rw [← hinit]
    exact List.mem_map_of_mem hp
  have hasc := w.times_ascending
  rw [hinit, List.pairwise_append] at hasc
  rcases List.mem_append.mp hmem with hold | hlast
  · exact le_of_lt (hasc.2.2 _ hold last (List.mem_singleton.mpr rfl))
  · exact le_of_eq (List.mem_singleton.mp hlast)

/-- **A time comes after every point if it comes after the last.** -/
theorem ends_iff (w : Window T V) (t : T) : w.Ends t ↔ ∀ last ∈ w.times.getLast?, last < t := by
  constructor
  · intro h last hlast
    obtain ⟨init, hinit⟩ := List.getLast?_eq_some_iff.mp hlast
    have hmem : last ∈ w.times := by simp [hinit]
    obtain ⟨p, hp, rfl⟩ := List.mem_map.mp hmem
    exact h p hp
  · intro h p hp
    cases hlast : w.times.getLast? with
    | none =>
      rw [getLast?_times, Option.map_eq_none_iff, List.getLast?_eq_none_iff] at hlast
      rw [hlast] at hp
      cases hp
    | some last => exact lt_of_le_of_lt (le_last hlast hp) (h last hlast)

end

section

variable {T V : Type*} [LinearOrder T] [OrderBot T]

/-- No point comes after the tip. -/
theorem le_tip {w : Window T V} {p : T × V} (hp : p ∈ w.points) : p.1 ≤ tipOf w.times := by
  unfold tipOf
  cases hlast : w.times.getLast? with
  | none =>
    rw [getLast?_times, Option.map_eq_none_iff, List.getLast?_eq_none_iff] at hlast
    rw [hlast] at hp
    cases hp
  | some last => exact le_last hlast hp

/-- What was fetched, and the points that are newer. -/
def after (w fetched : Window T V) : Window T V :=
  ⟨fetched.points ++ w.points.filter fun p => tipOf fetched.times < p.1, by
    rw [List.pairwise_append]
    refine ⟨fetched.ascending, w.ascending.filter _, fun p hp q hq => ?_⟩
    have hnewer := (List.mem_filter.mp hq).2
    exact lt_of_le_of_lt (le_tip hp) (of_decide_eq_true hnewer)⟩

end
end Window

/-! ## What the columns draw -/

section

variable {T V : Type*} [LinearOrder T]

/-- The columns of a window. -/
structure Draws (columns : List T × List V) (w : Window T V) : Prop where
  xs : columns.1 = w.times
  ys : columns.2 = w.values

variable {columns : List T × List V} {w : Window T V}

theorem Draws.zip (h : Draws columns w) :
    columns.1.zip columns.2 = w.points := by
  rw [h.xs, h.ys, Window.zip_times_values]

/-- A point goes in if it comes after all that are there. -/
theorem Draws.push (h : Draws columns w) (p : LivePoint T V) :
    Draws (pushNewer columns p) (w.record p) := by
  have hany : (columns.1.getLast?.any fun tip => decide (p.t ≤ tip)) = true ↔ ¬ w.Ends p.t := by
    rw [Window.ends_iff, ← h.xs, Option.any_eq_true]
    simp
  unfold pushNewer Window.record
  by_cases hends : w.Ends p.t
  · rw [if_neg (by rw [hany]; exact fun hnot => hnot hends), dif_pos hends]
    constructor
    · simp [h.xs, Window.times]
    · simp [h.ys, Window.values]
  · rw [if_pos (hany.mpr hends), dif_neg hends]
    exact h

/-- The loop over the live points. -/
theorem Draws.pushAll (h : Draws columns w) (points : List (LivePoint T V)) :
    Draws (points.foldl pushNewer columns) (points.foldl Window.record w) := by
  induction points generalizing columns w with
  | nil => exact h
  | cons p points ih => exact ih (h.push p)

/-- **The search finds the first index at or after the cutoff.** -/
theorem lt_firstInside_iff {xs : List T} (h : xs.Pairwise (· < ·)) (cutoff : T) {i : Nat} {x : T}
    (hx : xs[i]? = some x) : i < firstInside xs cutoff ↔ x < cutoff := by
  have hdown : DownTo fun mid => xs[mid]?.any fun x => decide (x < cutoff) := by
    intro i j hij hj
    obtain ⟨y, hy, hlt⟩ := (Option.any_eq_true _ _).mp hj
    obtain ⟨hjlt, rfl⟩ := List.getElem?_eq_some_iff.mp hy
    have hilt : i < xs.length := by omega
    have hle : xs[i] ≤ xs[j] := by
      rcases Nat.eq_or_lt_of_le hij with rfl | hlt
      · exact le_refl _
      · exact le_of_lt (List.pairwise_iff_getElem.mp h i j hilt hjlt hlt)
    have hbelow := lt_of_le_of_lt hle (of_decide_eq_true hlt)
    simp [List.getElem?_eq_getElem hilt, hbelow]
  have hend : ∀ i, xs.length ≤ i → (xs[i]?.any fun x => decide (x < cutoff)) = false := by
    intro i hi
    simp [List.getElem?_eq_none hi]
  have hbelow := bisect_iff hdown (Nat.zero_le xs.length) (by simp) hend i
  rw [firstInside, ← hbelow, hx]
  simp

/-- **Dropping what lies before it** leaves the points from the cutoff on. -/
theorem Draws.trim (h : Draws columns w) (cutoff : T) :
    Draws (columns.1.drop (firstInside columns.1 cutoff),
      columns.2.drop (firstInside columns.1 cutoff)) (w.since cutoff) := by
  have hdrop : w.points.drop (firstInside w.times cutoff) =
      w.points.filter fun p => decide (cutoff ≤ p.1) := by
    apply drop_eq_filter
    intro i p hp
    have hx : w.times[i]? = some p.1 := by simp [Window.times, hp]
    have hiff := lt_firstInside_iff w.times_ascending cutoff hx
    rw [decide_eq_true_iff, ← not_lt, ← hiff, Nat.not_lt]
  constructor
  · simp only [h.xs, Window.times, Window.since, ← hdrop, ← List.map_drop]
  · simp only [h.xs, h.ys, Window.values, Window.since, ← hdrop, ← List.map_drop]

/-- What `appendToWindow` does to a window. -/
theorem Draws.append {xs : List T} {ys : List V} (h : Draws (xs, ys) w)
    (points : List (LivePoint T V)) (cutoff : T) :
    Draws (appendToWindow xs ys points cutoff) ((points.foldl Window.record w).since cutoff) := by
  have htrim := (h.pushAll points).trim cutoff
  unfold appendToWindow
  dsimp only
  split
  · exact htrim
  · -- nothing lies before the window
    rename_i hlo
    rw [Nat.eq_zero_of_not_pos hlo] at htrim
    exact htrim

example : appendToWindow [1, 2, 3] [10, 20, 30] [⟨0, 4, 40⟩, ⟨1, 5, 50⟩] 3 =
    (([3, 4, 5], [30, 40, 50]) : List Nat × List Nat) := by decide +kernel

/-! ## What goes in -/

/-- `q` is news to a column of times: of these points it is one that is later than the column and
than every point before it. -/
def News (xs : List T) (points : List (LivePoint T V)) (q : T × V) : Prop :=
  ∃ before p later, points = before ++ p :: later ∧ q = (p.t, p.v) ∧ (∀ x ∈ xs, x < p.t) ∧
    ∀ e ∈ before, e.t < p.t

theorem not_news_nil (xs : List T) (q : T × V) : ¬ News xs [] q := by
  intro h
  obtain ⟨before, p, later, heq, -⟩ := h
  simp at heq

/-- The first point is news, or does not let what is before it be. -/
theorem news_cons_iff (xs : List T) (p : LivePoint T V) (points : List (LivePoint T V))
    (q : T × V) :
    News xs (p :: points) q ↔
      (q = (p.t, p.v) ∧ ∀ x ∈ xs, x < p.t) ∨ News (xs ++ [p.t]) points q := by
  constructor
  · intro h
    obtain ⟨before, r, later, heq, hq, hxs, hbefore⟩ := h
    cases before with
    | nil =>
      obtain ⟨rfl, -⟩ := List.cons.inj heq
      exact .inl ⟨hq, hxs⟩
    | cons e before =>
      obtain ⟨rfl, htail⟩ := List.cons.inj heq
      refine .inr ⟨before, r, later, htail, hq, ?_, fun e he => hbefore e (by simp [he])⟩
      intro x hx
      rcases List.mem_append.mp hx with hold | hnew
      · exact hxs x hold
      · rw [List.mem_singleton.mp hnew]
        exact hbefore p List.mem_cons_self
  · intro h
    rcases h with ⟨hq, hxs⟩ | ⟨before, r, later, heq, hq, hxs, hbefore⟩
    · exact ⟨[], p, points, rfl, hq, hxs, by simp⟩
    · refine ⟨p :: before, r, later, by simp [heq], hq, fun x hx => hxs x (by simp [hx]), ?_⟩
      intro e he
      rcases List.mem_cons.mp he with rfl | hrest
      · exact hxs e.t (by simp)
      · exact hbefore e hrest

/-- A time that is in the column already makes no difference. -/
theorem news_append_iff {xs : List T} {t x : T} (hx : x ∈ xs) (hle : t ≤ x)
    (points : List (LivePoint T V)) (q : T × V) :
    News (xs ++ [t]) points q ↔ News xs points q := by
  constructor
  · intro h
    obtain ⟨before, r, later, heq, hq, hxs, hbefore⟩ := h
    exact ⟨before, r, later, heq, hq, fun y hy => hxs y (by simp [hy]), hbefore⟩
  · intro h
    obtain ⟨before, r, later, heq, hq, hxs, hbefore⟩ := h
    refine ⟨before, r, later, heq, hq, fun y hy => ?_, hbefore⟩
    rcases List.mem_append.mp hy with hold | hnew
    · exact hxs y hold
    · rw [List.mem_singleton.mp hnew]
      exact lt_of_le_of_lt hle (hxs x hx)

theorem Window.ends_iff_times (w : Window T V) (t : T) : w.Ends t ↔ ∀ x ∈ w.times, x < t := by
  simp [Window.Ends, Window.times]

/-- **Exactly the news go in**, behind what is there. -/
theorem Window.recorded (w : Window T V) (points : List (LivePoint T V)) :
    ∃ fresh, (points.foldl Window.record w).points = w.points ++ fresh ∧
      ∀ q, q ∈ fresh ↔ News w.times points q := by
  induction points generalizing w with
  | nil => exact ⟨[], by simp, fun q => by simp [not_news_nil]⟩
  | cons p points ih =>
    obtain ⟨fresh, hpoints, hfresh⟩ := ih (w.record p)
    rw [List.foldl_cons, hpoints]
    by_cases hends : w.Ends p.t
    · refine ⟨(p.t, p.v) :: fresh, by simp [Window.record, hends], fun q => ?_⟩
      have htimes : (w.record p).times = w.times ++ [p.t] := by
        simp [Window.times, Window.record, hends]
      rw [news_cons_iff, List.mem_cons, hfresh, htimes]
      have hall := (w.ends_iff_times p.t).mp hends
      constructor
      · intro h
        exact h.imp (fun hq => ⟨hq, hall⟩) id
      · intro h
        exact h.imp And.left id
    · have hsame : w.record p = w := by simp [Window.record, hends]
      refine ⟨fresh, by rw [hsame], fun q => ?_⟩
      rw [hfresh, hsame, news_cons_iff]
      rw [Window.ends_iff_times] at hends
      have hlate : ∃ x ∈ w.times, p.t ≤ x := by
        by_contra hnone
        apply hends
        intro x hx
        exact lt_of_not_ge fun hle => hnone ⟨x, hx, hle⟩
      obtain ⟨x, hx, hle⟩ := hlate
      rw [news_append_iff hx hle]
      constructor
      · exact .inr
      · intro h
        exact h.resolve_left fun hnew => absurd hnew.2 hends

end

/-! ## Calls -/

section

variable {T V : Type*} [LinearOrder T] [OrderBot T]

/-- A call on the series of a chart. What was fetched is a window: its times go up. -/
inductive Call (T V : Type*) [LT T] where
  | reseed (id : String) (fetched : Window T V)
  | append (points : List (LivePoint T V)) (cutoff : T)

/-- A point that comes with a call. -/
def Call.Brings : Call T V → T × V → Prop
  | .reseed _ fetched, q => q ∈ fetched.points
  | .append points _, q => ∃ p ∈ points, q = (p.t, p.v)

/-- What a call does to a window, in a chart that shows `shown`. -/
def Window.call (w : Window T V) (shown : String) : Call T V → Window T V
  | .reseed id fetched => if shown = id then w.after fetched else fetched
  | .append points cutoff => (points.foldl Window.record w).since cutoff

/-- What a window has after a call it had before, or the call has brought. -/
theorem Window.mem_call {w : Window T V} {shown : String} {c : Call T V} {q : T × V}
    (h : q ∈ (w.call shown c).points) : q ∈ w.points ∨ c.Brings q := by
  cases c with
  | reseed id fetched =>
    simp only [Window.call] at h
    split at h
    · rcases List.mem_append.mp h with hfetched | hkept
      · exact .inr hfetched
      · exact .inl (List.mem_of_mem_filter hkept)
    · exact .inr h
  | append points cutoff =>
    obtain ⟨fresh, hpoints, hfresh⟩ := w.recorded points
    have hmem : q ∈ w.points ++ fresh := by
      rw [← hpoints]
      exact List.mem_of_mem_filter h
    rcases List.mem_append.mp hmem with hold | hnew
    · exact .inl hold
    · obtain ⟨before, p, later, rfl, hq, -⟩ := (hfresh q).mp hnew
      exact .inr ⟨p, by simp, hq⟩

end

/-! ## A fetch -/

section

variable {T V : Type*} [LinearOrder T] [OrderBot T] [Inhabited V]

/-- The loop of `reseed`, up to an index. -/
theorem foldl_keepNewer {prev : Series T V} {w : Window T V} (h : Draws (prev.xs, prev.ys) w)
    (tip : T) (columns : List T × List V) {n : Nat} (hn : n ≤ w.points.length) :
    (List.range n).foldl (keepNewer prev tip) columns =
      (columns.1 ++ ((w.points.take n).filter fun p => tip < p.1).map Prod.fst,
        columns.2 ++ ((w.points.take n).filter fun p => tip < p.1).map Prod.snd) := by
  have hxs : prev.xs = w.times := h.xs
  have hys : prev.ys = w.values := h.ys
  induction n with
  | zero => simp
  | succ n ih =>
    have hlt : n < w.points.length := hn
    have hx : prev.xs.getD n ⊥ = w.points[n].1 := by simp [hxs, Window.times, hlt]
    have hy : prev.ys.getD n default = w.points[n].2 := by simp [hys, Window.values, hlt]
    have htake : w.points.take (n + 1) = w.points.take n ++ [w.points[n]] :=
      (List.take_append_getElem hlt).symm
    rw [List.range_succ, List.foldl_append, ih (Nat.le_of_lt hlt), htake, List.filter_append]
    simp only [List.foldl_cons, List.foldl_nil, keepNewer, hx, hy, gt_iff_lt]
    by_cases hnewer : tip < w.points[n].1
    · simp [hnewer]
    · simp [hnewer]

/-- What `reseed` does to a window. -/
theorem Draws.reseed {prev : Series T V} {w : Window T V} (h : Draws (prev.xs, prev.ys) w)
    (id : String) (fetched : Window T V) :
    let s := Charts.reseed prev id fetched.times fetched.values
    Draws (s.xs, s.ys) (if prev.id = id then w.after fetched else fetched) := by
  unfold Charts.reseed
  by_cases hid : prev.id = id
  · have hlength : prev.xs.length = w.points.length := by
      rw [show prev.xs = w.times from h.xs, Window.length_times]
    rw [if_neg (not_not.mpr hid), if_pos hid]
    simp only [hlength, foldl_keepNewer h _ _ (Nat.le_refl _), List.take_length]
    constructor
    · simp [Window.times, Window.after]
    · simp [Window.values, Window.after, Window.times]
  · rw [if_pos hid, if_neg hid]
    exact ⟨rfl, rfl⟩

/-! ## Runs -/

namespace Series

/-- Nothing drawn yet. -/
def start (id : String) : Series T V := { id, xs := [], ys := [] }

/-- The columns side by side. -/
def points (s : Series T V) : List (T × V) := s.xs.zip s.ys

def call (s : Series T V) : Call T V → Series T V
  | .reseed id fetched => reseed s id fetched.times fetched.values
  | .append points cutoff =>
      let columns := appendToWindow s.xs s.ys points cutoff
      { s with xs := columns.1, ys := columns.2 }

def run (id : String) (calls : List (Call T V)) : Series T V := calls.foldl call (start id)

end Series

/-- **The call on the columns is the call on the window.** -/
theorem Draws.call {s : Series T V} {w : Window T V} (h : Draws (s.xs, s.ys) w) (c : Call T V) :
    Draws ((s.call c).xs, (s.call c).ys) (w.call s.id c) := by
  cases c with
  | reseed id fetched => exact h.reseed id fetched
  | append points cutoff => exact h.append points cutoff

/-- A run draws a window, of points that came with its calls. -/
theorem Draws.run (id : String) (calls : List (Call T V)) :
    ∃ w : Window T V, Draws ((Series.run id calls).xs, (Series.run id calls).ys) w ∧
      ∀ q ∈ w.points, ∃ c ∈ calls, c.Brings q := by
  induction calls using List.reverseRecOn with
  | nil => exact ⟨.empty, ⟨rfl, rfl⟩, by simp [Window.empty]⟩
  | append_singleton calls c ih =>
    obtain ⟨w, hdraws, hbrought⟩ := ih
    have hrun : Series.run id (calls ++ [c]) = (Series.run id calls).call c := by
      simp [Series.run]
    refine ⟨w.call (Series.run id calls).id c, by rw [hrun]; exact hdraws.call c, fun q hq => ?_⟩
    rcases Window.mem_call hq with hold | hnew
    · obtain ⟨c', hc', hbrings⟩ := hbrought q hold
      exact ⟨c', by simp [hc'], hbrings⟩
    · exact ⟨c, by simp, hnew⟩

/-- **The window is kept up.** After any calls the columns are as long as each other, a point's time
stands beside its value, and times go up. A batch of live points adds those that are later than the
column and than all before them in the batch, then leaves what is from the cutoff on, which begins
where the search ends. A fetch of the series that is shown is drawn with all points that are later
than its last. -/
theorem window_maintained (id : String) (calls : List (Call T V)) :
    let s := Series.run id calls
    s.xs.length = s.ys.length ∧ s.xs.Pairwise (· < ·) ∧
    (∀ q ∈ s.points, ∃ c ∈ calls, c.Brings q) ∧
    (∀ (points : List (LivePoint T V)) (cutoff : T), ∃ fresh : List (T × V),
      let grown := points.foldl pushNewer (s.xs, s.ys)
      let s' := s.call (.append points cutoff)
      (∀ q, q ∈ fresh ↔ News s.xs points q) ∧
      grown.1.zip grown.2 = s.points ++ fresh ∧ grown.1.Pairwise (· < ·) ∧
      (∀ i x, grown.1[i]? = some x → (i < firstInside grown.1 cutoff ↔ x < cutoff)) ∧
      s'.id = s.id ∧ s'.points = (s.points ++ fresh).filter fun p => cutoff ≤ p.1) ∧
    ∀ (id' : String) (fetched : Window T V),
      let s' := s.call (.reseed id' fetched)
      s'.id = id' ∧
      s'.points = fetched.points ++
        if s.id = id' then s.points.filter fun p => tipOf fetched.times < p.1 else [] := by
  intro s
  obtain ⟨w, hdraws, hbrought⟩ := Draws.run id calls
  have hxs : s.xs = w.times := hdraws.xs
  have hys : s.ys = w.values := hdraws.ys
  have hpoints : s.points = w.points := hdraws.zip
  refine ⟨by simp [hxs, hys], by rw [hxs]; exact w.times_ascending, by rwa [hpoints],
    fun points cutoff => ?_, fun id' fetched => ?_⟩
  · obtain ⟨fresh, hfresh, hnews⟩ := w.recorded points
    have hgrown := hdraws.pushAll points
    have happended := hdraws.call (.append points cutoff)
    have hascending : (points.foldl pushNewer (s.xs, s.ys)).1.Pairwise (· < ·) := by
      rw [hgrown.xs]
      exact Window.times_ascending _
    refine ⟨fresh, fun q => by rw [hxs, hnews], ?_, hascending, fun i x hx => ?_, rfl, ?_⟩
    · rw [hpoints, ← hfresh]
      exact hgrown.zip
    · exact lt_firstInside_iff hascending cutoff hx
    · rw [hpoints, ← hfresh]
      exact happended.zip
  · have hreseeded := (hdraws.call (.reseed id' fetched)).zip
    constructor
    · simp only [Series.call, reseed]
      split <;> rfl
    · rw [hpoints]
      refine Eq.trans hreseeded ?_
      by_cases hid : s.id = id'
      · simp only [Window.call, if_pos hid, s]
        rfl
      · simp only [Window.call, if_neg hid, s, List.append_nil]

end
end IotSaas.Charts
