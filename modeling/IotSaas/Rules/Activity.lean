import IotSaas.Rules.Model
import Mathlib.Data.Rat.Floor
import Mathlib.Tactic.Linarith

/-!
# `Rules/Activity.lean` — the strip of the rules list

`rule_activity` turns a rule's executions into a row of cells. The queries answer in time order, so
the table is a list in time order here, and the quotients of times are rational numbers.

The row is specified without the loop: a bucket is a half-open interval, the last one without an
end, and a span is the closed interval from an opening fire to the next clear. A cell shows what
happened in its bucket (`rule_activity_exact`).
-/

set_option autoImplicit false

namespace IotSaas.Rules

open Lib

/-- The columns of `rule_executions` that are read. -/
structure RuleExecution where
  tenantId : Uuid
  ruleId : Option Uuid
  firedAt : Datetime
  edge : Edge
  deriving DecidableEq

inductive StripCell where
  | idle | true | fired
  deriving DecidableEq

structure RuleActivityRow where
  ruleId : Uuid
  cells : List StripCell
  fired : Nat
  lastFiredAt : Option Datetime
  deriving DecidableEq

/-- What the strip covers: `buckets` equal parts of the time from `start` to `stop`. -/
structure Window where
  start : Datetime
  stop : Datetime
  buckets : Nat

/-- `width = (end - start) / buckets`. -/
def Window.width (w : Window) : Rat := ((w.stop - w.start : Int) : Rat) / w.buckets

/-- `int(q)`, which drops the fraction. -/
def truncate (q : Rat) : Int := q.num.tdiv q.den

/-- `cell_of`. -/
def cellOf (w : Window) (t : Datetime) : Nat :=
  (min ((w.buckets : Int) - 1) (max 0 (truncate (((t - w.start : Int) : Rat) / w.width)))).toNat

/-- `for j in range(first, past): cells[j] = "true"`. -/
def fill (cells : List StripCell) (first past : Nat) : List StripCell :=
  (List.range' first (past - first)).foldl (fun cells j => cells.set j .true) cells

/-- The loop over the events of a rule with clear actions; `heldFrom` is the cell in which the
condition came true. -/
def markSpans (w : Window) :
    List RuleExecution → Option Nat → List StripCell → List StripCell
  | [], none, cells => cells
  | [], some heldFrom, cells => fill cells heldFrom w.buckets
  | e :: rest, heldFrom, cells =>
      let i := cellOf w e.firedAt
      match e.edge, heldFrom with
      | .fire, none => markSpans w rest (some i) cells
      | .clear, some heldFrom => markSpans w rest none (fill cells heldFrom (i + 1))
      | .fire, some heldFrom => markSpans w rest (some heldFrom) cells
      | .clear, none => markSpans w rest none cells

/-- `for t in fires: cells[cell_of(t)] = "fired"`. -/
def markFires (w : Window) (fires : List Datetime) (cells : List StripCell) : List StripCell :=
  fires.foldl (fun cells t => cells.set (cellOf w t) .fired) cells

/-- The row of one rule. -/
def activityRow (w : Window) (ruleId : Uuid) (hasClear heldAtStart : Bool)
    (events : List RuleExecution) : RuleActivityRow :=
  let cells := List.replicate w.buckets StripCell.idle
  let cells :=
    if hasClear then markSpans w events (if heldAtStart then some 0 else none) cells else cells
  let fires := (events.filter fun e => e.edge = .fire).map (·.firedAt)
  { ruleId := ruleId
    cells := markFires w fires cells
    fired := fires.length
    lastFiredAt := fires.getLast? }

/-- The rows of the window, as its query returns them. -/
def rowsSince (tenantId : Uuid) (start : Datetime) (log : List RuleExecution) :
    List RuleExecution :=
  log.filter fun e => e.tenantId = tenantId ∧ start ≤ e.firedAt

/-- The edge of a rule's last execution before the window. -/
def priorEdge (tenantId : Uuid) (start : Datetime) (log : List RuleExecution) (ruleId : Uuid) :
    Option Edge :=
  ((log.filter fun e => e.tenantId = tenantId ∧ e.firedAt < start ∧
    e.ruleId = some ruleId).getLast?).map (·.edge)

/-- `by_rule.setdefault(r.rule_id, []).append(...)`, for a row that has a rule. -/
def addRow (d : Dict Uuid (List RuleExecution)) (e : RuleExecution) :
    Dict Uuid (List RuleExecution) :=
  match e.ruleId with
  | some ruleId => d.append ruleId e
  | none => d

/-- `by_rule`: the rows of each rule. -/
def byRule (rows : List RuleExecution) : Dict Uuid (List RuleExecution) :=
  rows.foldl addRow .empty

/-- An hour on the scale of `Datetime`. -/
def hour : Int := seconds 3600

/-- The window of `rule_activity`. -/
def activityWindow (hours buckets : Nat) (now : Datetime) : Window :=
  { start := now - hours * hour, stop := now, buckets := buckets }

variable {F : Type}

/-- `rule_activity`, over the tables of rules and executions. -/
def ruleActivity (tenantId : Uuid) (rules : List (Rule F)) (log : List RuleExecution)
    (hours buckets : Nat) (now : Datetime) : List RuleActivityRow :=
  let w := activityWindow hours buckets now
  let events := byRule (rowsSince tenantId w.start log)
  (rules.filter fun rule => rule.tenantId = tenantId).map fun rule =>
    activityRow w rule.id (!rule.clearActions.isEmpty)
      (decide (priorEdge tenantId w.start log rule.id = some .fire)) (events.getD rule.id [])

/-! ## What a cell should show -/

/-- `t` falls in bucket `j`. The last bucket has what comes later, too. -/
def InBucket (w : Window) (j : Nat) (t : Rat) : Prop :=
  w.start + j * w.width ≤ t ∧ (t < w.start + (j + 1) * w.width ∨ j + 1 = w.buckets)

/-- A fire falls in bucket `j`. -/
def FiredIn (w : Window) (events : List RuleExecution) (j : Nat) : Prop :=
  ∃ e ∈ events, e.edge = .fire ∧ InBucket w j e.firedAt

/-- The time of the first clear. -/
def nextClear (events : List RuleExecution) : Option Datetime :=
  (events.find? fun e => e.edge = .clear).map (·.firedAt)

/-- The condition holds after the events `before`, given where it has held from before them. -/
def HeldAfter (held : Option Datetime) (before : List RuleExecution) : Prop :=
  match before.getLast? with
  | none => held.isSome = true
  | some e => e.edge = .fire

/-- The spans in which the condition held: each begins where it was carried in or at a fire that
opens it, and ends at the next clear, or at `stop` if there is none. -/
inductive Span (stop : Datetime) (held : Option Datetime) (events : List RuleExecution) :
    Datetime → Datetime → Prop where
  | carried {since : Datetime} (h : held = some since) :
      Span stop held events since ((nextClear events).getD stop)
  | opened {before after : List RuleExecution} {e : RuleExecution}
      (h : events = before ++ e :: after) (fire : e.edge = .fire)
      (opens : ¬ HeldAfter held before) :
      Span stop held events e.firedAt ((nextClear after).getD stop)

/-- Bucket `j` meets the closed span from `since` to `till`. -/
def Meets (w : Window) (since till : Datetime) (j : Nat) : Prop :=
  ∃ t : Rat, since ≤ t ∧ t ≤ till ∧ InBucket w j t

/-- Bucket `j` meets a span of the rule's. -/
def HeldIn (w : Window) (held : Option Datetime) (events : List RuleExecution) (j : Nat) : Prop :=
  ∃ since till, Span w.stop held events since till ∧ Meets w since till j

/-- Where the condition has held from when the window opens: its start, if the last execution
before it is a fire. -/
def carriedIn (w : Window) (earlier : List RuleExecution) : Option Datetime :=
  match earlier.getLast? with
  | some e => if e.edge = .fire then some w.start else none
  | none => none

/-- **An exact row**, for a rule's executions before the window and in it. -/
structure Exact (w : Window) (hasClear : Bool) (earlier events : List RuleExecution)
    (row : RuleActivityRow) : Prop where
  length : row.cells.length = w.buckets
  fired_iff : ∀ j < w.buckets, row.cells[j]? = some .fired ↔ FiredIn w events j
  true_iff : ∀ j < w.buckets, ¬ FiredIn w events j →
    (row.cells[j]? = some .true ↔ hasClear = true ∧ HeldIn w (carriedIn w earlier) events j)
  idle_of : ∀ j < w.buckets, ¬ FiredIn w events j →
    ¬ (hasClear = true ∧ HeldIn w (carriedIn w earlier) events j) → row.cells[j]? = some .idle
  fired : row.fired = events.countP fun e => e.edge = .fire
  lastFiredAt : row.lastFiredAt =
    ((events.filter fun e => e.edge = .fire).getLast?).map (·.firedAt)

/-! ## Buckets -/

/-- A window of some length, in some buckets. -/
structure Window.Valid (w : Window) : Prop where
  opens : w.start < w.stop
  buckets : 0 < w.buckets

section

variable {w : Window}

theorem Window.Valid.width_pos (h : w.Valid) : 0 < w.width := by
  have hlength : (0 : Rat) < ((w.stop - w.start : Int) : Rat) := by
    exact_mod_cast Int.sub_pos_of_lt h.opens
  exact div_pos hlength (by exact_mod_cast h.buckets)

/-- The bucket of a time, before it is clamped. -/
def rawCell (w : Window) (t : Rat) : Int := ⌊(t - w.start) / w.width⌋

theorem border_le_iff (h : w.Valid) (j : Int) (t : Rat) :
    w.start + j * w.width ≤ t ↔ j ≤ rawCell w t := by
  rw [rawCell, Int.le_floor, le_div_iff₀ h.width_pos]
  constructor <;> intro hle <;> linarith

theorem lt_border_iff (h : w.Valid) (j : Int) (t : Rat) :
    t < w.start + (j + 1) * w.width ↔ rawCell w t ≤ j := by
  have hborder := border_le_iff h (j + 1) t
  push_cast at hborder
  rw [← not_le, hborder]
  omega

theorem rawCell_mono (h : w.Valid) {t t' : Rat} (hle : t ≤ t') : rawCell w t ≤ rawCell w t' := by
  rw [← border_le_iff h]
  exact le_trans ((border_le_iff h _ _).mpr le_rfl) hle

theorem truncate_of_nonneg {q : Rat} (h : 0 ≤ q) : truncate q = ⌊q⌋ := by
  rw [truncate, Rat.floor_def', Int.tdiv_eq_ediv_of_nonneg (Rat.num_nonneg.mpr h)]

theorem rawCell_nonneg (h : w.Valid) {t : Datetime} (ht : w.start ≤ t) : 0 ≤ rawCell w t := by
  rw [← border_le_iff h]
  have hle : (w.start : Rat) ≤ t := by exact_mod_cast ht
  simpa using hle

theorem cellOf_eq (h : w.Valid) {t : Datetime} (ht : w.start ≤ t) :
    (cellOf w t : Int) = min ((w.buckets : Int) - 1) (rawCell w t) := by
  have hnonneg := rawCell_nonneg h ht
  have hquot : ((t - w.start : Int) : Rat) / w.width = ((t : Rat) - w.start) / w.width := by
    push_cast
    rfl
  have hbuckets := h.buckets
  rw [cellOf, hquot, truncate_of_nonneg, ← rawCell]
  · omega
  · exact Int.floor_nonneg.mp hnonneg

/-- **A time falls in the bucket of its cell.** -/
theorem inBucket_iff (h : w.Valid) {t : Datetime} (ht : w.start ≤ t) {j : Nat}
    (hj : j < w.buckets) : InBucket w j t ↔ cellOf w t = j := by
  have hlo := border_le_iff h j t
  have hhi := lt_border_iff h j t
  have hcell := cellOf_eq h ht
  rw [Int.cast_natCast] at hlo hhi
  rw [InBucket, hlo, hhi]
  omega

/-- **A closed span meets the buckets from the cell it begins in to the cell it ends in.** -/
theorem meets_iff (h : w.Valid) {since till : Datetime} (hsince : w.start ≤ since)
    (hle : since ≤ till) {j : Nat} (hj : j < w.buckets) :
    Meets w since till j ↔ cellOf w since ≤ j ∧ j ≤ cellOf w till := by
  have htill : w.start ≤ till := le_trans hsince hle
  have hfrom := cellOf_eq h hsince
  have hto := cellOf_eq h htill
  constructor
  · intro hmeets
    obtain ⟨t, hlo, hhi, hin⟩ := hmeets
    have hborder := (border_le_iff h j t).mp (by exact_mod_cast hin.1)
    have hnext : rawCell w t ≤ j ∨ j + 1 = w.buckets :=
      hin.2.imp_left fun hlt => (lt_border_iff h j t).mp (by exact_mod_cast hlt)
    have hmono := rawCell_mono h hlo
    have hmono' := rawCell_mono h hhi
    omega
  · intro hcells
    have hborder : j ≤ rawCell w till := by omega
    have hnext : rawCell w since ≤ j ∨ j + 1 = w.buckets := by omega
    have hle' : (since : Rat) ≤ till := by exact_mod_cast hle
    -- the later of the span's beginning and the bucket's
    refine ⟨max since (w.start + j * w.width), le_max_left _ _, max_le hle' ?_,
      le_max_right _ _, ?_⟩
    · exact_mod_cast (border_le_iff h j till).mpr hborder
    · refine hnext.imp_left ?_
      intro hraw
      have hlt := (lt_border_iff h j since).mpr hraw
      rw [Int.cast_natCast] at hlt
      refine max_lt hlt ?_
      have hwidth := h.width_pos
      linarith

/-- From the end of the window on, everything is in the last cell. -/
theorem cellOf_stop (h : w.Valid) {t : Datetime} (ht : w.stop ≤ t) :
    cellOf w t + 1 = w.buckets := by
  have hstart : w.start ≤ t := le_trans h.opens.le ht
  have hlast : w.start + ((w.buckets : Int) : Rat) * w.width = w.stop := by
    have hbuckets : (w.buckets : Rat) ≠ 0 := by exact_mod_cast h.buckets.ne'
    rw [Window.width, Int.cast_natCast, mul_div_cancel₀ _ hbuckets]
    push_cast
    ring
  have hle : (w.stop : Rat) ≤ t := by exact_mod_cast ht
  have hraw := (border_le_iff h w.buckets t).mp (hlast ▸ hle)
  have hcell := cellOf_eq h hstart
  have hbuckets := h.buckets
  omega

theorem cellOf_start (h : w.Valid) : cellOf w w.start = 0 := by
  rw [← inBucket_iff h le_rfl h.buckets]
  refine ⟨by simp, .inl ?_⟩
  have hwidth := h.width_pos
  simpa using hwidth

end

/-! ## Spans -/

/-- Where the condition has held from after one more event. -/
def after (held : Option Datetime) (e : RuleExecution) : Option Datetime :=
  match e.edge with
  | .fire => some (held.getD e.firedAt)
  | .clear => none

theorem heldAfter_cons (held : Option Datetime) (e : RuleExecution)
    (before : List RuleExecution) :
    HeldAfter held (e :: before) ↔ HeldAfter (after held e) before := by
  unfold HeldAfter
  rw [List.getLast?_cons]
  cases before.getLast? with
  | none => cases he : e.edge <;> simp [after, he]
  | some last => rfl

variable {held : Option Datetime}

theorem span_nil {stop : Datetime} {since till : Datetime} :
    Span stop held [] since till ↔ held = some since ∧ till = stop := by
  constructor
  · intro h
    cases h with
    | carried h => exact ⟨h, rfl⟩
    | opened h => simp at h
  · intro h
    obtain ⟨h, rfl⟩ := h
    exact .carried h

/-- The spans of a list by its first event: a clear ends the one that is open. -/
theorem span_cons {stop : Datetime} {e : RuleExecution} {rest : List RuleExecution}
    {since till : Datetime} :
    Span stop held (e :: rest) since till ↔
      (e.edge = .clear ∧ held = some since ∧ till = e.firedAt) ∨
        Span stop (after held e) rest since till := by
  constructor
  · intro h
    cases h with
    | carried h =>
      cases he : e.edge with
      | clear => exact .inl ⟨rfl, h, by simp [nextClear, he]⟩
      | fire =>
        refine .inr ?_
        have hnext : nextClear (e :: rest) = nextClear rest := by simp [nextClear, he]
        rw [hnext]
        exact .carried (by simp [after, he, h])
    | @opened before later first h fire opens =>
      refine .inr ?_
      cases before with
      | nil =>
        obtain ⟨rfl, rfl⟩ := List.cons.inj h
        -- The first of the list opens it: after it the span is carried.
        have hnone : held = none := by simpa [HeldAfter] using opens
        exact .carried (by simp [after, fire, hnone])
      | cons e' before =>
        obtain ⟨rfl, rfl⟩ := List.cons.inj h
        exact .opened rfl fire fun hheld => opens ((heldAfter_cons _ _ _).mpr hheld)
  · intro h
    rcases h with ⟨he, rfl, rfl⟩ | h
    · have hnext : nextClear (e :: rest) = some e.firedAt := by simp [nextClear, he]
      have hspan : Span stop (some since) (e :: rest) since ((nextClear (e :: rest)).getD stop) :=
        .carried rfl
      rwa [hnext] at hspan
    · cases h with
      | carried h =>
        cases he : e.edge with
        | clear => simp [after, he] at h
        | fire =>
          have hnext : nextClear rest = nextClear (e :: rest) := by simp [nextClear, he]
          simp only [after, he, Option.some.injEq] at h
          -- Held after a fire: held before it already, or opened by it.
          cases hheld : held with
          | some since' =>
            rw [hheld, Option.getD_some] at h
            rw [hnext, ← h]
            exact .carried rfl
          | none =>
            rw [hheld, Option.getD_none] at h
            rw [← h]
            exact .opened (List.nil_append _).symm he (by simp [HeldAfter])
      | @opened before later first h fire opens =>
        rw [h]
        exact .opened (List.cons_append).symm fire
          fun hheld => opens ((heldAfter_cons _ _ _).mp hheld)

variable {events : List RuleExecution}

/-- A span begins in the window and ends no earlier than it begins, unless a fire after the window
opens it. -/
theorem span_bounds {stop : Datetime} {since till : Datetime}
    (hsorted : events.Pairwise fun e e' => e.firedAt ≤ e'.firedAt) :
    ∀ {start : Datetime} {held : Option Datetime}, (∀ since, held = some since →
      start ≤ since ∧ since ≤ stop ∧ ∀ e ∈ events, since ≤ e.firedAt) →
      (∀ e ∈ events, start ≤ e.firedAt) → Span stop held events since till →
      start ≤ since ∧
        (since ≤ till ∨ stop < since ∧ ∃ e ∈ events, e.edge = .fire ∧ e.firedAt = since) := by
  intro start held hheld hstart hspan
  cases hspan with
  | carried h =>
    obtain ⟨hlo, hhi, hall⟩ := hheld since h
    refine ⟨hlo, .inl ?_⟩
    unfold nextClear
    cases hfind : events.find? fun e => e.edge = .clear with
    | none => exact hhi
    | some e => exact hall e (List.mem_of_find?_eq_some hfind)
  | @opened before later e h fire opens =>
    have hmem : e ∈ events := by simp [h]
    refine ⟨hstart e hmem, ?_⟩
    unfold nextClear
    cases hfind : later.find? fun e => e.edge = .clear with
    | none =>
      by_cases hstop : stop < e.firedAt
      · exact .inr ⟨hstop, e, hmem, fire, rfl⟩
      · exact .inl (not_lt.mp hstop)
    | some e' =>
      refine .inl ?_
      rw [h] at hsorted
      have htail := (List.pairwise_append.mp hsorted).2.1
      exact (List.pairwise_cons.mp htail).1 e' (List.mem_of_find?_eq_some hfind)

/-! ## Cells -/

/-- Setting cells one by one sets those of the list. -/
theorem getElem?_foldl_set {α β : Type} (f : β → Nat) (v : α) (items : List β) (j : Nat) :
    ∀ cells : List α, (items.foldl (fun cells item => cells.set (f item) v) cells)[j]? =
      if j < cells.length ∧ ∃ item ∈ items, f item = j then some v else cells[j]? := by
  induction items with
  | nil =>
    intro cells
    simp
  | cons item rest ih =>
    intro cells
    rw [List.foldl_cons, ih, List.length_set]
    by_cases hj : j < cells.length
    · by_cases hrest : ∃ item ∈ rest, f item = j
      · simp [hj, hrest]
      · by_cases hitem : f item = j
        · subst hitem
          simp [hj]
        · simp [hrest, hitem, List.getElem?_set_ne hitem]
    · simp [hj]

theorem length_foldl_set {α β : Type} (f : β → Nat) (v : α) (items : List β) :
    ∀ cells : List α,
      (items.foldl (fun cells item => cells.set (f item) v) cells).length = cells.length := by
  induction items with
  | nil =>
    intro cells
    rfl
  | cons item rest ih =>
    intro cells
    rw [List.foldl_cons, ih, List.length_set]

theorem length_fill (cells : List StripCell) (first past : Nat) :
    (fill cells first past).length = cells.length :=
  length_foldl_set id StripCell.true (List.range' first (past - first)) cells

theorem getElem?_fill {cells : List StripCell} {first past j : Nat} (hj : j < cells.length) :
    (fill cells first past)[j]? =
      if first ≤ j ∧ j < past then some .true else cells[j]? := by
  have hset := getElem?_foldl_set id StripCell.true (List.range' first (past - first)) j cells
  have hmem : (∃ i ∈ List.range' first (past - first), id i = j) ↔ first ≤ j ∧ j < past := by
    simp only [List.mem_range'_1, id, exists_eq_right]
    omega
  simp only [hj, true_and, hmem] at hset
  exact hset

/-- Cell `j` lies between the cells in which a span begins and ends. -/
def Covered (w : Window) (held : Option Datetime) (events : List RuleExecution) (j : Nat) :
    Prop :=
  ∃ since till, Span w.stop held events since till ∧ cellOf w since ≤ j ∧ j ≤ cellOf w till

theorem covered_cons {w : Window} {e : RuleExecution} {rest : List RuleExecution} {j : Nat} :
    Covered w held (e :: rest) j ↔
      (e.edge = .clear ∧ ∃ since, held = some since ∧ cellOf w since ≤ j ∧
        j ≤ cellOf w e.firedAt) ∨ Covered w (after held e) rest j := by
  unfold Covered
  constructor
  · intro h
    obtain ⟨since, till, hspan, hlo, hhi⟩ := h
    rcases span_cons.mp hspan with ⟨he, hheld, rfl⟩ | hspan
    · exact .inl ⟨he, since, hheld, hlo, hhi⟩
    · exact .inr ⟨since, till, hspan, hlo, hhi⟩
  · intro h
    rcases h with ⟨he, since, hheld, hlo, hhi⟩ | ⟨since, till, hspan, hlo, hhi⟩
    · exact ⟨since, e.firedAt, span_cons.mpr (.inl ⟨he, hheld, rfl⟩), hlo, hhi⟩
    · exact ⟨since, till, span_cons.mpr (.inr hspan), hlo, hhi⟩

theorem length_markSpans (w : Window) (events : List RuleExecution) :
    ∀ (heldFrom : Option Nat) (cells : List StripCell),
      (markSpans w events heldFrom cells).length = cells.length := by
  induction events with
  | nil =>
    intro heldFrom cells
    cases heldFrom with
    | none => rfl
    | some heldFrom => exact length_fill _ _ _
  | cons e rest ih =>
    intro heldFrom cells
    unfold markSpans
    cases e.edge <;> cases heldFrom <;> simp [ih, length_fill]

/-- **The loop marks the cells that a span covers.** -/
theorem getElem?_markSpans {w : Window} (h : w.Valid) {j : Nat} (hj : j < w.buckets)
    (events : List RuleExecution) :
    ∀ (held : Option Datetime) (cells : List StripCell), cells.length = w.buckets →
      (Covered w held events j →
        (markSpans w events (held.map (cellOf w)) cells)[j]? = some .true) ∧
      (¬ Covered w held events j →
        (markSpans w events (held.map (cellOf w)) cells)[j]? = cells[j]?) := by
  induction events with
  | nil =>
    intro held cells hlen
    have hcell : j < cells.length := hlen ▸ hj
    -- A span that nothing clears goes on to the end of the window.
    have hstop := cellOf_stop h (le_refl w.stop)
    cases held with
    | none =>
      refine ⟨?_, fun _ => rfl⟩
      intro hcovered
      obtain ⟨since, till, hspan, _⟩ := hcovered
      cases (span_nil.mp hspan).1
    | some since =>
      have hcovered : Covered w (some since) [] j ↔ cellOf w since ≤ j := by
        constructor
        · intro hc
          obtain ⟨since', till, hspan, hlo, _⟩ := hc
          cases (span_nil.mp hspan).1
          exact hlo
        · intro hlo
          exact ⟨since, w.stop, span_nil.mpr ⟨rfl, rfl⟩, hlo, by omega⟩
      rw [Option.map_some, markSpans, getElem?_fill hcell, hcovered]
      constructor
      · intro hlo
        rw [if_pos ⟨hlo, hj⟩]
      · intro hlo
        rw [if_neg fun hboth => hlo hboth.1]
  | cons e rest ih =>
    intro held cells hlen
    have hcell : j < cells.length := hlen ▸ hj
    rw [covered_cons]
    unfold markSpans
    cases he : e.edge with
    | fire =>
      cases held with
      | none => simpa [after, he] using ih (some e.firedAt) cells hlen
      | some since => simpa [after, he] using ih (some since) cells hlen
    | clear =>
      cases held with
      | none => simpa [after, he] using ih none cells hlen
      | some since =>
        have hnext := ih none (fill cells (cellOf w since) (cellOf w e.firedAt + 1))
          (by rw [length_fill, hlen])
        rw [getElem?_fill hcell] at hnext
        simp only [Option.map_some, Option.map_none, after, he, Option.some.injEq,
          exists_eq_left', true_and] at hnext ⊢
        -- The cell is in the span that ends here, or what comes after decides it.
        by_cases hspan : cellOf w since ≤ j ∧ j ≤ cellOf w e.firedAt
        · rw [if_pos (by omega)] at hnext
          refine ⟨?_, fun hnot => absurd (.inl hspan) hnot⟩
          intro _
          by_cases hrest : Covered w none rest j
          · exact hnext.1 hrest
          · exact hnext.2 hrest
        · rw [if_neg (by omega)] at hnext
          simpa [hspan] using hnext

/-- Outside the buckets of fires, the covered cells are those whose bucket a span meets. -/
theorem covered_iff_heldIn {w : Window} (h : w.Valid)
    (hsorted : events.Pairwise fun e e' => e.firedAt ≤ e'.firedAt)
    (hstart : ∀ e ∈ events, w.start ≤ e.firedAt)
    (hheld : ∀ since, held = some since → since = w.start) {j : Nat} (hj : j < w.buckets)
    (hfired : ¬ FiredIn w events j) : Covered w held events j ↔ HeldIn w held events j := by
  have hcarried : ∀ since, held = some since →
      w.start ≤ since ∧ since ≤ w.stop ∧ ∀ e ∈ events, since ≤ e.firedAt := by
    intro since hsince
    rw [hheld since hsince]
    exact ⟨le_refl _, h.opens.le, hstart⟩
  have hspan : ∀ since till, Span w.stop held events since till →
      (cellOf w since ≤ j ∧ j ≤ cellOf w till ↔ Meets w since till j) := by
    intro since till hspan
    obtain ⟨hlo, hle | ⟨hlate, e, he, hfire, rfl⟩⟩ :=
      span_bounds hsorted hcarried hstart hspan
    · exact (meets_iff h hlo hle hj).symm
    · -- a fire after the window is in the last bucket, and the others are before it
      have hlast := cellOf_stop h hlate.le
      have hcell : cellOf w e.firedAt ≠ j := by
        intro heq
        exact hfired ⟨e, he, hfire, (inBucket_iff h hlo hj).mpr heq⟩
      constructor
      · intro hcells
        omega
      · intro hmeets
        obtain ⟨t, ht, _, hin⟩ := hmeets
        have hborder := (border_le_iff h j t).mp (by exact_mod_cast hin.1)
        have hnext : rawCell w t ≤ j ∨ j + 1 = w.buckets :=
          hin.2.imp_left fun hlt => (lt_border_iff h j t).mp (by exact_mod_cast hlt)
        have hmono := rawCell_mono h ht
        have hraw := cellOf_eq h hlo
        omega
  unfold Covered HeldIn
  constructor
  · intro hc
    obtain ⟨since, till, hs, hcells⟩ := hc
    exact ⟨since, till, hs, (hspan since till hs).mp hcells⟩
  · intro hh
    obtain ⟨since, till, hs, hmeets⟩ := hh
    exact ⟨since, till, hs, (hspan since till hs).mpr hmeets⟩

/-! ## Rows -/

theorem firedIn_iff {w : Window} (h : w.Valid) (hstart : ∀ e ∈ events, w.start ≤ e.firedAt)
    {j : Nat} (hj : j < w.buckets) :
    FiredIn w events j ↔
      ∃ t ∈ (events.filter fun e => e.edge = .fire).map (·.firedAt), cellOf w t = j := by
  constructor
  · intro hf
    obtain ⟨e, he, hfire, hin⟩ := hf
    exact ⟨e.firedAt, List.mem_map_of_mem (List.mem_filter.mpr ⟨he, by simpa using hfire⟩),
      (inBucket_iff h (hstart e he) hj).mp hin⟩
  · intro hf
    obtain ⟨t, ht, hcell⟩ := hf
    obtain ⟨e, he, rfl⟩ := List.mem_map.mp ht
    obtain ⟨he, hfire⟩ := List.mem_filter.mp he
    exact ⟨e, he, by simpa using hfire, (inBucket_iff h (hstart e he) hj).mpr hcell⟩

/-- **The row of one rule is exact.** -/
theorem activityRow_exact {w : Window} (h : w.Valid) (ruleId : Uuid) (hasClear : Bool)
    {earlier events : List RuleExecution}
    (hsorted : events.Pairwise fun e e' => e.firedAt ≤ e'.firedAt)
    (hstart : ∀ e ∈ events, w.start ≤ e.firedAt) :
    Exact w hasClear earlier events (activityRow w ruleId hasClear
      (decide ((earlier.getLast?).map (·.edge) = some .fire)) events) := by
  -- the cells before the fires are put in
  obtain ⟨cells, hcells⟩ : ∃ cells, cells =
      if hasClear then
        markSpans w events
          (if decide ((earlier.getLast?).map (·.edge) = some Edge.fire) then some 0 else none)
          (List.replicate w.buckets StripCell.idle)
      else List.replicate w.buckets StripCell.idle := ⟨_, rfl⟩
  have hlen : cells.length = w.buckets := by
    rw [hcells]
    split
    · rw [length_markSpans, List.length_replicate]
    · exact List.length_replicate
  have hcarried : (if decide ((earlier.getLast?).map (·.edge) = some Edge.fire) then some 0
      else none) = (carriedIn w earlier).map (cellOf w) := by
    unfold carriedIn
    cases earlier.getLast? with
    | none => rfl
    | some e => cases he : e.edge <;> simp [he, cellOf_start h]
  have hheld : ∀ since, carriedIn w earlier = some since → since = w.start := by
    intro since hsince
    unfold carriedIn at hsince
    split at hsince
    · split at hsince
      · exact (Option.some.inj hsince).symm
      · cases hsince
    · cases hsince
  have hbefore : ∀ j < w.buckets, ¬ FiredIn w events j →
      (hasClear = true ∧ HeldIn w (carriedIn w earlier) events j → cells[j]? = some .true) ∧
      (¬ (hasClear = true ∧ HeldIn w (carriedIn w earlier) events j) →
        cells[j]? = some .idle) := by
    intro j hj hfired
    have hidle : (List.replicate w.buckets StripCell.idle)[j]? = some .idle := by
      simp [hj]
    cases hasClear with
    | false => simpa [hcells] using hidle
    | true =>
      have hmarks := getElem?_markSpans h hj events (carriedIn w earlier)
        (List.replicate w.buckets StripCell.idle) List.length_replicate
      rw [covered_iff_heldIn h hsorted hstart hheld hj hfired, hidle] at hmarks
      rw [hcells, if_pos rfl, hcarried]
      simpa using hmarks
  -- and after
  obtain ⟨row, hrow⟩ : ∃ row, row = activityRow w ruleId hasClear
      (decide ((earlier.getLast?).map (·.edge) = some .fire)) events := ⟨_, rfl⟩
  have hmarked : row.cells =
      markFires w ((events.filter fun e => e.edge = .fire).map (·.firedAt)) cells := by
    rw [hrow, hcells]
    rfl
  have hafter : ∀ j < w.buckets, (FiredIn w events j → row.cells[j]? = some .fired) ∧
      (¬ FiredIn w events j → row.cells[j]? = cells[j]?) := by
    intro j hj
    have hcell : j < cells.length := hlen ▸ hj
    rw [hmarked, markFires, getElem?_foldl_set]
    constructor
    · intro hf
      exact if_pos ⟨hcell, (firedIn_iff h hstart hj).mp hf⟩
    · intro hf
      exact if_neg fun hboth => hf ((firedIn_iff h hstart hj).mpr hboth.2)
  rw [← hrow]
  refine ⟨?_, ?_, ?_, ?_, ?_, ?_⟩
  · rw [hmarked, markFires, length_foldl_set, hlen]
  · intro j hj
    by_cases hfired : FiredIn w events j
    · simp [(hafter j hj).1 hfired, hfired]
    · have hcell := hbefore j hj hfired
      rw [(hafter j hj).2 hfired]
      by_cases hheldIn : hasClear = true ∧ HeldIn w (carriedIn w earlier) events j
      · simp [hfired, hcell.1 hheldIn]
      · simp [hfired, hcell.2 hheldIn]
  · intro j hj hfired
    have hcell := hbefore j hj hfired
    rw [(hafter j hj).2 hfired]
    by_cases hheldIn : hasClear = true ∧ HeldIn w (carriedIn w earlier) events j
    · simp [hcell.1 hheldIn, hheldIn]
    · simp [hcell.2 hheldIn, hheldIn]
  · intro j hj hfired hnot
    rw [(hafter j hj).2 hfired]
    exact (hbefore j hj hfired).2 hnot
  · simp [hrow, activityRow, List.countP_eq_length_filter]
  · simp [hrow, activityRow, List.getLast?_map]

theorem getD_byRule (ruleId : Uuid) (rows : List RuleExecution) :
    (byRule rows).getD ruleId [] = rows.filter fun e => e.ruleId = some ruleId := by
  have hfrom : ∀ d : Dict Uuid (List RuleExecution),
      (rows.foldl addRow d).getD ruleId [] =
        d.getD ruleId [] ++ rows.filter fun e => e.ruleId = some ruleId := by
    induction rows with
    | nil =>
      intro d
      simp
    | cons e rest ih =>
      intro d
      rw [List.foldl_cons, ih]
      cases he : e.ruleId with
      | none => simp [addRow, he]
      | some id =>
        by_cases hid : id = ruleId
        · subst hid
          simp [addRow, he, Dict.append]
        · simp [addRow, he, hid, Dict.append, Dict.getD_set_ne _ _ _ (Ne.symm hid)]
  rw [byRule, hfrom, Dict.getD_empty, List.nil_append]

/-- The executions of a rule. -/
def executionsOf (tenantId ruleId : Uuid) (log : List RuleExecution) : List RuleExecution :=
  log.filter fun e => e.tenantId = tenantId ∧ e.ruleId = some ruleId

variable {F : Type}

/-- **The strip is exact.** There is a row for each rule of the tenant, in their order, and it shows
what the rule's executions were. -/
theorem rule_activity_exact (tenantId : Uuid) (rules : List (Rule F)) {log : List RuleExecution}
    {hours buckets : Nat} (now : Datetime) (hhours : 0 < hours) (hbuckets : 0 < buckets)
    (hsorted : log.Pairwise fun e e' => e.firedAt ≤ e'.firedAt) :
    List.Forall₂
      (fun rule row => row.ruleId = rule.id ∧
        Exact (activityWindow hours buckets now) (!rule.clearActions.isEmpty)
          ((executionsOf tenantId rule.id log).filter fun e =>
            e.firedAt < (activityWindow hours buckets now).start)
          ((executionsOf tenantId rule.id log).filter fun e =>
            (activityWindow hours buckets now).start ≤ e.firedAt) row)
      (rules.filter fun rule => rule.tenantId = tenantId)
      (ruleActivity tenantId rules log hours buckets now) := by
  have hvalid : (activityWindow hours buckets now).Valid := by
    refine ⟨?_, hbuckets⟩
    have hspan : (0 : Int) < hours * hour := by
      have hhour : (0 : Int) < hour := by decide
      exact Int.mul_pos (by omega) hhour
    exact Int.sub_lt_self now hspan
  -- The two queries together read the rule's log, cut at the start of the window.
  have hevents : ∀ ruleId,
      (byRule (rowsSince tenantId (activityWindow hours buckets now).start log)).getD ruleId [] =
        (executionsOf tenantId ruleId log).filter fun e =>
          (activityWindow hours buckets now).start ≤ e.firedAt := by
    intro ruleId
    rw [getD_byRule, rowsSince, executionsOf, List.filter_filter, List.filter_filter]
    apply List.filter_congr
    intro e _
    simp only [Bool.decide_and]
    cases decide (e.tenantId = tenantId) <;> cases decide (e.ruleId = some ruleId) <;> simp
  have hprior : ∀ ruleId,
      priorEdge tenantId (activityWindow hours buckets now).start log ruleId =
        (((executionsOf tenantId ruleId log).filter fun e =>
          e.firedAt < (activityWindow hours buckets now).start).getLast?).map (·.edge) := by
    intro ruleId
    have hfilter : (log.filter fun e => e.tenantId = tenantId ∧
        e.firedAt < (activityWindow hours buckets now).start ∧ e.ruleId = some ruleId) =
        (executionsOf tenantId ruleId log).filter fun e =>
          e.firedAt < (activityWindow hours buckets now).start := by
      rw [executionsOf, List.filter_filter]
      apply List.filter_congr
      intro e _
      simp only [Bool.decide_and]
      cases decide (e.tenantId = tenantId) <;> cases decide (e.ruleId = some ruleId) <;> simp
    rw [priorEdge, hfilter]
  unfold ruleActivity
  dsimp only
  rw [List.forall₂_map_right_iff, List.forall₂_same]
  intro rule _
  refine ⟨rfl, ?_⟩
  rw [hevents, hprior]
  apply activityRow_exact hvalid
  · exact (hsorted.filter _).filter _
  · intro e he
    simpa using (List.mem_filter.mp he).2

/-! ## An hour in quarters -/

/-- A rule that says when it is over. -/
def cooler : Rule Int :=
  { id := "cooler"
    tenantId := "tenant"
    condition := none
    clearActions := [.notification "cool again" [.platform]] }

/-- A fire as the window opens, and the clear on the border of the second quarter. -/
def coolerLog : List RuleExecution :=
  [⟨"tenant", some "cooler", 0, .fire⟩, ⟨"tenant", some "cooler", seconds 900, .clear⟩]

theorem rule_activity_exact_cooler :
    Exact (activityWindow 1 4 (seconds 3600)) true [] coolerLog
      ⟨"cooler", [.fired, .true, .idle, .idle], 1, some 0⟩ := by
  have h := rule_activity_exact "tenant" [cooler] (seconds 3600) (by decide : 0 < 1)
    (by decide : 0 < 4) (by decide : coolerLog.Pairwise fun e e' => e.firedAt ≤ e'.firedAt)
  have hrows : ruleActivity "tenant" [cooler] coolerLog 1 4 (seconds 3600) =
      [⟨"cooler", [.fired, .true, .idle, .idle], 1, some 0⟩] := by
    decide +kernel
  rw [hrows] at h
  exact (List.forall₂_cons.mp h).1.2

end IotSaas.Rules
