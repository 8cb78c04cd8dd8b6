import IotSaas.Charts.Newest
import IotSaas.Lib.Double
import IotSaas.Lib.Reach
import IotSaas.Rules.Model
import Mathlib.Algebra.Order.Ring.Int
import Mathlib.Data.List.Infix
import Mathlib.Data.List.Nodup
import Mathlib.Order.Basic

/-!
# `Realtime/LatestCache.lean` — the latest readings, patched instead of fetched

The list that `get_latest` answered is kept current from the frames: `push` keeps the newest reading
of each metric until the next flush, and `applyLatest` writes what was kept into the list with
`mergeLatest` of `shared/live-telemetry.ts`. Nothing is fetched again.

`patched_eq_fetched` says that the list shows what fetching would have shown, in every run and in
whatever order the frames come in. A frame carries its time in seconds, as a double, and the page
reads milliseconds. From November 2004 to January 2038 the two roundings make up for each other
(`getTime_timestamp`); at other times a reading can lose a millisecond on the way.
-/

set_option autoImplicit false

namespace IotSaas.Realtime.LatestCache

open Lib Lib.Double Rules Charts

variable {V : Type*}

/-- A row of `telemetry`, of one device, and what is answered and cached of it. -/
structure Reading (V : Type*) where
  metric : String
  value : V
  time : Datetime

/-- An answer of `get_latest`: `DISTINCT ON (metric) … ORDER BY metric, time DESC`. Of rows of one
time it is any. -/
structure IsLatest (table answer : List (Reading V)) : Prop where
  distinct : (answer.map (·.metric)).Nodup
  stored : ∀ row ∈ answer, row ∈ table
  newest : ∀ r ∈ table, ∃ row ∈ answer, row.metric = r.metric ∧ r.time ≤ row.time

/-- `new Date(iso).getTime()`. -/
def getTime (iso : Datetime) : Int := iso / 1000

/-- A reading that is sent to the page, between November 2004 and January 2038. It is stored with the
same time. -/
structure Frame (V : Type*) extends Reading V where
  after : 2 ^ 40 < getTime time
  before : time < 2 ^ 31 * 10 ^ 6

/-- `received_at.timestamp()`. -/
def timestamp (time : Datetime) : ℚ := toPlace (((time : Int) : ℚ) / 10 ^ 6)

/-- `iso`: `new Date(seconds * 1000).toISOString()`. -/
def iso (seconds : ℚ) : Datetime := ⌊toPlace (seconds * 1000)⌋ * 1000

/-- `isNewer`, for rows that have a time. -/
def isNewer (candidate existing : Datetime) : Bool := decide (getTime existing < getTime candidate)

/-- `mergeLatest`. -/
def mergeLatest (metric : String) (value : V) (iso : Datetime) (current : List (Reading V)) :
    List (Reading V) :=
  match current.find? fun r => decide (r.metric = metric) with
  | none => current ++ [⟨metric, value, iso⟩]
  | some existing =>
      if isNewer iso existing.time = false then current
      else current.map fun r => if r.metric = metric then ⟨metric, value, iso⟩ else r

/-- What `applyLatest` makes of the list, with the readings of its device. -/
def reduce (readings : List (LatestReading ℚ V)) (current : List (Reading V)) : List (Reading V) :=
  readings.foldl (fun acc r => mergeLatest r.metric r.value (iso r.t) acc) current

/-- `applyLatest`, for the list of one device. -/
def applyLatest (deviceId : DeviceId) (batch : LatestBatch ℚ V) (current : List (Reading V)) :
    List (Reading V) :=
  (batch.filter fun x => x.1 = deviceId).foldl (fun acc x => reduce x.2 acc) current

/-- The readings that wait for the next flush, and the list of one device, if it has been fetched.
`pending` and `seen` are for the statements: the readings of the device that came since the last
flush, and those that the list is to show. -/
structure Page (V : Type*) where
  latest : JsMap DeviceId (JsMap String (LatestReading ℚ V)) := .empty
  cached : Option (List (Reading V)) := none
  pending : List (Frame V) := []
  seen : List (Reading V) := []

inductive Event (V : Type*) where
  | frame (deviceId : DeviceId) (frame : Frame V)
  | flush
  /-- The page is hidden. -/
  | clear
  /-- The list is fetched, from a table that has these rows. -/
  | answered (table answer : List (Reading V))

def step (deviceId : DeviceId) (s : Page V) : Event V → Option (Page V)
  | .frame other r => some { s with
      latest := LiveBuffer.pushLatest s.latest (other, r.metric) r.value (timestamp r.time)
      pending := if other = deviceId then s.pending ++ [r] else s.pending }
  | .flush => some { s with
      latest := .empty
      cached := s.cached.map (applyLatest deviceId (LiveBuffer.batchOf s.latest))
      pending := []
      seen := s.seen ++ s.pending.map (·.toReading) }
  | .clear => some { s with latest := .empty, pending := [] }
  | .answered table answer => some { s with cached := some answer, seen := table }

/-- What is answered is the latest of the table. -/
def Answers (_ : Page V) : Event V → Prop
  | .answered table answer => IsLatest table answer
  | _ => True

/-- What the list has for a metric. -/
def shown (rows : List (Reading V)) (metric : String) : Option (Reading V) :=
  rows.find? fun r => decide (r.metric = metric)

/-! ## Times -/

theorem getTime_mono {a b : Datetime} (h : a ≤ b) : getTime a ≤ getTime b :=
  Int.ediv_le_ediv (by decide) h

theorem getTime_iso (seconds : ℚ) : getTime (iso seconds) = ⌊toPlace (seconds * 1000)⌋ :=
  Int.mul_ediv_cancel _ (by decide)

section

variable (r : Frame V)

theorem getTime_le_millis : (getTime r.time : ℚ) ≤ ((r.time : Int) : ℚ) / 1000 := by
  rw [le_div_iff₀ (by norm_num)]
  exact_mod_cast Int.ediv_mul_le r.time (by decide)

/-- The seconds are as good as a quarter of a microsecond, and within 2³⁰ and 2³¹. -/
theorem timestamp_bounds : |timestamp r.time - ((r.time : Int) : ℚ) / 10 ^ 6| ≤ 2 ^ (-22 : ℤ) / 2 ∧
    (2 : ℚ) ^ (40 : ℤ) ≤ timestamp r.time * 1000 ∧
    timestamp r.time * 1000 < (2 : ℚ) ^ (41 : ℤ) := by
  have hlow : (2 : ℚ) ^ 40 + 1 ≤ ((r.time : Int) : ℚ) / 1000 := by
    have hafter : (2 : ℚ) ^ 40 + 1 ≤ getTime r.time := by exact_mod_cast r.after
    exact hafter.trans (getTime_le_millis r)
  have hhigh : ((r.time : Int) : ℚ) < 2 ^ 31 * 10 ^ 6 := by exact_mod_cast r.before
  norm_num at hlow hhigh
  have herror : |timestamp r.time - ((r.time : Int) : ℚ) / 10 ^ 6| ≤ 2 ^ (-22 : ℤ) / 2 := by
    have hpos : (0 : ℚ) < ((r.time : Int) : ℚ) := by linarith
    refine abs_toPlace_sub_le (lastPlace_le (k := 31) (by norm_num) (by positivity) ?_)
    norm_num
    linarith
  refine ⟨herror, ?_⟩
  rw [abs_le] at herror
  norm_num at herror ⊢
  constructor <;> linarith

/-- **No millisecond is lost**: the seconds have a place for every one, and the milliseconds have a
last place that is as wide, so the second rounding makes good what the first has done. -/
theorem getTime_timestamp : getTime (iso (timestamp r.time)) = getTime r.time := by
  obtain ⟨hseconds, hlow, hhigh⟩ := timestamp_bounds r
  have hplace : lastPlace (timestamp r.time * 1000) = -12 :=
    lastPlace_eq (k := 40) (by norm_num) hlow hhigh
  have hmillis := abs_toPlace_sub_le hplace.le
  have hfloor := getTime_le_millis r
  rw [abs_le] at hseconds hmillis
  norm_num at hseconds hmillis
  rw [getTime_iso]
  apply le_antisymm
  · have hmod : ((r.time % 1000 : Int) : ℚ) ≤ 999 := by
      exact_mod_cast Int.le_of_lt_add_one (Int.emod_lt_of_pos r.time (by decide))
    have hsplit : ((r.time : Int) : ℚ) =
        1000 * (getTime r.time : ℚ) + ((r.time % 1000 : Int) : ℚ) := by
      exact_mod_cast (Int.mul_ediv_add_emod r.time 1000).symm
    refine Int.lt_add_one_iff.mp (Int.floor_lt.mpr ?_)
    push_cast
    linarith
  · have hmultiple : ((getTime r.time * 2 ^ 12 : Int) : ℚ) * 2 ^ (-12 : ℤ) = getTime r.time := by
      push_cast
      rw [mul_assoc]
      norm_num
    have hround := le_toPlace_of_lt (a := timestamp r.time * 1000) (n := getTime r.time * 2 ^ 12)
    rw [hplace, hmultiple] at hround
    refine Int.le_floor.mpr (hround ?_)
    norm_num
    linarith

theorem timestamp_pos : 0 < timestamp r.time := by
  have hlow := (timestamp_bounds r).2.1
  norm_num at hlow
  linarith

end

theorem iso_mono {a b : ℚ} (hpos : 0 < a) (h : a ≤ b) : getTime (iso a) ≤ getTime (iso b) := by
  rw [getTime_iso, getTime_iso]
  exact Int.floor_le_floor (toPlace_mono (by positivity) (by gcongr))

/-! ## Merging -/

section

variable {rows : List (Reading V)} {metric : String} {row : Reading V}

theorem shown_eq_some (hrows : (rows.map (·.metric)).Nodup) :
    shown rows metric = some row ↔ row ∈ rows ∧ row.metric = metric := by
  constructor
  · intro h
    exact ⟨List.mem_of_find?_eq_some h, by simpa using List.find?_some h⟩
  · rintro ⟨hmem, rfl⟩
    have hsome : (shown rows row.metric).isSome = true :=
      List.find?_isSome.mpr ⟨row, hmem, by simp⟩
    obtain ⟨found, hfound⟩ := Option.isSome_iff_exists.mp hsome
    have heq : found.metric = row.metric := by simpa using List.find?_some hfound
    rw [hfound, List.inj_on_of_nodup_map hrows (List.mem_of_find?_eq_some hfound) hmem heq]

/-- What a merge does: a new metric comes last, an older reading changes nothing, a newer one takes
the place of its metric. -/
inductive Merged (metric : String) (value : V) (iso : Datetime) (current : List (Reading V)) :
    List (Reading V) → Prop where
  | fresh (none : metric ∉ current.map (·.metric)) :
      Merged metric value iso current (current ++ [⟨metric, value, iso⟩])
  | older (existing : Reading V) (mem : existing ∈ current) (same : existing.metric = metric)
      (late : getTime iso ≤ getTime existing.time) : Merged metric value iso current current
  | newer (existing : Reading V) (mem : existing ∈ current) (same : existing.metric = metric)
      (later : getTime existing.time < getTime iso) : Merged metric value iso current
        (current.map fun r => if r.metric = metric then ⟨metric, value, iso⟩ else r)

theorem merged (metric : String) (value : V) (iso : Datetime) (current : List (Reading V)) :
    Merged metric value iso current (mergeLatest metric value iso current) := by
  unfold mergeLatest
  split
  · rename_i hnone
    refine .fresh fun hmem => ?_
    obtain ⟨r, hr, heq⟩ := List.mem_map.mp hmem
    simpa [heq] using List.find?_eq_none.mp hnone r hr
  · rename_i existing hsome
    have hmem := List.mem_of_find?_eq_some hsome
    have hsame : existing.metric = metric := by simpa using List.find?_some hsome
    split
    · rename_i hlate
      unfold isNewer at hlate
      exact .older existing hmem hsame (not_lt.mp (of_decide_eq_false hlate))
    · rename_i hlater
      exact .newer existing hmem hsame (of_decide_eq_true (Bool.of_not_eq_false hlater))

/-- Replacing keeps every metric where it is. -/
theorem map_metric (value : V) (iso : Datetime) :
    (rows.map fun r => if r.metric = metric then ⟨metric, value, iso⟩ else r).map (·.metric) =
      rows.map (·.metric) := by
  rw [List.map_map]
  refine List.map_congr_left fun r _ => ?_
  rw [Function.comp_apply]
  split
  · rename_i heq
    exact heq.symm
  · rfl

end

/-- The row that a reading is written as. -/
def rowOf (x : LatestReading ℚ V) : Reading V := ⟨x.metric, x.value, iso x.t⟩

/-- What merging readings makes of a list: nothing in it moves (the page takes the first for the
device's main reading), each row was there or is one of the readings, and none is earlier than what
it took the place of. -/
structure Patched (readings : List (LatestReading ℚ V)) (before after : List (Reading V)) :
    Prop where
  places : before.map (·.metric) <+: after.map (·.metric)
  distinct : (after.map (·.metric)).Nodup
  source : ∀ row ∈ after, row ∈ before ∨ row ∈ readings.map rowOf
  keeps : ∀ row ∈ before ++ readings.map rowOf, ∃ row' ∈ after, row'.metric = row.metric ∧
    getTime row.time ≤ getTime row'.time

section

variable {rows middle after : List (Reading V)}

theorem patched_refl (hrows : (rows.map (·.metric)).Nodup) : Patched [] rows rows where
  places := List.prefix_rfl
  distinct := hrows
  source := fun _ hrow => .inl hrow
  keeps := fun row hrow => ⟨row, by simpa using hrow, rfl, le_rfl⟩

/-- One reading. -/
theorem patched_merge (hrows : (rows.map (·.metric)).Nodup) (x : LatestReading ℚ V) :
    Patched [x] rows (mergeLatest x.metric x.value (iso x.t) rows) := by
  have hmerged := merged x.metric x.value (iso x.t) rows
  generalize mergeLatest x.metric x.value (iso x.t) rows = after at hmerged ⊢
  cases hmerged with
  | fresh hnone =>
    refine ⟨?_, ?_, fun row hrow => ?_, fun row hrow => ⟨row, hrow, rfl, le_rfl⟩⟩
    · rw [List.map_append]
      exact List.prefix_append _ _
    · rw [List.map_append, List.map_singleton]
      refine List.nodup_append.mpr ⟨hrows, List.nodup_singleton _, ?_⟩
      rintro m hm m' hm' rfl
      rw [List.mem_singleton.mp hm'] at hm
      exact hnone hm
    · exact List.mem_append.mp hrow
  | older existing hmem hsame hlate =>
    refine ⟨List.prefix_rfl, hrows, fun _ hrow => .inl hrow, fun row hrow => ?_⟩
    rcases List.mem_append.mp hrow with hold | hnew
    · exact ⟨row, hold, rfl, le_rfl⟩
    · obtain rfl := List.mem_singleton.mp hnew
      exact ⟨existing, hmem, hsame, hlate⟩
  | newer existing hmem hsame hlater =>
    have hreplaced : rowOf x ∈ rows.map fun row =>
        if row.metric = x.metric then ⟨x.metric, x.value, iso x.t⟩ else row :=
      List.mem_map.mpr ⟨existing, hmem, if_pos hsame⟩
    refine ⟨?_, ?_, fun row hrow => ?_, fun row hrow => ?_⟩
    · rw [map_metric]
    · rw [map_metric]
      exact hrows
    · obtain ⟨old, hold, rfl⟩ := List.mem_map.mp hrow
      split
      · exact .inr (List.mem_singleton_self _)
      · exact .inl hold
    · rcases List.mem_append.mp hrow with hold | hnew
      · by_cases heq : row.metric = x.metric
        · -- the row that is replaced is the one that was found
          obtain rfl : row = existing :=
            List.inj_on_of_nodup_map hrows hold hmem (heq.trans hsame.symm)
          exact ⟨_, hreplaced, heq.symm, hlater.le⟩
        · exact ⟨row, List.mem_map.mpr ⟨row, hold, if_neg heq⟩, rfl, le_rfl⟩
      · obtain rfl := List.mem_singleton.mp hnew
        exact ⟨_, hreplaced, rfl, le_rfl⟩

theorem Patched.trans {first rest : List (LatestReading ℚ V)} (h : Patched first rows middle)
    (h' : Patched rest middle after) : Patched (first ++ rest) rows after where
  places := h.places.trans h'.places
  distinct := h'.distinct
  source := fun row hrow => by
    rw [List.map_append, List.mem_append]
    rcases h'.source row hrow with hmiddle | hnew
    · exact (h.source row hmiddle).imp_right .inl
    · exact .inr (.inr hnew)
  keeps := fun row hrow => by
    rw [List.map_append, ← List.append_assoc, List.mem_append] at hrow
    rcases hrow with hold | hnew
    · obtain ⟨row', hrow', hmetric, hle⟩ := h.keeps row hold
      obtain ⟨row'', hrow'', hmetric', hle'⟩ := h'.keeps row' (List.mem_append_left _ hrow')
      exact ⟨row'', hrow'', hmetric'.trans hmetric, hle.trans hle'⟩
    · exact h'.keeps row (List.mem_append_right _ hnew)

/-- All of them. -/
theorem patched_reduce (hrows : (rows.map (·.metric)).Nodup) (readings : List (LatestReading ℚ V)) :
    Patched readings rows (reduce readings rows) := by
  induction readings generalizing rows with
  | nil => exact patched_refl hrows
  | cons x rest ih =>
    have hfirst := patched_merge hrows x
    exact hfirst.trans (ih hfirst.distinct)

end

/-! ## Runs -/

/-- What the list stands for: each row is a reading of `seen`, to the millisecond, and none of
`seen` is later than its metric's row. -/
structure StandsFor (seen rows : List (Reading V)) : Prop where
  distinct : (rows.map (·.metric)).Nodup
  stored : ∀ row ∈ rows, ∃ r ∈ seen, r.metric = row.metric ∧ r.value = row.value ∧
    getTime r.time = getTime row.time
  newest : ∀ r ∈ seen, ∃ row ∈ rows, row.metric = r.metric ∧ getTime r.time ≤ getTime row.time

/-- What `push` keeps of the readings that came: one of each metric, and none is later. -/
structure Keeps (deviceId : DeviceId)
    (latest : JsMap DeviceId (JsMap String (LatestReading ℚ V))) (pending : List (Frame V)) : Prop where
  source : ∀ metric x, LiveBuffer.kept latest (deviceId, metric) = some x → ∃ r ∈ pending,
    r.metric = metric ∧ x = ⟨r.metric, r.value, timestamp r.time⟩
  newest : ∀ r ∈ pending, ∃ x, LiveBuffer.kept latest (deviceId, r.metric) = some x ∧
    timestamp r.time ≤ x.t

section

variable {deviceId : DeviceId} {latest : JsMap DeviceId (JsMap String (LatestReading ℚ V))}
  {pending : List (Frame V)} {table answer seen rows : List (Reading V)}

theorem IsLatest.standsFor (h : IsLatest table answer) : StandsFor table answer where
  distinct := h.distinct
  stored := fun row hrow => ⟨row, h.stored row hrow, rfl, rfl, rfl⟩
  newest := fun r hr => by
    obtain ⟨row, hrow, hmetric, hle⟩ := h.newest r hr
    exact ⟨row, hrow, hmetric, getTime_mono hle⟩

theorem keeps_empty : Keeps deviceId (.empty : JsMap DeviceId (JsMap String (LatestReading ℚ V)))
    [] where
  source := fun metric x hx => by simp [LiveBuffer.kept] at hx
  newest := fun r hr => absurd hr List.not_mem_nil

theorem Keeps.other (h : Keeps deviceId latest pending) {other : DeviceId}
    (hother : other ≠ deviceId) (metric : String) (value : V) (t : ℚ) :
    Keeps deviceId (LiveBuffer.pushLatest latest (other, metric) value t) pending := by
  have hkept : ∀ m, LiveBuffer.kept (LiveBuffer.pushLatest latest (other, metric) value t)
      (deviceId, m) = LiveBuffer.kept latest (deviceId, m) := by
    intro m
    rw [LiveBuffer.kept_pushLatest, if_neg fun heq => hother (congrArg Prod.fst heq)]
  exact ⟨fun m x => hkept m ▸ h.source m x, fun r => hkept r.metric ▸ h.newest r⟩

theorem Keeps.push (h : Keeps deviceId latest pending) (r : Frame V) :
    Keeps deviceId (LiveBuffer.pushLatest latest (deviceId, r.metric) r.value (timestamp r.time))
      (pending ++ [r]) := by
  have hlast : r ∈ pending ++ [r] := List.mem_append_right _ (List.mem_singleton_self r)
  have hkept := LiveBuffer.kept_pushLatest latest (deviceId, r.metric)
  constructor
  · intro metric x hx
    rw [hkept] at hx
    split at hx
    · rename_i heq
      obtain rfl : r.metric = metric := congrArg Prod.snd heq
      split at hx
      · obtain rfl := Option.some.inj hx
        exact ⟨r, hlast, rfl, rfl⟩
      · obtain ⟨r', hr', hrest⟩ := h.source _ x hx
        exact ⟨r', List.mem_append_left _ hr', hrest⟩
    · obtain ⟨r', hr', hrest⟩ := h.source _ x hx
      exact ⟨r', List.mem_append_left _ hr', hrest⟩
  · intro other hother
    rw [hkept]
    split
    · rename_i heq
      have hmetric : r.metric = other.metric := congrArg Prod.snd heq
      split
      · rename_i hall
        refine ⟨_, rfl, ?_⟩
        rcases List.mem_append.mp hother with hold | hnew
        · obtain ⟨x, hx, hle⟩ := h.newest other hold
          exact hle.trans (hall x (hmetric ▸ hx))
        · rw [List.mem_singleton.mp hnew]
      · rename_i hsome
        -- what is kept is later than the reading that comes
        push Not at hsome
        obtain ⟨x, hx, hlt⟩ := hsome
        rw [hx]
        refine ⟨x, rfl, ?_⟩
        rcases List.mem_append.mp hother with hold | hnew
        · obtain ⟨x', hx', hle⟩ := h.newest other hold
          rw [← hmetric, hx] at hx'
          exact Option.some.inj hx' ▸ hle
        · rw [List.mem_singleton.mp hnew]
          exact hlt.le
    · rename_i hne
      rcases List.mem_append.mp hother with hold | hnew
      · exact h.newest other hold
      · rw [List.mem_singleton.mp hnew] at hne
        exact absurd rfl hne

variable (deviceId latest) in
/-- The readings of a batch are what was kept. -/
theorem applyLatest_batchOf (current : List (Reading V)) : ∃ readings,
    applyLatest deviceId (LiveBuffer.batchOf latest) current = reduce readings current ∧
      ∀ x, x ∈ readings ↔ ∃ metric, LiveBuffer.kept latest (deviceId, metric) = some x := by
  have hdevice : (LiveBuffer.batchOf latest).filter (fun x => x.1 = deviceId) =
      ((latest.get deviceId).map fun perMetric =>
        (deviceId, perMetric.items.map Prod.snd)).toList := by
    rw [LiveBuffer.batchOf, List.filter_map]
    simp only [Function.comp_def]
    rw [JsMap.filter_key]
    cases latest.get deviceId <;> rfl
  unfold applyLatest
  rw [hdevice]
  cases hget : latest.get deviceId with
  | none => exact ⟨[], rfl, by simp [LiveBuffer.kept, hget]⟩
  | some perMetric =>
    refine ⟨perMetric.items.map Prod.snd, rfl, fun x => ?_⟩
    simp only [LiveBuffer.kept, hget, Option.bind_some, JsMap.get_eq_some_iff, List.mem_map,
      Prod.exists, exists_eq_right]

/-- A flush, and what it makes the list stand for. -/
theorem StandsFor.flush (h : StandsFor seen rows) (hkeeps : Keeps deviceId latest pending) :
    StandsFor (seen ++ pending.map (·.toReading))
      (applyLatest deviceId (LiveBuffer.batchOf latest) rows) := by
  obtain ⟨readings, heq, hreadings⟩ := applyLatest_batchOf deviceId latest rows
  rw [heq]
  have hpatched := patched_reduce h.distinct readings
  refine ⟨hpatched.distinct, fun row hrow => ?_, fun r hr => ?_⟩
  · rcases hpatched.source row hrow with hold | hnew
    · obtain ⟨r, hr, hrest⟩ := h.stored row hold
      exact ⟨r, List.mem_append_left _ hr, hrest⟩
    · obtain ⟨x, hx, rfl⟩ := List.mem_map.mp hnew
      obtain ⟨metric, hkept⟩ := (hreadings x).mp hx
      obtain ⟨r, hr, -, rfl⟩ := hkeeps.source metric x hkept
      exact ⟨r.toReading, List.mem_append_right _ (List.mem_map.mpr ⟨r, hr, rfl⟩), rfl, rfl,
        (getTime_timestamp r).symm⟩
  · rcases List.mem_append.mp hr with hold | hnew
    · obtain ⟨row, hrow, hmetric, hle⟩ := h.newest r hold
      obtain ⟨row', hrow', hmetric', hle'⟩ := hpatched.keeps row (List.mem_append_left _ hrow)
      exact ⟨row', hrow', hmetric'.trans hmetric, hle.trans hle'⟩
    · obtain ⟨f, hf, rfl⟩ := List.mem_map.mp hnew
      obtain ⟨x, hkept, hle⟩ := hkeeps.newest f hf
      obtain ⟨source, -, hmetric, rfl⟩ := hkeeps.source _ x hkept
      obtain ⟨row', hrow', hmetric', hle'⟩ := hpatched.keeps _
        (List.mem_append_right _ (List.mem_map.mpr ⟨_, (hreadings _).mpr ⟨_, hkept⟩, rfl⟩))
      refine ⟨row', hrow', hmetric'.trans hmetric, ?_⟩
      rw [← getTime_timestamp f]
      exact (iso_mono (timestamp_pos f) hle).trans hle'

end

/-- What every step keeps. -/
structure Kept (deviceId : DeviceId) (s : Page V) : Prop where
  keeps : Keeps deviceId s.latest s.pending
  stands : ∀ rows, s.cached = some rows → StandsFor s.seen rows

theorem kept_of_reaches {deviceId : DeviceId} {s : Page V}
    (h : Reaches (step deviceId) Answers {} s) : Kept deviceId s := by
  have hstart : Kept deviceId ({} : Page V) := ⟨keeps_empty, fun rows hrows => by cases hrows⟩
  refine h.invariant hstart fun s e s' ih hok hs => ?_
  cases e with
  | frame other r =>
    obtain rfl := Option.some.inj hs
    refine ⟨?_, ih.stands⟩
    dsimp only
    split
    · rename_i heq
      subst heq
      exact ih.keeps.push r
    · rename_i hne
      exact ih.keeps.other hne _ _ _
  | flush =>
    obtain rfl := Option.some.inj hs
    refine ⟨keeps_empty, fun rows hrows => ?_⟩
    obtain ⟨before, hbefore, rfl⟩ := Option.map_eq_some_iff.mp hrows
    exact (ih.stands before hbefore).flush ih.keeps
  | clear =>
    obtain rfl := Option.some.inj hs
    exact ⟨keeps_empty, ih.stands⟩
  | answered table answer =>
    obtain rfl := Option.some.inj hs
    refine ⟨ih.keeps, fun rows hrows => ?_⟩
    obtain rfl := Option.some.inj hrows
    exact IsLatest.standsFor hok

/-- Two lists that stand for the same readings show the same times. -/
theorem StandsFor.shown_time {seen rows rows' : List (Reading V)} (h : StandsFor seen rows)
    (h' : StandsFor seen rows') {metric : String} {row : Reading V}
    (hrow : shown rows metric = some row) : ∃ row', shown rows' metric = some row' ∧
      getTime row.time = getTime row'.time := by
  obtain ⟨hmem, rfl⟩ := (shown_eq_some h.distinct).mp hrow
  obtain ⟨r, hr, hmetric, -, htime⟩ := h.stored row hmem
  obtain ⟨row', hmem', hmetric', hle⟩ := h'.newest r hr
  obtain ⟨r', hr', hback, -, htime'⟩ := h'.stored row' hmem'
  obtain ⟨row'', hmem'', hagain, hle'⟩ := h.newest r' hr'
  have hsame : row'' = row := List.inj_on_of_nodup_map h.distinct hmem'' hmem
    (hagain.trans (hback.trans (hmetric'.trans hmetric)))
  refine ⟨row', (shown_eq_some h'.distinct).mpr ⟨hmem', hmetric'.trans hmetric⟩, ?_⟩
  refine le_antisymm (htime ▸ hle) ?_
  rw [← htime', ← hsame]
  exact hle'

/-- **Patching shows what fetching again would have shown**: the same metrics with the same times,
to the millisecond, and the same value for a metric whose readings of one millisecond agree. -/
theorem patched_eq_fetched {deviceId : DeviceId} {s : Page V} {rows again : List (Reading V)}
    (h : Reaches (step deviceId) Answers {} s) (hcached : s.cached = some rows)
    (hagain : IsLatest s.seen again) (metric : String) :
    (shown rows metric).map (fun r => getTime r.time) =
      (shown again metric).map (fun r => getTime r.time) ∧
    ((∀ r ∈ s.seen, ∀ r' ∈ s.seen, r.metric = metric → r'.metric = metric →
        getTime r.time = getTime r'.time → r.value = r'.value) →
      (shown rows metric).map (·.value) = (shown again metric).map (·.value)) := by
  have hpatched := (kept_of_reaches h).stands rows hcached
  have hfetched := hagain.standsFor
  cases hshown : shown rows metric with
  | none =>
    cases hother : shown again metric with
    | none => exact ⟨rfl, fun _ => rfl⟩
    | some row =>
      obtain ⟨row', hrow', -⟩ := hfetched.shown_time hpatched hother
      rw [hshown] at hrow'
      cases hrow'
  | some row =>
    obtain ⟨row', hrow', htime⟩ := hpatched.shown_time hfetched hshown
    rw [hrow', Option.map_some, Option.map_some, htime]
    refine ⟨rfl, fun hagree => ?_⟩
    obtain ⟨hmem, hmetric⟩ := (shown_eq_some hpatched.distinct).mp hshown
    obtain ⟨hmem', hmetric'⟩ := (shown_eq_some hfetched.distinct).mp hrow'
    obtain ⟨r, hr, hrm, hrv, hrt⟩ := hpatched.stored row hmem
    obtain ⟨r', hr', hrm', hrv', hrt'⟩ := hfetched.stored row' hmem'
    have hvalue := hagree r hr r' hr' (hrm.trans hmetric) (hrm'.trans hmetric')
      (hrt.trans (htime.trans hrt'.symm))
    rw [Option.map_some, Option.map_some, ← hrv, ← hrv', hvalue]

/-- The board of `outOfOrder`. -/
def board : DeviceId := ⟨"a", by decide⟩

/-- A board's list is fetched; two frames come in the wrong order, and one of another board. -/
def outOfOrder : List (Event Int) :=
  [.answered [⟨"temp", 21, 1700000000000000⟩] [⟨"temp", 21, 1700000000000000⟩],
    .frame board ⟨⟨"temp", 23, 1700000002000123⟩, by decide, by decide⟩,
    .frame ⟨"b", by decide⟩ ⟨⟨"temp", 5, 1700000003000000⟩, by decide, by decide⟩,
    .flush,
    .frame board ⟨⟨"temp", 22, 1700000001000000⟩, by decide, by decide⟩,
    .flush]

def orderedPage : Page Int := (run (step board) {} outOfOrder).getD {}

theorem patched_eq_fetched_outOfOrder :
    (shown (orderedPage.cached.getD []) "temp").map (·.value) = some 23 := by
  have hrun : run (step board) {} outOfOrder = some orderedPage := rfl
  have hanswers : ∀ e ∈ outOfOrder, ∀ s, Answers s e := by
    have hanswer : IsLatest [⟨"temp", (21 : Int), 1700000000000000⟩]
        [⟨"temp", 21, 1700000000000000⟩] := ⟨by decide, by simp, by simp⟩
    simp only [outOfOrder, List.forall_mem_cons, Answers]
    exact ⟨fun _ => hanswer, by simp⟩
  have hseen : orderedPage.seen = [⟨"temp", 21, 1700000000000000⟩,
      ⟨"temp", 23, 1700000002000123⟩, ⟨"temp", 22, 1700000001000000⟩] := rfl
  have hagain : IsLatest orderedPage.seen [⟨"temp", 23, 1700000002000123⟩] := by
    rw [hseen]
    exact ⟨by decide, by simp, by simp⟩
  refine ((patched_eq_fetched (.of_run_of_forall hrun hanswers) rfl hagain "temp").2 ?_).trans rfl
  rw [hseen]
  simp [getTime]

end IotSaas.Realtime.LatestCache
