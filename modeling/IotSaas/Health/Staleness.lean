import IotSaas.Catalog.Keys
import IotSaas.Ingestion.Service
import IotSaas.Lib.Reach
import IotSaas.Rules.Cache

/-!
# `Health/Staleness.lean` — from templates to staleness bounds

Three layers. The API stores catalog entries and devices (`apply`): an interval is any positive
integer. `list_active_metric_publish_profiles` reads them back in SQL, across all tenants at once,
and casts each interval to a 32-bit `integer`; a cast that fails fails the query. Python makes a
dictionary of the rows (`staleness`).

`thresholds_complete_iff` says when the dictionary is the one it should be: each active device's
metric under its own bound, whatever order the rows come in. A query that fails has no dictionary,
and the loop that made it, which recovers from `RedisError` only, ends.

Nothing here depends on whose an entry or a device is, so tenants are left out; so is the check that
a template picked for a new device is an active one, which only narrows what can be stored.
-/

set_option autoImplicit false

namespace IotSaas.Health

open Lib Rules Ingestion Catalog

/-! ## What the API stores -/

structure Entry where
  id : Uuid
  metrics : List CatalogMetric

structure Device where
  id : Uuid
  catalogEntryId : Uuid
  status : DeviceStatus

structure Db where
  entries : List Entry := []
  devices : List Device := []

/-- The routes that write entries and devices. A new row's id is a fresh `uuid4`. -/
inductive Request where
  | createEntry (id : Uuid) (metrics : List CatalogMetric)
  | updateEntry (id : Uuid) (metrics : List CatalogMetric)
  | deleteEntry (id : Uuid)
  | createDevice (id entryId : Uuid)
  | setStatus (id : Uuid) (status : DeviceStatus)
  | deleteDevice (id : Uuid)

def findEntry (db : Db) (id : Uuid) : Option Entry := db.entries.find? fun e => e.id = id

/-- `_keys_of`. -/
def keysOf (metrics : List CatalogMetric) : List String :=
  (metrics.filterMap CatalogMetric.key).filter fun key => key ≠ ""

/-- `create_catalog_entry`, `update_catalog_entry`, `create_device` and their like; `none` is a
refusal. -/
def apply (folding : CaseFolding) (db : Db) : Request → Option Db
  | .createEntry id metrics =>
      if metrics.all CatalogMetric.accepted = true ∧ id ∉ db.entries.map (·.id) then
        match normalizeMetrics folding metrics [] with
        | .error _ => none
        | .ok normalized => some { db with entries := db.entries ++ [⟨id, normalized⟩] }
      else none
  | .updateEntry id metrics =>
      match findEntry db id with
      | none => none
      | some entry =>
          if metrics.all CatalogMetric.accepted then
            match normalizeMetrics folding metrics (keysOf entry.metrics) with
            | .error _ => none
            | .ok normalized =>
                some { db with
                  entries := db.entries.map fun e => if e.id = id then ⟨id, normalized⟩ else e }
          else none
  | .deleteEntry id =>
      -- the foreign key refuses to drop an entry that devices reference
      if id ∈ db.devices.map (·.catalogEntryId) then none
      else some { db with entries := db.entries.filter fun e => e.id ≠ id }
  | .createDevice id entryId =>
      if id ∉ db.devices.map (·.id) ∧ (findEntry db entryId).isSome then
        some { db with devices := db.devices ++ [⟨id, entryId, .active⟩] }
      else none
  | .setStatus id status =>
      some { db with
        devices := db.devices.map fun d => if d.id = id then { d with status := status } else d }
  | .deleteDevice id => some { db with devices := db.devices.filter fun d => d.id ≠ id }

/-! ## The SQL function -/

/-- `::integer`. -/
def castInteger (i : Int) : Option Int :=
  if -2147483648 ≤ i ∧ i < 2147483648 then some i else none

/-- A row of `list_active_metric_publish_profiles()`. -/
structure ProfileRow where
  deviceId : Uuid
  metric : Option String
  publish : PublishProfile
  publishIntervalSeconds : Option Int

/-- The select list, over one metric of one device; `none` when the cast fails. -/
def profileRow (deviceId : Uuid) (m : CatalogMetric) : Option ProfileRow :=
  match m.publishIntervalSeconds with
  | none => some ⟨deviceId, m.key, m.publish, none⟩
  | some i => (castInteger i).map fun i => ⟨deviceId, m.key, m.publish, some i⟩

/-- A query fails when one of its rows does. -/
def allRows : List (Option ProfileRow) → Option (List ProfileRow)
  | [] => some []
  | none :: _ => none
  | some row :: rest => (allRows rest).map (row :: ·)

/-- The join: every metric of every active device's entry. -/
def activeMetrics (db : Db) : List (Uuid × CatalogMetric) :=
  (db.devices.filter fun d => d.status = .active).flatMap fun d =>
    (db.entries.filter fun e => e.id = d.catalogEntryId).flatMap fun e =>
      e.metrics.map fun m => (d.id, m)

/-- `list_active_metric_publish_profiles()`, in some order. -/
def listActiveMetricPublishProfiles (db : Db) : Option (List ProfileRow) :=
  allRows ((activeMetrics db).map fun p => profileRow p.1 p.2)

/-! ## The bounds -/

/-- `_STALENESS_INTERVAL_MULTIPLIER`. -/
def stalenessIntervalMultiplier : Int := 3

/-- `_ON_CHANGE_MAX_AGE_SECONDS`. -/
def onChangeMaxAgeSeconds : Int := 24 * 60 * 60

/-- `derive_max_age`. -/
def deriveMaxAge (publish : PublishProfile) (publishIntervalSeconds : Option Int) : Int :=
  if publish = .onChange then onChangeMaxAgeSeconds
  else
    match publishIntervalSeconds with
    | none => defaultStaleMetricAgeSeconds
    | some interval =>
        if interval = 0 then defaultStaleMetricAgeSeconds
        else interval * stalenessIntervalMultiplier

/-- The items of the loop over the rows; a row without a key is skipped. -/
def thresholdItem (row : ProfileRow) : Option (SignalKey × Int) :=
  match row.metric with
  | none => none
  | some metric =>
      if metric = "" then none
      else some (⟨row.deviceId, metric⟩, deriveMaxAge row.publish row.publishIntervalSeconds)

/-- `compute_staleness_thresholds`, given the rows its query returned. -/
def staleness (rows : List ProfileRow) : Dict SignalKey Int :=
  .ofList (rows.filterMap thresholdItem)

/-- The query succeeds, and in whatever order its rows come, every metric of every active device is
under the bound of its own profile and interval. -/
def ThresholdsComplete (db : Db) : Prop :=
  ∃ rows, listActiveMetricPublishProfiles db = some rows ∧
    ∀ rows' : List ProfileRow, rows'.Perm rows →
      ∀ d ∈ db.devices, d.status = .active → ∀ e ∈ db.entries, e.id = d.catalogEntryId →
        ∀ m ∈ e.metrics, ∃ key, m.key = some key ∧
          (staleness rows').get ⟨d.id, key⟩ =
            some (deriveMaxAge m.publish m.publishIntervalSeconds)

/-- Every interval an active device's entry states fits the cast. -/
def IntervalsFit (db : Db) : Prop :=
  ∀ d ∈ db.devices, d.status = .active → ∀ e ∈ db.entries, e.id = d.catalogEntryId →
    ∀ m ∈ e.metrics, ∀ i, m.publishIntervalSeconds = some i → i < 2147483648

/-! ## What is stored, in every history -/

/-- Ids are unique, and every entry is keyed with positive intervals. -/
structure Stored (db : Db) : Prop where
  entryIds : (db.entries.map (·.id)).Nodup
  deviceIds : (db.devices.map (·.id)).Nodup
  keyed : ∀ e ∈ db.entries, Keyed e.metrics
  positive : ∀ e ∈ db.entries, ∀ m ∈ e.metrics, ∀ i, m.publishIntervalSeconds = some i → 0 < i

theorem nodup_snoc {α : Type} {l : List α} {a : α} (hl : l.Nodup) (ha : a ∉ l) :
    (l ++ [a]).Nodup := by
  apply List.nodup_append.mpr
  refine ⟨hl, List.nodup_cons.mpr ⟨List.not_mem_nil, List.nodup_nil⟩, ?_⟩
  intro b hb c hc hbc
  obtain rfl := List.mem_singleton.mp hc
  exact ha (hbc ▸ hb)

/-- What normalizing accepted metrics leaves: distinct keys, positive intervals. -/
theorem normalized_fit {folding : CaseFolding} {metrics normalized : List CatalogMetric}
    {existing : List String} (haccepted : metrics.all CatalogMetric.accepted = true)
    (hnorm : normalizeMetrics folding metrics existing = .ok normalized) :
    Keyed normalized ∧
      ∀ m ∈ normalized, ∀ i, m.publishIntervalSeconds = some i → 0 < i := by
  obtain ⟨hkeyed, hfrom⟩ := normalizeMetrics_keyed hnorm
  refine ⟨hkeyed, ?_⟩
  intro m hm i hi
  obtain ⟨item, hitem, heq⟩ := hfrom m hm
  exact CatalogMetric.accepted_positive (List.all_eq_true.mp haccepted item hitem) (heq ▸ hi)

/-- A change of rows that keeps their ids keeps the list of ids. -/
theorem map_ids {α : Type} {id : α → Uuid} {change : α → α} (rows : List α)
    (h : ∀ row, id (change row) = id row) : (rows.map change).map id = rows.map id := by
  rw [List.map_map]
  apply List.map_congr_left
  intro row _
  exact h row

theorem stored_apply {folding : CaseFolding} {db db' : Db} {request : Request} (h : Stored db)
    (hs : apply folding db request = some db') : Stored db' := by
  cases request with
  | createEntry id metrics =>
    obtain ⟨hguard, hs⟩ := Option.ite_none_right_eq_some.mp hs
    split at hs
    · cases hs
    · rename_i normalized hnorm
      cases hs
      obtain ⟨hkeyed, hpositive⟩ := normalized_fit hguard.1 hnorm
      refine ⟨?_, h.deviceIds, fun e he => ?_, fun e he => ?_⟩
      · rw [List.map_append]
        exact nodup_snoc h.entryIds hguard.2
      · rcases List.mem_append.mp he with he | he
        · exact h.keyed e he
        · rw [List.mem_singleton.mp he]
          exact hkeyed
      · rcases List.mem_append.mp he with he | he
        · exact h.positive e he
        · rw [List.mem_singleton.mp he]
          exact hpositive
  | updateEntry id metrics =>
    unfold apply at hs
    dsimp only at hs
    split at hs
    · cases hs
    · split at hs
      · rename_i haccepted
        split at hs
        · cases hs
        · rename_i normalized hnorm
          cases hs
          obtain ⟨hkeyed, hpositive⟩ := normalized_fit haccepted hnorm
          refine ⟨?_, h.deviceIds, fun e he => ?_, fun e he => ?_⟩
          · dsimp only
            -- An edit keeps the id of the entry it writes.
            rw [map_ids]
            · exact h.entryIds
            · intro e
              split
              · rename_i heq
                exact heq.symm
              · rfl
          · obtain ⟨e', he', rfl⟩ := List.mem_map.mp he
            split
            · exact hkeyed
            · exact h.keyed e' he'
          · obtain ⟨e', he', rfl⟩ := List.mem_map.mp he
            split
            · exact hpositive
            · exact h.positive e' he'
      · cases hs
  | deleteEntry id =>
    obtain ⟨-, hs⟩ := Option.ite_none_left_eq_some.mp hs
    cases hs
    exact ⟨h.entryIds.sublist ((List.filter_sublist).map _), h.deviceIds,
      fun e he => h.keyed e (List.mem_of_mem_filter he),
      fun e he => h.positive e (List.mem_of_mem_filter he)⟩
  | createDevice id entryId =>
    obtain ⟨hguard, hs⟩ := Option.ite_none_right_eq_some.mp hs
    cases hs
    refine ⟨h.entryIds, ?_, h.keyed, h.positive⟩
    rw [List.map_append]
    exact nodup_snoc h.deviceIds hguard.1
  | setStatus id status =>
    cases hs
    refine ⟨h.entryIds, ?_, h.keyed, h.positive⟩
    dsimp only
    rw [map_ids]
    · exact h.deviceIds
    · intro d
      split <;> rfl
  | deleteDevice id =>
    cases hs
    exact ⟨h.entryIds, h.deviceIds.sublist ((List.filter_sublist).map _), h.keyed, h.positive⟩

/-- A database the API can leave. -/
def Reachable (folding : CaseFolding) (db : Db) : Prop := Reaches (apply folding) Always {} db

theorem Reachable.stored {folding : CaseFolding} {db : Db} (h : Reachable folding db) :
    Stored db :=
  have hempty : Stored {} :=
    ⟨List.nodup_nil, List.nodup_nil, fun _ he => (nomatch he), fun _ he => (nomatch he)⟩
  Reaches.invariant h hempty fun _ _ _ ih _ hs => stored_apply ih hs

/-! ## The rows -/

/-- Device and key, as a row has them. -/
def rowKey (p : Uuid × CatalogMetric) : Uuid × Option String := (p.1, p.2.key)

theorem mem_activeMetrics {db : Db} {p : Uuid × CatalogMetric} :
    p ∈ activeMetrics db ↔ ∃ d ∈ db.devices, d.status = .active ∧
      ∃ e ∈ db.entries, e.id = d.catalogEntryId ∧ p.1 = d.id ∧ p.2 ∈ e.metrics := by
  simp only [activeMetrics, List.mem_flatMap, List.mem_filter, List.mem_map, decide_eq_true_eq]
  constructor
  · rintro ⟨d, ⟨hd, hactive⟩, e, ⟨he, hid⟩, m, hm, rfl⟩
    exact ⟨d, hd, hactive, e, he, hid, rfl, hm⟩
  · rintro ⟨d, hd, hactive, e, he, hid, hp, hm⟩
    exact ⟨d, ⟨hd, hactive⟩, e, ⟨he, hid⟩, p.2, hm, by rw [← hp]⟩

/-- Items of a list with distinct ids, all of one id: there is at most one. -/
theorem pairwise_of_same {α : Type} (ids : α → Uuid) {l : List α} (hnodup : (l.map ids).Nodup)
    {id : Uuid} (hsame : ∀ a ∈ l, ids a = id) (R : α → α → Prop) : l.Pairwise R := by
  induction l with
  | nil => exact List.Pairwise.nil
  | cons a rest ih =>
    rw [List.map_cons] at hnodup
    obtain ⟨hfresh, hrest⟩ := List.nodup_cons.mp hnodup
    refine List.pairwise_cons.mpr ⟨fun b hb => ?_,
      ih hrest fun c hc => hsame c (List.mem_cons_of_mem _ hc)⟩
    have hab : ids b = ids a :=
      (hsame b (List.mem_cons_of_mem _ hb)).trans (hsame a List.mem_cons_self).symm
    exact absurd (hab ▸ List.mem_map_of_mem hb) hfresh

/-- **No two rows have the same device and key.** -/
theorem rowKeys_nodup {db : Db} (h : Stored db) : ((activeMetrics db).map rowKey).Nodup := by
  unfold activeMetrics
  rw [List.map_flatMap]
  apply List.nodup_flatMap.mpr
  constructor
  · intro d hd
    rw [List.map_flatMap]
    apply List.nodup_flatMap.mpr
    constructor
    · intro e he
      rw [List.map_map]
      have hkeys := (h.keyed e (List.mem_of_mem_filter he)).nodup
      have hpair : e.metrics.map (rowKey ∘ fun m => (d.id, m)) =
          (e.metrics.map CatalogMetric.key).map fun key => (d.id, key) := by
        rw [List.map_map]
        rfl
      rw [hpair]
      exact hkeys.map fun _ _ hab => (Prod.mk.inj hab).2
    · exact pairwise_of_same (fun e : Entry => e.id)
        (h.entryIds.sublist ((List.filter_sublist).map _))
        (fun e he => by simpa using (List.mem_filter.mp he).2) _
  · have hdevices : (db.devices.filter fun d => d.status = .active).Pairwise
        fun a b => a.id ≠ b.id := by
      have hnodup := h.deviceIds.sublist
        ((List.filter_sublist (p := fun d : Device => d.status = .active)).map (·.id))
      exact List.pairwise_map.mp hnodup
    refine hdevices.imp fun {a b} hab => ?_
    intro x hxa hxb
    have hfst : ∀ (d : Device) (l : List Entry),
        x ∈ (l.flatMap fun e => e.metrics.map fun m => (d.id, m)).map rowKey → x.1 = d.id := by
      intro d l hx
      obtain ⟨p, hp, rfl⟩ := List.mem_map.mp hx
      obtain ⟨e, _, hm⟩ := List.mem_flatMap.mp hp
      obtain ⟨m, _, rfl⟩ := List.mem_map.mp hm
      rfl
    exact hab ((hfst a _ hxa).symm.trans (hfst b _ hxb))

theorem allRows_eq_some {rows : List (Option ProfileRow)} {out : List ProfileRow} :
    allRows rows = some out ↔ rows = out.map some := by
  induction rows generalizing out with
  | nil => cases out <;> simp [allRows]
  | cons row rest ih =>
    cases row with
    | none => cases out <;> simp [allRows]
    | some row =>
      rw [allRows, Option.map_eq_some_iff]
      constructor
      · rintro ⟨out', hout', rfl⟩
        rw [List.map_cons, ih.mp hout']
      · intro h
        cases out with
        | nil => cases h
        | cons row' out' =>
          rw [List.map_cons, List.cons.injEq] at h
          obtain rfl := Option.some.inj h.1
          exact ⟨out', ih.mpr h.2, rfl⟩

/-- The row of a metric whose interval fits. -/
def plainRow (p : Uuid × CatalogMetric) : ProfileRow :=
  ⟨p.1, p.2.key, p.2.publish, p.2.publishIntervalSeconds⟩

theorem profileRow_isSome (deviceId : Uuid) {m : CatalogMetric}
    (hpos : ∀ i, m.publishIntervalSeconds = some i → 0 < i) :
    (∃ row, profileRow deviceId m = some row) ↔
      ∀ i, m.publishIntervalSeconds = some i → i < 2147483648 := by
  unfold profileRow
  cases hi : m.publishIntervalSeconds with
  | none => simp
  | some i =>
    have hlow := hpos i hi
    simp only [castInteger, Option.map_eq_some_iff, Option.some.injEq]
    constructor
    · rintro ⟨row, j, hj, _⟩ k rfl
      obtain ⟨hfit, hj⟩ := Option.ite_none_right_eq_some.mp hj
      exact hfit.2
    · intro h
      have hfit : -2147483648 ≤ i ∧ i < 2147483648 := ⟨by omega, h i rfl⟩
      exact ⟨_, i, by rw [if_pos hfit], rfl⟩

theorem profileRow_plain {p : Uuid × CatalogMetric} {row : ProfileRow}
    (h : profileRow p.1 p.2 = some row) : row = plainRow p := by
  unfold profileRow at h
  unfold plainRow
  cases hi : p.2.publishIntervalSeconds with
  | none =>
    rw [hi] at h
    exact (Option.some.inj h).symm
  | some i =>
    rw [hi] at h
    obtain ⟨j, hj, rfl⟩ := Option.map_eq_some_iff.mp h
    obtain ⟨-, hj⟩ := Option.ite_none_right_eq_some.mp hj
    rw [Option.some.inj hj]

/-- **When no template stops the reload.** In every database the API can leave: the query succeeds
and every active device's metric is under its own bound exactly when every interval stated by an
active device's entry is below 2³¹. -/
theorem thresholds_complete_iff (folding : CaseFolding) {db : Db} (h : Reachable folding db) :
    ThresholdsComplete db ↔ IntervalsFit db := by
  have hstored := h.stored
  constructor
  · rintro ⟨rows, hrows, _⟩ d hd hactive e he hid m hm
    have hmem : (d.id, m) ∈ activeMetrics db :=
      mem_activeMetrics.mpr ⟨d, hd, hactive, e, he, hid, rfl, hm⟩
    have hrow : profileRow d.id m ∈ rows.map some := by
      rw [← allRows_eq_some.mp hrows]
      exact List.mem_map.mpr ⟨_, hmem, rfl⟩
    obtain ⟨row, _, hsome⟩ := List.mem_map.mp hrow
    exact (profileRow_isSome d.id (hstored.positive e he m hm)).mp ⟨row, hsome.symm⟩
  · intro hfit
    have hplain : ∀ p ∈ activeMetrics db, profileRow p.1 p.2 = some (plainRow p) := by
      intro p hp
      obtain ⟨d, hd, hactive, e, he, hid, hfst, hm⟩ := mem_activeMetrics.mp hp
      obtain ⟨row, hrow⟩ := (profileRow_isSome p.1
        (hstored.positive e he p.2 hm)).mpr (hfit d hd hactive e he hid p.2 hm)
      rw [hrow, profileRow_plain hrow]
    refine ⟨(activeMetrics db).map plainRow, ?_, fun rows' hperm d hd hactive e he hid m hm => ?_⟩
    · apply allRows_eq_some.mpr
      rw [List.map_map]
      exact List.map_congr_left hplain
    · obtain ⟨key, hne, hkey⟩ := (hstored.keyed e he).every m hm
      refine ⟨key, hkey, Dict.get_ofList ?_ ?_⟩
      · -- the keys of the items are distinct, in any order of the rows
        refine ((hperm.filterMap thresholdItem).map Prod.fst).nodup_iff.mpr ?_
        have hitems : ((activeMetrics db).map plainRow |>.filterMap thresholdItem).map Prod.fst =
            ((activeMetrics db).map rowKey).filterMap fun k =>
              match k.2 with
              | none => none
              | some metric => if metric = "" then none else some ⟨k.1, metric⟩ := by
          rw [List.filterMap_map, List.filterMap_map, List.map_filterMap]
          apply List.filterMap_congr
          intro p _
          show (thresholdItem (plainRow p)).map Prod.fst = _
          unfold thresholdItem plainRow
          dsimp only [Function.comp, rowKey]
          cases p.2.key with
          | none => rfl
          | some metric =>
            dsimp only
            split <;> rfl
        rw [hitems]
        refine (rowKeys_nodup hstored).filterMap fun a b s ha hb => ?_
        obtain ⟨a1, a2⟩ := a
        obtain ⟨b1, b2⟩ := b
        cases a2 <;> cases b2 <;> simp at ha hb
        rename_i x y
        obtain ⟨_, rfl⟩ := ha
        obtain ⟨_, hs⟩ := hb
        rw [SignalKey.mk.injEq] at hs
        rw [hs.1, hs.2]
      · refine List.mem_filterMap.mpr ⟨plainRow (d.id, m), hperm.mem_iff.mpr ?_, ?_⟩
        · exact List.mem_map_of_mem
            (mem_activeMetrics.mpr ⟨d, hd, hactive, e, he, hid, rfl, hm⟩)
        · simp [thresholdItem, plainRow, hkey, hne]

/-! ## Two tenants -/

theorem toLower_slug {c : Char} (h : isSlugChar c = true) : c.toLower = c := by
  have hnot : ¬ (65 ≤ c.toNat ∧ c.toNat ≤ 90) := by
    simp only [isSlugChar, isSlugAlnum, between, Bool.or_eq_true, Bool.and_eq_true,
      decide_eq_true_eq] at h
    rcases h with (⟨hlo, hhi⟩ | ⟨hlo, hhi⟩) | rfl
    · have hlo' : 97 ≤ c.toNat := hlo
      omega
    · have hhi' : c.toNat ≤ 57 := hhi
      omega
    · decide
  unfold Char.toLower
  split
  · rename_i hupper
    exact absurd ⟨UInt32.le_iff_toNat_le.mp hupper.1, UInt32.le_iff_toNat_le.mp hupper.2⟩ hnot
  · rfl

/-- Lower case, on ASCII. -/
def asciiFolding : CaseFolding where
  lower s := String.ofList (s.toList.map Char.toLower)
  lower_slug s h := by
    rw [List.map_congr_left fun c hc => toLower_slug (h c hc), List.map_id', String.ofList_toList]

def temperature (interval : Int) : CatalogMetric :=
  { name := "Temperature", key := some "temperature", publishIntervalSeconds := some interval }

/-- Two templates with one device each, the second publishing every `interval` seconds. -/
def twoTenants (interval : Int) : Db :=
  { entries := [⟨"entry-1", [temperature 30]⟩, ⟨"entry-2", [temperature interval]⟩]
    devices := [⟨"device-1", "entry-1", .active⟩, ⟨"device-2", "entry-2", .active⟩] }

theorem twoTenants_reachable {interval : Int} (h : 0 < interval) :
    Reachable asciiFolding (twoTenants interval) := by
  have hlengths : (decide (1 ≤ "Temperature".length) && decide ("Temperature".length ≤ 100) &&
      decide ("temperature".length ≤ 100)) = true := by decide
  have haccepted : [temperature interval].all CatalogMetric.accepted = true := by
    simp only [List.all_cons, List.all_nil, Bool.and_true, CatalogMetric.accepted, temperature,
      Option.all_some, h, decide_true]
    exact hlengths
  have hcreated : apply asciiFolding
      { entries := [⟨"entry-1", [temperature 30]⟩]
        devices := [⟨"device-1", "entry-1", .active⟩] }
      (.createEntry "entry-2" [temperature interval]) =
      some
        { entries := [⟨"entry-1", [temperature 30]⟩, ⟨"entry-2", [temperature interval]⟩]
          devices := [⟨"device-1", "entry-1", .active⟩] } := by
    unfold apply
    dsimp only
    rw [if_pos ⟨haccepted, by decide⟩]
    rfl
  exact .next (.next (.next (.next .start
    (e := .createEntry "entry-1" [temperature 30]) trivial rfl)
    (e := .createDevice "device-1" "entry-1") trivial rfl)
    (e := .createEntry "entry-2" [temperature interval]) trivial hcreated)
    (e := .createDevice "device-2" "entry-2") trivial rfl

/-- Thirty seconds and a minute: both devices are under their own bounds. -/
theorem thresholds_complete_twoTenants : ThresholdsComplete (twoTenants 60) :=
  (thresholds_complete_iff asciiFolding (twoTenants_reachable (by decide))).mpr (by
    intro d _ _ e he _ m hm i hi
    rcases List.mem_cons.mp he with rfl | he
    · obtain rfl := List.mem_singleton.mp hm
      obtain rfl := Option.some.inj hi
      decide
    · obtain rfl := List.mem_singleton.mp he
      obtain rfl := List.mem_singleton.mp hm
      obtain rfl := Option.some.inj hi
      decide)

/-- **One template stops the reload for everyone:** an interval of 2³¹ seconds passes the schema,
and the query that reads every tenant's profiles fails on it. -/
theorem one_interval_stops_all :
    ¬ ∀ db, Reachable asciiFolding db → ThresholdsComplete db := by
  intro h
  obtain ⟨rows, hrows, _⟩ := h (twoTenants 2147483648) (twoTenants_reachable (by decide))
  have hnone : listActiveMetricPublishProfiles (twoTenants 2147483648) = none := rfl
  rw [hnone] at hrows
  cases hrows

end IotSaas.Health
