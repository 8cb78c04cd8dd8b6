import IotSaas.Lib.Base64
import IotSaas.Lib.Paging
import IotSaas.Lib.Zipped
import IotSaas.Realtime.Dumps
import IotSaas.Rules.Model
import Mathlib.Algebra.BigOperators.Group.List.Lemmas
import Mathlib.Data.Prod.Lex
import Mathlib.Data.String.Basic

/-!
# `Notifications/Groups.lean` — the grouped feed, page by page

`list_groups` groups a tenant's undismissed notifications by what they are about and pages through
the groups, and `list_group_items` lists the notifications of one, found again by an opaque key.
The database may answer rows that an `ORDER BY` leaves equal in any order, and each page is a query
of its own, so an answer is an argument of each page.

The key is exact: it decodes to the columns it was made of, and selects the notifications that were
counted. The pages are not: `ORDER BY last_at DESC, kind, message` leaves groups equal that differ
in rule, device or template. They are exact for the feeds in which no page ends between two such
groups (`groups_exact_iff`).
-/

set_option autoImplicit false

namespace IotSaas.Notifications

open Lib
open Rules (Datetime Uuid)
open Realtime (PyNumber dumps numerals parse_dumps)

/-! ## Rows -/

inductive NotificationKind where
  | ruleFired | ruleCleared | ruleHealth | deviceOffline | deliveryFailed | templateChanged
  deriving DecidableEq

def NotificationKind.text : NotificationKind → String
  | .ruleFired => "rule_fired"
  | .ruleCleared => "rule_cleared"
  | .ruleHealth => "rule_health"
  | .deviceOffline => "device_offline"
  | .deliveryFailed => "delivery_failed"
  | .templateChanged => "template_changed"

/-- The kinds a `Literal` check accepts. -/
def NotificationKind.ofText (text : String) : Option NotificationKind :=
  [.ruleFired, .ruleCleared, .ruleHealth, .deviceOffline, .deliveryFailed, .templateChanged].find?
    fun kind => kind.text = text

/-- The columns of `notifications` that are read without a filter. -/
structure Notification where
  id : Uuid
  tenantId : Uuid
  deviceId : Option Uuid := none
  ruleId : Option Uuid := none
  catalogEntryId : Option Uuid := none
  message : String
  kind : NotificationKind := .ruleFired
  createdAt : Datetime
  readAt : Option Datetime := none
  dismissedAt : Option Datetime := none
  deriving DecidableEq

/-- The table. `id` is its primary key. -/
structure NotificationTable where
  rows : List Notification
  nodup : (rows.map (·.id)).Nodup

/-! ## Keys -/

structure GroupKey where
  kind : NotificationKind
  ruleId : Option Uuid
  deviceId : Option Uuid
  catalogEntryId : Option Uuid
  message : String
  deriving DecidableEq

/-- `_GROUP_COLUMNS` of a row. -/
def groupKey (n : Notification) : GroupKey :=
  { kind := n.kind
    ruleId := n.ruleId
    deviceId := n.deviceId
    catalogEntryId := n.catalogEntryId
    message := n.message }

/-- `str(id) if id else None`. -/
def idToJson {N : Type} (id : Option Uuid) : Json N := (id.map .str).getD .null

/-- The list that `encode_group_key` prints. -/
def keyToJson {N : Type} (key : GroupKey) : Json N :=
  .arr [.str key.kind.text, idToJson key.ruleId, idToJson key.deviceId,
    idToJson key.catalogEntryId, .str key.message]

/-- `text.encode()`. -/
def utf8 (text : String) : List UInt8 := text.toUTF8.data.toList

/-- `encode_group_key`. -/
def encodeGroupKey (key : GroupKey) : String :=
  String.ofList (Base64.unpadded (Base64.encode (utf8 (String.ofList (dumps (keyToJson key))))))

/-- A `uuid.UUID | None`. -/
def idOfJson (parseUuid : String → Option Uuid) : Json (List Char) → Option (Option Uuid)
  | .null => some none
  | .str s => (parseUuid s).map some
  | _ => none

/-- What `_KEY_ADAPTER` makes of a document. -/
def keyOfJson (parseUuid : String → Option Uuid) : Json (List Char) → Option GroupKey
  | .arr [.str kind, ruleId, deviceId, catalogEntryId, .str message] => do
      let kind ← NotificationKind.ofText kind
      let ruleId ← idOfJson parseUuid ruleId
      let deviceId ← idOfJson parseUuid deviceId
      let catalogEntryId ← idOfJson parseUuid catalogEntryId
      return ⟨kind, ruleId, deviceId, catalogEntryId, message⟩
  | _ => none

/-- `decode_group_key`, `none` for an `InvalidGroupKeyError`. -/
def decodeGroupKey (parseUuid : String → Option Uuid) (token : String) : Option GroupKey := do
  let bytes ← Base64.decode (Base64.padded token.toList)
  let text ← String.fromUTF8? ⟨bytes.toArray⟩
  let raw ← JsonText.parse text.toList
  keyOfJson parseUuid raw

/-- `column.is_(None) if value is None else column == value`. -/
def nullSafeEq (column value : Option Uuid) : Bool :=
  match value with
  | none => column.isNone
  | some v => decide (column = some v)

/-- `_matches_key`. -/
def matchesKey (key : GroupKey) (n : Notification) : Bool :=
  decide (n.kind = key.kind) && nullSafeEq n.ruleId key.ruleId &&
    nullSafeEq n.deviceId key.deviceId && nullSafeEq n.catalogEntryId key.catalogEntryId &&
    decide (n.message = key.message)

/-! ## Queries -/

/-- `_feed`: a tenant's notifications that are not dismissed. -/
def feed (table : NotificationTable) (tenantId : Uuid) : List Notification :=
  table.rows.filter fun n => n.tenantId = tenantId ∧ n.dismissedAt = none

/-- `ORDER BY created_at DESC, id DESC`. -/
def newest (n : Notification) : Datetimeᵒᵈ ×ₗ Stringᵒᵈ :=
  toLex (OrderDual.toDual n.createdAt, OrderDual.toDual n.id)

/-- A row of the `GROUP BY`. -/
structure GroupRow where
  key : GroupKey
  repeats : Nat
  unreadCount : Nat
  firstAt : Datetime
  lastAt : Datetime
  latestId : Uuid
  deriving DecidableEq

/-- The aggregates over a group's rows. No group is empty. -/
def groupRow (key : GroupKey) (members : List Notification) : GroupRow :=
  let times := members.map (·.createdAt)
  { key := key
    repeats := members.length
    unreadCount := members.countP fun n => n.readAt = none
    firstAt := times.min?.getD 0
    lastAt := times.max?.getD 0
    latestId := (((members.mergeSort fun a b => newest a ≤ newest b).head?).map (·.id)).getD "" }

/-- The rows of a group. -/
def members (table : NotificationTable) (tenantId : Uuid) (key : GroupKey) : List Notification :=
  (feed table tenantId).filter fun n => groupKey n = key

/-- The keys there are. -/
def groupKeys (table : NotificationTable) (tenantId : Uuid) : List GroupKey :=
  ((feed table tenantId).map groupKey).dedup

/-- `SELECT … GROUP BY`. -/
def groupRows (table : NotificationTable) (tenantId : Uuid) : List GroupRow :=
  (groupKeys table tenantId).map fun key => groupRow key (members table tenantId key)

/-- `ORDER BY last_at DESC, kind, message`, with the database's collation of texts. -/
def sortKey {K : Type} (collate : String → K) (row : GroupRow) : Datetimeᵒᵈ ×ₗ K ×ₗ K :=
  toLex (OrderDual.toDual row.lastAt, toLex (collate row.key.kind.text, collate row.key.message))

structure NotificationGroup where
  key : String
  latest : Notification
  count : Nat
  unreadCount : Nat
  firstAt : Datetime
  lastAt : Datetime
  deriving DecidableEq

/-- The group of a row, with its latest notification from those that were loaded. -/
def groupOf (latest : Dict Uuid Notification) (r : GroupRow) : Option NotificationGroup :=
  (latest.get r.latestId).map fun n =>
    { key := encodeGroupKey r.key
      latest := n
      count := r.repeats
      unreadCount := r.unreadCount
      firstAt := r.firstAt
      lastAt := r.lastAt }

/-- The second query of `list_groups`: the latest notification of each row, by id. -/
def loadLatest (table : NotificationTable) (rows : List GroupRow) : Dict Uuid Notification :=
  Dict.ofList ((table.rows.filter fun n => n.id ∈ rows.map (·.latestId)).map fun n => (n.id, n))

/-- `list_groups` without filters, given the database's answer to the query for groups. `none` is
a `KeyError`. -/
def listGroups (table : NotificationTable) (tenantId : Uuid) (found : List GroupRow)
    (limit offset : Nat) : Option (List NotificationGroup × Nat) :=
  let total := (groupRows table tenantId).length
  let rows := window limit offset found
  if rows.isEmpty then some ([], total)
  else
    (rows.mapM (groupOf (loadLatest table rows))).map fun groups => (groups, total)

/-- `list_group_items`, given the database's answer. -/
def listGroupItems (table : NotificationTable) (tenantId : Uuid) (key : GroupKey)
    (found : List Notification) (limit offset : Nat) : List Notification × Nat :=
  (window limit offset found, ((feed table tenantId).filter (matchesKey key)).length)

/-! ## What the feed should be -/

/-- The first `n` pages of groups, each from its own answer. -/
def allGroups (table : NotificationTable) (tenantId : Uuid) (limit : Nat)
    (found : Nat → List GroupRow) : Nat → Option (List NotificationGroup)
  | 0 => some []
  | n + 1 => do
      let before ← allGroups table tenantId limit found n
      let page ← listGroups table tenantId (found n) limit (n * limit)
      return before ++ page.1

/-- The notifications counted in a group: those of its key. -/
def counted (table : NotificationTable) (tenantId : Uuid) (g : NotificationGroup) :
    List Notification :=
  (feed table tenantId).filter fun n => encodeGroupKey (groupKey n) = g.key

/-- **A group's key selects what was counted**: it decodes, and the pages of `list_group_items` are
the counted notifications once each, whatever the page size and the answers. -/
def Selects (parseUuid : String → Option Uuid) (table : NotificationTable) (tenantId : Uuid)
    (g : NotificationGroup) : Prop :=
  ∃ key, decodeGroupKey parseUuid g.key = some key ∧
    g.count = (counted table tenantId g).length ∧
    ∀ (limit : Nat) (found : Nat → List Notification), 0 < limit →
      (∀ page, Arranged newest ((feed table tenantId).filter (matchesKey key)) (found page)) →
      (∀ page offset, (listGroupItems table tenantId key (found page) limit offset).2 = g.count) ∧
      (collect (fun page =>
        (listGroupItems table tenantId key (found page) limit (page * limit)).1)
        (pageCount g.count limit)).Perm (counted table tenantId g)

/-- **The feed is exact**: the pages have every group once, their counts add up to the undismissed
notifications, and each group's key selects what was counted in it. -/
def FeedExact (parseUuid : String → Option Uuid) (table : NotificationTable) (tenantId : Uuid)
    (limit : Nat) (found : Nat → List GroupRow) : Prop :=
  ∃ groups, allGroups table tenantId limit found
      (pageCount (groupRows table tenantId).length limit) = some groups ∧
    (groups.map (·.key)).Perm ((groupKeys table tenantId).map encodeGroupKey) ∧
    (groups.map (·.count)).sum = (feed table tenantId).length ∧
    ∀ g ∈ groups, Selects parseUuid table tenantId g

/-! ## The key -/

/-- `uuid.UUID` reads back the ids of a key. -/
def Readable (parseUuid : String → Option Uuid) (key : GroupKey) : Prop :=
  ∀ id, some id ∈ [key.ruleId, key.deviceId, key.catalogEntryId] → parseUuid id = some id

theorem fromUTF8?_utf8 (text : String) : String.fromUTF8? ⟨(utf8 text).toArray⟩ = some text := by
  have hbytes : (⟨(utf8 text).toArray⟩ : ByteArray) = text.toUTF8 := by
    rw [utf8, Array.toArray_toList]
  rw [hbytes, String.fromUTF8?, String.toUTF8_eq_toByteArray, dif_pos text.isValidUTF8]
  rfl

theorem ofText_text (kind : NotificationKind) :
    NotificationKind.ofText kind.text = some kind := by
  cases kind <;> decide

theorem idOfJson_idToJson {parseUuid : String → Option Uuid} (id : Option Uuid)
    (h : ∀ v, id = some v → parseUuid v = some v) :
    idOfJson parseUuid (idToJson id) = some id := by
  cases id with
  | none => rfl
  | some v =>
    show (parseUuid v).map some = _
    rw [h v rfl]
    rfl

theorem numerals_keyToJson (key : GroupKey) :
    numerals (keyToJson key) = some (keyToJson key) := by
  have hid : ∀ id : Option Uuid, numerals (idToJson id) = some (idToJson id) := by
    intro id
    cases id <;> rfl
  simp only [keyToJson, numerals, Realtime.numeralsOfItems, hid]
  rfl

/-- **A key decodes to what it was made of.** -/
theorem decode_encodeGroupKey {parseUuid : String → Option Uuid} {key : GroupKey}
    (h : Readable parseUuid key) : decodeGroupKey parseUuid (encodeGroupKey key) = some key := by
  have hread : JsonText.parse (dumps (keyToJson key)) = some (keyToJson key) := by
    rw [parse_dumps, numerals_keyToJson]
  have hkey : keyOfJson parseUuid (keyToJson key) = some key := by
    have hrule := idOfJson_idToJson key.ruleId fun v hv => h v (by simp [hv])
    have hdevice := idOfJson_idToJson key.deviceId fun v hv => h v (by simp [hv])
    have hentry := idOfJson_idToJson key.catalogEntryId fun v hv => h v (by simp [hv])
    simp only [keyToJson, keyOfJson, ofText_text, hrule, hdevice, hentry]
    rfl
  unfold decodeGroupKey encodeGroupKey
  rw [String.toList_ofList, Base64.decode_padded]
  simp only [bind, Option.bind, fromUTF8?_utf8, String.toList_ofList, hread, hkey]

theorem nullSafeEq_iff {column value : Option Uuid} :
    nullSafeEq column value = true ↔ column = value := by
  cases value <;> simp [nullSafeEq]

/-- The clauses hold of the rows with the key's columns. -/
theorem matchesKey_iff {key : GroupKey} {n : Notification} :
    matchesKey key n = true ↔ groupKey n = key := by
  cases key
  simp only [matchesKey, groupKey, Bool.and_eq_true, nullSafeEq_iff, decide_eq_true_eq,
    GroupKey.mk.injEq]
  tauto

/-! ## Groups -/

section

variable {table : NotificationTable} {tenantId : Uuid}

theorem groupRows_nodup : (groupRows table tenantId).Nodup := by
  refine List.Nodup.map ?_ (List.nodup_dedup _)
  intro key key' heq
  exact congrArg GroupRow.key heq

theorem mem_groupKeys {key : GroupKey} :
    key ∈ groupKeys table tenantId ↔ ∃ n ∈ feed table tenantId, groupKey n = key := by
  rw [groupKeys, List.mem_dedup, List.mem_map]

theorem repeats_sum :
    ((groupRows table tenantId).map (·.repeats)).sum = (feed table tenantId).length := by
  have hcount : ∀ key, (members table tenantId key).length =
      ((feed table tenantId).map groupKey).count key := by
    intro key
    rw [members, ← List.countP_eq_length_filter, List.count, List.countP_map]
    apply List.countP_congr
    intro n _
    simp
  have hsum := List.sum_map_count_dedup_eq_length ((feed table tenantId).map groupKey)
  rw [List.length_map] at hsum
  rw [← hsum, groupRows, List.map_map, groupKeys]
  congr 1
  apply List.map_congr_left
  intro key _
  exact hcount key

/-- A group's latest notification is one of its own. -/
theorem exists_latest {row : GroupRow} (h : row ∈ groupRows table tenantId) :
    ∃ n ∈ members table tenantId row.key, n.id = row.latestId := by
  obtain ⟨key, hkey, rfl⟩ := List.mem_map.mp h
  obtain ⟨n, hn, hgroup⟩ := mem_groupKeys.mp hkey
  have hmem : n ∈ members table tenantId key := by
    simpa [members, hgroup] using hn
  have hperm := List.mergeSort_perm (members table tenantId key) fun a b => newest a ≤ newest b
  show ∃ n ∈ members table tenantId key, n.id = ((((members table tenantId key).mergeSort
    fun a b => newest a ≤ newest b).head?).map (·.id)).getD ""
  cases hsorted : (members table tenantId key).mergeSort fun a b => newest a ≤ newest b with
  | nil =>
    rw [hsorted] at hperm
    exact absurd (hperm.symm.subset hmem) List.not_mem_nil
  | cons first rest =>
    rw [hsorted] at hperm
    exact ⟨first, hperm.subset List.mem_cons_self, rfl⟩

/-- What a group shows of its row. -/
structure Shows (table : NotificationTable) (tenantId : Uuid) (row : GroupRow)
    (g : NotificationGroup) : Prop where
  key : g.key = encodeGroupKey row.key
  count : g.count = row.repeats
  latest : g.latest ∈ members table tenantId row.key

theorem get_loadLatest {rows : List GroupRow} {n : Notification} (hn : n ∈ table.rows)
    (hid : n.id ∈ rows.map (·.latestId)) : (loadLatest table rows).get n.id = some n := by
  have hmem : n ∈ table.rows.filter fun n => n.id ∈ rows.map (·.latestId) :=
    List.mem_filter.mpr ⟨hn, decide_eq_true hid⟩
  refine Dict.get_ofList ?_ (List.mem_map_of_mem hmem)
  rw [List.map_map]
  exact table.nodup.sublist (List.filter_sublist.map _)

/-- **A page is a group for each of its rows.** No row's notification is missing. -/
theorem listGroups_shows {found : List GroupRow}
    (hfound : ∀ row ∈ found, row ∈ groupRows table tenantId) (limit offset : Nat) :
    ∃ groups, listGroups table tenantId found limit offset =
        some (groups, (groupRows table tenantId).length) ∧
      List.Forall₂ (Shows table tenantId) (window limit offset found) groups := by
  unfold listGroups
  dsimp only
  by_cases hempty : (window limit offset found).isEmpty = true
  · refine ⟨[], by rw [if_pos hempty], ?_⟩
    rw [List.isEmpty_iff.mp hempty]
    exact .nil
  · have hrows : ∀ row ∈ window limit offset found,
        ∃ g, groupOf (loadLatest table (window limit offset found)) row = some g ∧
          Shows table tenantId row g := by
      intro row hrow
      have hmem : row ∈ found := List.mem_of_mem_drop (List.mem_of_mem_take hrow)
      obtain ⟨n, hn, hid⟩ := exists_latest (hfound row hmem)
      have hn' : n ∈ table.rows := (List.mem_filter.mp (List.mem_filter.mp hn).1).1
      have hwanted : n.id ∈ (window limit offset found).map (·.latestId) := by
        rw [hid]
        exact List.mem_map_of_mem hrow
      have hget := get_loadLatest hn' hwanted
      rw [hid] at hget
      refine ⟨_, by rw [groupOf, hget, Option.map_some], ?_⟩
      exact ⟨rfl, rfl, hn⟩
    obtain ⟨groups, hgroups, hall⟩ := mapM_forall₂ hrows
    exact ⟨groups, by rw [if_neg hempty, hgroups, Option.map_some], hall⟩

theorem allGroups_shows {limit : Nat} {found : Nat → List GroupRow}
    (hfound : ∀ page, ∀ row ∈ found page, row ∈ groupRows table tenantId) :
    ∀ n, ∃ groups, allGroups table tenantId limit found n = some groups ∧
      List.Forall₂ (Shows table tenantId) (pages limit found n) groups := by
  intro n
  induction n with
  | zero => exact ⟨[], rfl, .nil⟩
  | succ n ih =>
    obtain ⟨before, hbefore, hshown⟩ := ih
    obtain ⟨page, hpage, hpageShown⟩ := listGroups_shows (hfound n) limit (n * limit)
    refine ⟨before ++ page, ?_, ?_⟩
    · rw [allGroups, hbefore, hpage]
      rfl
    · rw [pages_succ]
      exact List.rel_append hshown hpageShown

/-! ## The feed -/

/-- The ids of a tenant's notifications are read back. -/
def Ids (parseUuid : String → Option Uuid) (table : NotificationTable) (tenantId : Uuid) : Prop :=
  ∀ n ∈ feed table tenantId, Readable parseUuid (groupKey n)

/-- Among the keys of the feed, no two are encoded alike. -/
theorem encodeGroupKey_inj {parseUuid : String → Option Uuid} {key key' : GroupKey}
    (h : Readable parseUuid key) (h' : Readable parseUuid key')
    (heq : encodeGroupKey key = encodeGroupKey key') : key = key' := by
  have hdecode := decode_encodeGroupKey h
  rw [heq, decode_encodeGroupKey h'] at hdecode
  exact (Option.some.inj hdecode).symm

/-- **Whatever was listed of a group is found again by its key.** -/
theorem selects_of_shows {parseUuid : String → Option Uuid}
    (hids : Ids parseUuid table tenantId) {row : GroupRow}
    (hrow : row ∈ groupRows table tenantId) {g : NotificationGroup}
    (h : Shows table tenantId row g) : Selects parseUuid table tenantId g := by
  obtain ⟨key, hkey, rfl⟩ := List.mem_map.mp hrow
  obtain ⟨first, hfirst, hfirstKey⟩ := mem_groupKeys.mp hkey
  have hreadable : Readable parseUuid key := hfirstKey ▸ hids first hfirst
  have hcounted : counted table tenantId g = members table tenantId key := by
    apply List.filter_congr
    intro n hn
    rw [decide_eq_decide, h.key]
    constructor
    · intro heq
      exact encodeGroupKey_inj (hids n hn) hreadable heq
    · intro heq
      rw [heq]
      rfl
  have hmatching : (feed table tenantId).filter (matchesKey key) =
      members table tenantId key := by
    apply List.filter_congr
    intro n _
    rw [Bool.eq_iff_iff, matchesKey_iff, decide_eq_true_eq]
  refine ⟨key, ?_, ?_, ?_⟩
  · rw [h.key]
    exact decode_encodeGroupKey hreadable
  · rw [h.count, hcounted]
    rfl
  · intro limit found hlimit hfound
    refine ⟨?_, ?_⟩
    · intro page offset
      rw [listGroupItems, hmatching, h.count]
      rfl
    · rw [hmatching] at hfound
      -- no two rows of the table have one id, so every border separates
      have hnodup : (members table tenantId key).Nodup := by
        refine List.Nodup.of_map (·.id) (table.nodup.sublist ?_)
        exact (List.filter_sublist.trans List.filter_sublist).map _
      have hkeys : ((members table tenantId key).map newest).Nodup := by
        refine List.Nodup.map_on ?_ hnodup
        intro a ha b hb heq
        have hid : a.id = b.id := OrderDual.toDual_inj.mp (congrArg (fun k => (ofLex k).2) heq)
        have hrows : ∀ n ∈ members table tenantId key, n ∈ table.rows := fun n hn =>
          (List.mem_filter.mp (List.mem_filter.mp hn).1).1
        exact List.inj_on_of_nodup_map table.nodup (hrows a ha) (hrows b hb) hid
      have hpages := (pages_exact_iff hlimit hnodup
        (le_pageCount_mul (members table tenantId key).length hlimit)).mpr
          (separated_of_nodup hkeys hlimit) found hfound
      rw [hcounted, h.count]
      exact hpages

/-- **The feed is exact for every answer exactly when no page ends between two groups of one sort
key.** -/
theorem groups_exact_iff {K : Type} [LinearOrder K] (collate : String → K)
    {parseUuid : String → Option Uuid} (table : NotificationTable) (tenantId : Uuid) {limit : Nat}
    (hlimit : 0 < limit) (hids : Ids parseUuid table tenantId) :
    (∀ found : Nat → List GroupRow,
      (∀ page, Arranged (sortKey collate) (groupRows table tenantId) (found page)) →
      FeedExact parseUuid table tenantId limit found) ↔
      Separated (sortKey collate) (groupRows table tenantId) limit := by
  have hcount := le_pageCount_mul (groupRows table tenantId).length hlimit
  have hkeysRows : (groupRows table tenantId).map (fun row => encodeGroupKey row.key) =
      (groupKeys table tenantId).map encodeGroupKey := by
    rw [groupRows, List.map_map]
    rfl
  have hkeysNodup : ((groupKeys table tenantId).map encodeGroupKey).Nodup := by
    refine List.Nodup.map_on ?_ (List.nodup_dedup _)
    intro key hkey key' hkey' heq
    obtain ⟨n, hn, rfl⟩ := mem_groupKeys.mp hkey
    obtain ⟨n', hn', rfl⟩ := mem_groupKeys.mp hkey'
    exact encodeGroupKey_inj (hids n hn) (hids n' hn') heq
  -- what the pages show of the rows, whichever the answers
  have hpages : ∀ found : Nat → List GroupRow,
      (∀ page, Arranged (sortKey collate) (groupRows table tenantId) (found page)) →
      ∃ groups, allGroups table tenantId limit found
          (pageCount (groupRows table tenantId).length limit) = some groups ∧
        List.Forall₂ (Shows table tenantId)
          (pages limit found (pageCount (groupRows table tenantId).length limit)) groups := by
    intro found hfound
    exact allGroups_shows (fun page row hrow => (hfound page).perm.subset hrow) _
  constructor
  · intro h
    refine (pages_exact_iff hlimit groupRows_nodup hcount).mp ?_
    intro found hfound
    obtain ⟨groups, hgroups, hshown⟩ := hpages found hfound
    obtain ⟨groups', hgroups', hperm, _, _⟩ := h found hfound
    cases hgroups.symm.trans hgroups'
    have hkeys : groups.map (·.key) =
        (pages limit found (pageCount (groupRows table tenantId).length limit)).map
          fun row => encodeGroupKey row.key :=
      (map_eq_of_forall₂ (fun _ _ hs => hs.key.symm) hshown).symm
    rw [hkeys, ← hkeysRows] at hperm
    -- the encoded keys are different from each other, so the rows are as often as they
    refine perm_of_map_perm ?_ ?_ hperm
    · rw [hkeysRows]
      exact hkeysNodup
    · intro row hrow
      exact mem_of_mem_pages (fun page row hrow => (hfound page).perm.subset hrow) hrow
  · intro hsep found hfound
    obtain ⟨groups, hgroups, hshown⟩ := hpages found hfound
    have hperm := (pages_exact_iff hlimit groupRows_nodup hcount).mpr hsep found hfound
    refine ⟨groups, hgroups, ?_, ?_, ?_⟩
    · rw [← hkeysRows, ← map_eq_of_forall₂ (fun _ _ hs => hs.key.symm) hshown]
      exact hperm.map _
    · rw [← repeats_sum, ← map_eq_of_forall₂ (fun _ _ hs => hs.count.symm) hshown]
      exact (hperm.map _).sum_eq
    · intro g hg
      obtain ⟨row, hrow, hs⟩ := exists_of_forall₂ hshown hg
      exact selects_of_shows hids (hperm.subset hrow) hs

end

/-! ## Two devices offline at once -/

def offline (id deviceId : Uuid) : Notification :=
  { id := id
    tenantId := "4b1f9f7e-6d0a-4f0c-9d2b-1f0f6a3f7c11"
    deviceId := some deviceId
    message := "went offline"
    kind := .deviceOffline
    createdAt := 0 }

def firstOffline : Notification :=
  offline "0b7c6a2e-93c1-4a58-8a0e-5d2f7b9c1e01" "c0a8f6d2-1111-4c3e-9e57-3a1b2c4d5e6f"

def secondOffline : Notification :=
  offline "0b7c6a2e-93c1-4a58-8a0e-5d2f7b9c1e02" "c0a8f6d2-2222-4c3e-9e57-3a1b2c4d5e6f"

theorem offline_nodup : ([firstOffline, secondOffline].map (·.id)).Nodup := by decide

/-- Two rows of one transaction, alike but for the device. -/
def bothOffline : NotificationTable := ⟨[firstOffline, secondOffline], offline_nodup⟩

/-- On one page they are both there. -/
theorem bothOffline_one_page :
    FeedExact some bothOffline firstOffline.tenantId 2
      fun _ => groupRows bothOffline firstOffline.tenantId := by
  refine (groups_exact_iff (fun text : String => text) bothOffline firstOffline.tenantId
    (by decide : 0 < 2) (fun _ _ _ _ => rfl)).mpr ?_ _ ?_
  · intro page hpos hlt
    have hlength : (groupRows bothOffline firstOffline.tenantId).length = 2 := by decide +kernel
    omega
  · intro page
    exact ⟨.refl _, by decide +kernel⟩

/-- On two pages one can be there twice and the other not at all. -/
theorem bothOffline_two_pages :
    ¬ ∀ found : Nat → List GroupRow,
      (∀ page, Arranged (sortKey fun text : String => text)
        (groupRows bothOffline firstOffline.tenantId) (found page)) →
      FeedExact some bothOffline firstOffline.tenantId 1 found := by
  intro h
  obtain ⟨groups, hgroups, hperm, _, _⟩ := h
    (fun page => if page = 0 then groupRows bothOffline firstOffline.tenantId
      else (groupRows bothOffline firstOffline.tenantId).reverse) (by
      intro page
      split
      · exact ⟨.refl _, by decide +kernel⟩
      · exact ⟨List.reverse_perm _, by decide +kernel⟩)
  have hdifferent : (allGroups bothOffline firstOffline.tenantId 1
      (fun page => if page = 0 then groupRows bothOffline firstOffline.tenantId
        else (groupRows bothOffline firstOffline.tenantId).reverse)
      (pageCount (groupRows bothOffline firstOffline.tenantId).length 1)).map
        (fun groups => decide ((groups.map (·.key)).Perm
          ((groupKeys bothOffline firstOffline.tenantId).map encodeGroupKey))) =
      some false := by
    decide +kernel
  rw [hgroups, Option.map_some, decide_eq_true hperm] at hdifferent
  cases hdifferent

end IotSaas.Notifications
