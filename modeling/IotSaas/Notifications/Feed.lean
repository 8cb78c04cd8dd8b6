import IotSaas.Lib.Reach
import IotSaas.Notifications.Groups

/-!
# `Notifications/Feed.lean` — what happens to a notification

The operations of `notifications/service.py` that write: a notification is created, read and unread,
dismissed and restored, one by one, group by group or all at once. Each runs in a transaction of its
own; one that raises leaves the table as it was. The clock, and the ids that `uuid4` makes up, are
given from outside.

Dismissing reads a notification, and every operation keeps it read while it is dismissed, but one:
`mark_unread` does not ask whether it is (`dismissed_read_iff`).
-/

set_option autoImplicit false

namespace IotSaas.Notifications

open Lib
open Rules (Datetime Uuid)

/-! ## Writing -/

theorem map_id_eq {rows : List Notification} {f : Notification → Notification}
    (h : ∀ n, (f n).id = n.id) : (rows.map f).map (·.id) = rows.map (·.id) := by
  rw [List.map_map]
  exact List.map_congr_left fun n _ => h n

/-- `UPDATE … SET read_at, dismissed_at WHERE`. -/
def NotificationTable.update (table : NotificationTable) (p : Notification → Bool)
    (readAt dismissedAt : Notification → Option Datetime) : NotificationTable where
  rows := table.rows.map fun n =>
    if p n then { n with readAt := readAt n, dismissedAt := dismissedAt n } else n
  nodup := by
    rw [map_id_eq fun n => by split <;> rfl]
    exact table.nodup

/-- `flush`, of a row that was loaded. -/
def NotificationTable.flush (table : NotificationTable) (n : Notification) : NotificationTable :=
  table.update (fun m => m.id = n.id) (fun _ => n.readAt) (fun _ => n.dismissedAt)

/-- `INSERT`; a second row with the same primary key is refused. -/
def NotificationTable.insert (table : NotificationTable) (n : Notification) : NotificationTable :=
  if h : n.id ∈ table.rows.map (·.id) then table
  else
    { rows := table.rows ++ [n]
      nodup := by
        rw [List.map_append, List.nodup_append]
        refine ⟨table.nodup, List.nodup_singleton _, ?_⟩
        intro a ha b hb heq
        rw [List.map_singleton, List.mem_singleton] at hb
        exact h (hb ▸ heq ▸ ha) }

/-- What `create_notification` and `add_notification` make a row of, with the id `uuid4` gives it
and the time it is committed at. -/
structure NewNotification where
  id : Uuid
  tenantId : Uuid
  deviceId : Option Uuid := none
  ruleId : Option Uuid := none
  catalogEntryId : Option Uuid := none
  message : String
  kind : NotificationKind := .ruleFired
  createdAt : Datetime

/-- `create_notification`, `add_notification`. -/
def createNotification (new : NewNotification) (table : NotificationTable) : NotificationTable :=
  table.insert
    { id := new.id
      tenantId := new.tenantId
      deviceId := new.deviceId
      ruleId := new.ruleId
      catalogEntryId := new.catalogEntryId
      message := new.message
      kind := new.kind
      createdAt := new.createdAt }

/-- `NotificationNotFoundError`. -/
inductive FeedError where
  | notificationNotFound
  deriving DecidableEq

/-- `list_notifications`. -/
def listNotifications (table : NotificationTable) (tenantId : Uuid) (limit offset : Nat) :
    List Notification :=
  window limit offset ((feed table tenantId).mergeSort fun a b => newest a ≤ newest b)

/-- `mark_all_read`. -/
def markAllRead (now : Datetime) (tenantId : Uuid) (table : NotificationTable) :
    NotificationTable × List Notification :=
  let table := table.update
    (fun n => n.tenantId = tenantId ∧ n.readAt = none ∧ n.dismissedAt = none)
    (fun _ => some now) (·.dismissedAt)
  (table, listNotifications table tenantId 50 0)

/-- `_get`. -/
def getNotification (tenantId id : Uuid) (table : NotificationTable) :
    Except FeedError Notification :=
  match table.rows.find? fun n => n.tenantId = tenantId ∧ n.id = id with
  | none => .error .notificationNotFound
  | some n => .ok n

/-- `mark_read`. -/
def markRead (now : Datetime) (tenantId id : Uuid) (table : NotificationTable) :
    Except FeedError (NotificationTable × Notification) := do
  let n ← getNotification tenantId id table
  let n := if n.readAt = none then { n with readAt := some now } else n
  .ok (table.flush n, n)

/-- `mark_unread`. -/
def markUnread (tenantId id : Uuid) (table : NotificationTable) :
    Except FeedError (NotificationTable × Notification) := do
  let n ← getNotification tenantId id table
  let n := if n.readAt ≠ none then { n with readAt := none } else n
  .ok (table.flush n, n)

/-- `dismiss`. -/
def dismiss (now : Datetime) (tenantId id : Uuid) (table : NotificationTable) :
    Except FeedError (NotificationTable × Notification) := do
  let n ← getNotification tenantId id table
  let n := if n.dismissedAt = none then { n with dismissedAt := some now } else n
  let n := if n.readAt = none then { n with readAt := some now } else n
  .ok (table.flush n, n)

/-- `restore`. -/
def restore (tenantId id : Uuid) (table : NotificationTable) :
    Except FeedError (NotificationTable × Notification) := do
  let n ← getNotification tenantId id table
  let n := if n.dismissedAt ≠ none then { n with dismissedAt := none } else n
  .ok (table.flush n, n)

/-- `_feed` and `_matches_key`. -/
def inGroup (tenantId : Uuid) (key : GroupKey) (n : Notification) : Bool :=
  decide (n.tenantId = tenantId ∧ n.dismissedAt = none) && matchesKey key n

/-- `mark_group_read`: how many it read. -/
def markGroupRead (now : Datetime) (tenantId : Uuid) (key : GroupKey)
    (table : NotificationTable) : NotificationTable × Nat :=
  let unread := fun n : Notification => inGroup tenantId key n && decide (n.readAt = none)
  (table.update unread (fun _ => some now) (·.dismissedAt), table.rows.countP unread)

/-- `mark_group_unread`. -/
def markGroupUnread (tenantId : Uuid) (key : GroupKey) (table : NotificationTable) :
    Except FeedError NotificationTable :=
  let found := (table.rows.filter (inGroup tenantId key)).mergeSort fun a b => newest a ≤ newest b
  match found.head? with
  | none => .error .notificationNotFound
  | some latest => .ok (table.flush { latest with readAt := none })

/-- `dismiss_group`: the ids it dismissed. -/
def dismissGroup (now : Datetime) (tenantId : Uuid) (key : GroupKey)
    (table : NotificationTable) : Except FeedError (NotificationTable × List Uuid) :=
  let ids := (table.rows.filter (inGroup tenantId key)).map (·.id)
  if ids.isEmpty then .error .notificationNotFound
  else
    .ok (table.update (inGroup tenantId key) (fun n => some (n.readAt.getD now))
      (fun _ => some now), ids)

/-- `restore_many`: how many it restored. -/
def restoreMany (tenantId : Uuid) (ids : List Uuid) (table : NotificationTable) :
    NotificationTable × Nat :=
  if ids.isEmpty then (table, 0)
  else
    let dismissed := fun n : Notification =>
      decide (n.tenantId = tenantId ∧ n.id ∈ ids ∧ n.dismissedAt ≠ none)
    (table.update dismissed (·.readAt) (fun _ => none), table.rows.countP dismissed)

/-! ## Runs -/

/-- A call of the service. -/
inductive FeedCall where
  | create (new : NewNotification)
  | markRead (now : Datetime) (tenantId id : Uuid)
  | markUnread (tenantId id : Uuid)
  | markAllRead (now : Datetime) (tenantId : Uuid)
  | dismiss (now : Datetime) (tenantId id : Uuid)
  | restore (tenantId id : Uuid)
  | markGroupRead (now : Datetime) (tenantId : Uuid) (key : GroupKey)
  | markGroupUnread (tenantId : Uuid) (key : GroupKey)
  | dismissGroup (now : Datetime) (tenantId : Uuid) (key : GroupKey)
  | restoreMany (tenantId : Uuid) (ids : List Uuid)

/-- What is committed: an error rolls back. -/
def committed {α : Type} (table : NotificationTable) (tableOf : α → NotificationTable) :
    Except FeedError α → NotificationTable
  | .ok answer => tableOf answer
  | .error _ => table

/-- The table a call leaves. -/
def afterCall (table : NotificationTable) : FeedCall → NotificationTable
  | .create new => createNotification new table
  | .markRead now tenantId id => committed table Prod.fst (markRead now tenantId id table)
  | .markUnread tenantId id => committed table Prod.fst (markUnread tenantId id table)
  | .markAllRead now tenantId => (markAllRead now tenantId table).1
  | .dismiss now tenantId id => committed table Prod.fst (dismiss now tenantId id table)
  | .restore tenantId id => committed table Prod.fst (restore tenantId id table)
  | .markGroupRead now tenantId key => (markGroupRead now tenantId key table).1
  | .markGroupUnread tenantId key => committed table id (markGroupUnread tenantId key table)
  | .dismissGroup now tenantId key => committed table Prod.fst (dismissGroup now tenantId key table)
  | .restoreMany tenantId ids => (restoreMany tenantId ids table).1

/-- **A dismissed notification is read.** -/
def ReadOnceDismissed (n : Notification) : Prop := n.dismissedAt ≠ none → n.readAt ≠ none

instance (n : Notification) : Decidable (ReadOnceDismissed n) :=
  inferInstanceAs (Decidable (n.dismissedAt ≠ none → n.readAt ≠ none))

def DismissedRead (table : NotificationTable) : Prop := ∀ n ∈ table.rows, ReadOnceDismissed n

instance (table : NotificationTable) : Decidable (DismissedRead table) :=
  inferInstanceAs (Decidable (∀ n ∈ table.rows, ReadOnceDismissed n))

/-- A call that does not unread a dismissed notification. -/
def LeavesDismissed (table : NotificationTable) : FeedCall → Prop
  | .markUnread tenantId id =>
      ∀ n ∈ table.rows, n.tenantId = tenantId → n.id = id → n.dismissedAt = none
  | _ => True

/-! ## One call -/

section

variable {table : NotificationTable}

/-- An update keeps it if it does of the rows it writes. -/
theorem update_dismissedRead (h : DismissedRead table) {p : Notification → Bool}
    {readAt dismissedAt : Notification → Option Datetime}
    (hrow : ∀ n ∈ table.rows, p n = true → dismissedAt n ≠ none → readAt n ≠ none) :
    DismissedRead (table.update p readAt dismissedAt) := by
  intro m hm
  obtain ⟨n, hn, rfl⟩ := List.mem_map.mp hm
  by_cases hp : p n = true
  · rw [if_pos hp]
    exact hrow n hn hp
  · rw [if_neg hp]
    exact h n hn

theorem flush_dismissedRead (h : DismissedRead table) {n : Notification}
    (hn : ReadOnceDismissed n) : DismissedRead (table.flush n) :=
  update_dismissedRead h fun _ _ _ => hn

/-- … and only if it does. -/
theorem readOnceDismissed_of_flush {n m : Notification} (hm : m ∈ table.rows) (hid : m.id = n.id)
    (h : DismissedRead (table.flush n)) : ReadOnceDismissed n := by
  have hmem : { m with readAt := n.readAt, dismissedAt := n.dismissedAt } ∈
      (table.flush n).rows := by
    apply List.mem_map.mpr
    refine ⟨m, hm, ?_⟩
    simp [hid]
  have hrow := h _ hmem
  exact hrow

theorem insert_dismissedRead (h : DismissedRead table) {n : Notification}
    (hn : n.dismissedAt = none) : DismissedRead (table.insert n) := by
  unfold NotificationTable.insert
  split
  · exact h
  · intro m hm
    rcases List.mem_append.mp hm with hm | hm
    · exact h m hm
    · rw [List.mem_singleton.mp hm]
      intro hdismissed
      exact absurd hn hdismissed

/-- The row that is found by its id. -/
theorem getNotification_ok {tenantId id : Uuid} {n : Notification}
    (h : getNotification tenantId id table = .ok n) :
    n ∈ table.rows ∧ n.tenantId = tenantId ∧ n.id = id := by
  unfold getNotification at h
  split at h
  · cases h
  · rename_i m hfind
    cases h
    have hmatch := List.find?_some hfind
    simp only [decide_eq_true_eq] at hmatch
    exact ⟨List.mem_of_find?_eq_some hfind, hmatch⟩

/-- Calls of the form "load the row, change it, flush". -/
theorem committed_flush_dismissedRead (h : DismissedRead table) {tenantId id : Uuid}
    (change : Notification → Notification)
    (hchange : ∀ n, ReadOnceDismissed n → ReadOnceDismissed (change n)) :
    DismissedRead (committed table Prod.fst (do
      let n ← getNotification tenantId id table
      .ok (table.flush (change n), change n))) := by
  cases hget : getNotification tenantId id table with
  | error e => exact h
  | ok n =>
    have hn := h n (getNotification_ok hget).1
    exact flush_dismissedRead h (hchange n hn)

theorem eq_of_id_eq {n m : Notification} (hn : n ∈ table.rows) (hm : m ∈ table.rows)
    (hid : n.id = m.id) : n = m :=
  List.inj_on_of_nodup_map table.nodup hn hm hid

/-- **`mark_unread`** keeps it exactly where the notification is not dismissed. -/
theorem markUnread_dismissedRead (h : DismissedRead table) (tenantId id : Uuid) :
    DismissedRead (committed table Prod.fst (markUnread tenantId id table)) ↔
      LeavesDismissed table (.markUnread tenantId id) := by
  unfold markUnread
  cases hget : getNotification tenantId id table with
  | error e =>
    have hnone : ∀ n ∈ table.rows, ¬(n.tenantId = tenantId ∧ n.id = id) := by
      unfold getNotification at hget
      split at hget
      · rename_i hfind
        simpa using hfind
      · cases hget
    exact iff_of_true h fun n hn htenant hid => absurd ⟨htenant, hid⟩ (hnone n hn)
  | ok n =>
    obtain ⟨hn, htenant, hid⟩ := getNotification_ok hget
    have hunread : (if n.readAt ≠ none then { n with readAt := none } else n) =
        { n with readAt := none } := by
      split
      · rfl
      · rename_i hread
        rw [not_not] at hread
        rw [← hread]
    show DismissedRead (table.flush (if n.readAt ≠ none then { n with readAt := none } else n)) ↔ _
    rw [hunread]
    constructor
    · intro hafter m hm htenant' hid'
      obtain rfl := eq_of_id_eq hm hn (hid'.trans hid.symm)
      have hrow := readOnceDismissed_of_flush (n := { m with readAt := none }) hm rfl hafter
      by_contra hdismissed
      exact hrow hdismissed rfl
    · intro hleaves
      apply flush_dismissedRead h
      intro hdismissed
      exact absurd (hleaves n hn htenant hid) hdismissed

/-- A row of the group is not dismissed. -/
theorem inGroup_dismissedAt {tenantId : Uuid} {key : GroupKey} {n : Notification}
    (h : inGroup tenantId key n = true) : n.dismissedAt = none := by
  simp only [inGroup, Bool.and_eq_true, decide_eq_true_eq] at h
  exact h.1.2

/-- The newest row of a group is read or not, as one likes. -/
theorem markGroupUnread_dismissedRead (h : DismissedRead table) (tenantId : Uuid)
    (key : GroupKey) :
    DismissedRead (committed table id (markGroupUnread tenantId key table)) := by
  unfold markGroupUnread
  dsimp only
  split
  · exact h
  · rename_i latest hlatest
    have hmem := List.mem_mergeSort.mp (List.mem_of_mem_head? hlatest)
    have hshown := inGroup_dismissedAt (List.mem_filter.mp hmem).2
    apply flush_dismissedRead h
    intro hdismissed
    exact absurd hshown hdismissed

theorem dismissGroup_dismissedRead (h : DismissedRead table) (now : Datetime) (tenantId : Uuid)
    (key : GroupKey) :
    DismissedRead (committed table Prod.fst (dismissGroup now tenantId key table)) := by
  unfold dismissGroup
  dsimp only
  split
  · exact h
  · apply update_dismissedRead h
    intro n _ _ _
    simp

/-- **One call** keeps dismissed notifications read, but for a `mark_unread` of one of them. -/
theorem afterCall_dismissedRead (h : DismissedRead table) (call : FeedCall) :
    DismissedRead (afterCall table call) ↔ LeavesDismissed table call := by
  cases call with
  | create new => exact iff_of_true (insert_dismissedRead h rfl) trivial
  | markRead now tenantId id =>
    refine iff_of_true (committed_flush_dismissedRead h
      (fun n => if n.readAt = none then { n with readAt := some now } else n) ?_) trivial
    intro n hn
    split
    · intro _
      simp
    · exact hn
  -- The one call that can take read_at off a dismissed row.
  | markUnread tenantId id => exact markUnread_dismissedRead h tenantId id
  | markAllRead now tenantId =>
    refine iff_of_true (update_dismissedRead h ?_) trivial
    intro n _ _ _
    simp
  | dismiss now tenantId id =>
    refine iff_of_true (committed_flush_dismissedRead h (fun n : Notification =>
      let n : Notification := if n.dismissedAt = none then { n with dismissedAt := some now } else n
      if n.readAt = none then { n with readAt := some now } else n) ?_) trivial
    have hread : ∀ n : Notification,
        (if n.readAt = none then { n with readAt := some now } else n).readAt ≠ none := by
      intro n
      split
      · simp
      · assumption
    intro n _ _
    exact hread _
  | restore tenantId id =>
    refine iff_of_true (committed_flush_dismissedRead h
      (fun n => if n.dismissedAt ≠ none then { n with dismissedAt := none } else n) ?_) trivial
    intro n hn
    split
    · intro hdismissed
      exact absurd rfl hdismissed
    · exact hn
  | markGroupRead now tenantId key =>
    refine iff_of_true (update_dismissedRead h ?_) trivial
    intro n _ _ _
    simp
  | markGroupUnread tenantId key =>
    exact iff_of_true (markGroupUnread_dismissedRead h tenantId key) trivial
  | dismissGroup now tenantId key =>
    exact iff_of_true (dismissGroup_dismissedRead h now tenantId key) trivial
  | restoreMany tenantId ids =>
    refine iff_of_true ?_ trivial
    show DismissedRead (restoreMany tenantId ids table).1
    unfold restoreMany
    split
    · exact h
    · apply update_dismissedRead h
      intro n _ _ hdismissed
      exact absurd rfl hdismissed

end

/-! ## Whole runs -/

/-- **Dismissed means read**, all along the runs in which `mark_unread` leaves dismissed
notifications alone, and along no other. -/
theorem dismissed_read_iff {table : NotificationTable} (h : DismissedRead table)
    (calls : List FeedCall) :
    (∀ before, before <+: calls → DismissedRead (before.foldl afterCall table)) ↔
      RunMeets (fun table call => some (afterCall table call)) LeavesDismissed table calls :=
  foldl_prefixes_iff (f := afterCall) (I := DismissedRead) (P := DismissedRead) (fun _ hs => hs)
    (fun _ call hs hleaves => (afterCall_dismissedRead hs call).mpr hleaves)
    (fun _ call hs hafter => (afterCall_dismissedRead hs call).mp hafter) h

/-- A notification that is dismissed, restored and then unread. -/
theorem dismissed_read_iff_restored :
    DismissedRead ([.create ⟨"n", "t", none, none, none, "hot", .ruleFired, 0⟩,
      .dismiss 1 "t" "n", .restore "t" "n", .markUnread "t" "n"].foldl afterCall
        ⟨[], List.nodup_nil⟩) := by
  refine (dismissed_read_iff (fun n hn => absurd hn List.not_mem_nil) _).mpr ?_ _
    (List.prefix_refl _)
  refine ⟨trivial, fun _ hs => ?_⟩
  cases hs
  refine ⟨trivial, fun _ hs => ?_⟩
  cases hs
  refine ⟨trivial, fun _ hs => ?_⟩
  cases hs
  refine ⟨?_, fun _ _ => trivial⟩
  show ∀ n ∈ _, _
  decide

/-- **Dismissed and then unread**: `mark_unread` finds the notification all the same. -/
theorem dismissed_unread :
    ¬∀ calls : List FeedCall, DismissedRead (calls.foldl afterCall ⟨[], List.nodup_nil⟩) := by
  intro h
  have hrow := h [.create ⟨"n", "t", none, none, none, "hot", .ruleFired, 0⟩, .dismiss 1 "t" "n",
    .markUnread "t" "n"]
  revert hrow
  decide

end IotSaas.Notifications
