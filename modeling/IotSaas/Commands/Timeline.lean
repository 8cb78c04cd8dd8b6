import IotSaas.Lib.Paging
import IotSaas.Rules.Model
import Mathlib.Data.Prod.Lex
import Mathlib.Data.String.Basic

/-!
# `Commands/Timeline.lean` — the list of a device's commands

`list_commands` and `count_commands` of `commands/service.py`, with the filters they share, and
`lib/command-status.ts`, which works the same status out again for the badge. The API compares in
microseconds and calls a command unanswered from its deadline on; the page has milliseconds, and
only after it.

Each page is a query of its own: at its time, over what the table then is, and answered in any way
that keeps to the `ORDER BY` (`Listed`). Sorted by time alone, two commands of one microsecond could
change places between two pages, and one of them be on both and the other on none. The id breaks
such ties, so no page ends between two commands of one key, and the pages are every matching command
once (`pages_exact`).

The two statuses agree but for the millisecond of the deadline (`badge_agrees_iff`).
-/

set_option autoImplicit false

namespace IotSaas.Commands.Timeline

open Lib Rules

/-- A row of `commands`, in what the filters and the order read. -/
structure Command where
  id : Uuid
  tenantId : Uuid
  deviceId : Uuid
  actuator : String
  issuedAt : Datetime
  ttlSeconds : Int
  publishedAt : Datetime
  ackedAt : Option Datetime := none
  deriving DecidableEq

/-- `CommandStatusFilter`, and `CommandStatus` of the page. -/
inductive Status where
  | confirmed | pending | noResponse
  deriving DecidableEq

def deadline (c : Command) : Datetime := c.issuedAt + seconds c.ttlSeconds

/-- The `WHERE` of one status at a time of `now()`. -/
def hasStatus (now : Datetime) (c : Command) : Status → Bool
  | .confirmed => c.ackedAt.isSome
  | .pending => c.ackedAt.isNone && decide (now < deadline c)
  | .noResponse => c.ackedAt.isNone && decide (deadline c ≤ now)

/-- `_commands_filter`; an empty `actuator` is no filter. -/
def commandsFilter (tenantId deviceId : Uuid) (actuator : Option String) (status : Option Status)
    (now : Datetime) (c : Command) : Bool :=
  (decide (c.tenantId = tenantId) && decide (c.deviceId = deviceId)) &&
    (actuator.all fun name => name = "" ∨ c.actuator = name) &&
    status.all (hasStatus now c)

/-- The rows the `WHERE` is met by. -/
def matching (table : List Command) (tenantId deviceId : Uuid) (actuator : Option String)
    (status : Option Status) (now : Datetime) : List Command :=
  table.filter (commandsFilter tenantId deviceId actuator status now)

/-- `published_at DESC, id DESC`. -/
def key (c : Command) : Datetimeᵒᵈ ×ₗ Uuidᵒᵈ :=
  toLex (OrderDual.toDual c.publishedAt, OrderDual.toDual c.id)

/-- `list_commands`, with one of the orders the database may answer in. -/
def listCommands (table : List Command) (tenantId deviceId : Uuid) (limit offset : Nat)
    (actuator : Option String) (status : Option Status) (now : Datetime) : List Command :=
  window limit offset
    ((matching table tenantId deviceId actuator status now).mergeSort
      fun a b => decide (key a ≤ key b))

/-- An answer to the query of `list_commands`: the window of some order of the rows that keeps to
the `ORDER BY`. -/
def Listed (table : List Command) (tenantId deviceId : Uuid) (limit offset : Nat)
    (actuator : Option String) (status : Option Status) (now : Datetime)
    (answer : List Command) : Prop :=
  ∃ found, Arranged key (matching table tenantId deviceId actuator status now) found ∧
    answer = window limit offset found

/-- `count_commands`. -/
def countCommands (table : List Command) (tenantId deviceId : Uuid) (actuator : Option String)
    (status : Option Status) (now : Datetime) : Nat :=
  table.countP (commandsFilter tenantId deviceId actuator status now)

/-! ## Pages -/

theorem listed_listCommands (table : List Command) (tenantId deviceId : Uuid) (limit offset : Nat)
    (actuator : Option String) (status : Option Status) (now : Datetime) :
    Listed table tenantId deviceId limit offset actuator status now
      (listCommands table tenantId deviceId limit offset actuator status now) := by
  refine ⟨_, ⟨List.mergeSort_perm _ _, ?_⟩, rfl⟩
  have hsorted := List.pairwise_mergeSort
    (fun (a b c : Command) (hab : decide (key a ≤ key b) = true)
      (hbc : decide (key b ≤ key c) = true) =>
      decide_eq_true (le_trans (of_decide_eq_true hab) (of_decide_eq_true hbc)))
    (fun a b => by simpa using le_total (key a) (key b))
    (matching table tenantId deviceId actuator status now)
  exact hsorted.imp fun h => of_decide_eq_true h

/-- **The pages of the timeline are every matching command once, and as many as any of the totals
says.** Each page has a table and a time of its own; between them anything may happen that leaves the
matching rows as they are: rows of other devices come and go, commands that the filters leave out are
acknowledged, and the rows are stored in another order. -/
theorem pages_exact (tables : Nat → List Command) (now : Nat → Datetime)
    (hids : ((tables 0).map (·.id)).Nodup) (tenantId deviceId : Uuid) {limit : Nat}
    (hlimit : 0 < limit) (actuator : Option String) (status : Option Status)
    (hstill : ∀ page, (matching (tables page) tenantId deviceId actuator status (now page)).Perm
      (matching (tables 0) tenantId deviceId actuator status (now 0)))
    {answers : Nat → List Command}
    (hanswers : ∀ page, Listed (tables page) tenantId deviceId limit (page * limit) actuator status
      (now page) (answers page))
    {n : Nat} (hn : countCommands (tables 0) tenantId deviceId actuator status (now 0) ≤ n * limit) :
    (collect answers n).Perm (matching (tables 0) tenantId deviceId actuator status (now 0)) ∧
      ∀ page, (collect answers n).length =
        countCommands (tables page) tenantId deviceId actuator status (now page) := by
  have hkeys : ((matching (tables 0) tenantId deviceId actuator status (now 0)).map key).Nodup := by
    -- the id alone tells the keys apart
    refine List.Nodup.of_map (fun k => OrderDual.ofDual (ofLex k).2) ?_
    rw [List.map_map]
    exact hids.sublist (List.filter_sublist.map _)
  have hall := (pages_exact_iff (n := n) hlimit hkeys.of_map
    (by rw [matching, ← List.countP_eq_length_filter]; exact hn)).mpr
    (separated_of_nodup hkeys hlimit)
  choose found harranged hanswer using hanswers
  have hperm := hall found fun page =>
    ⟨(harranged page).perm.trans (hstill page), (harranged page).sorted⟩
  have hpages : pages limit found n = collect answers n := by
    rw [pages, funext hanswer]
  rw [hpages] at hperm
  refine ⟨hperm, fun page => ?_⟩
  rw [hperm.length_eq, ← (hstill page).length_eq, matching, ← List.countP_eq_length_filter]
  rfl

/-- A relay that was switched on and off, and another device's in between. -/
def relayLog : List Command :=
  [⟨"c1", "home", "pump", "relay", 10, 30, 10, none⟩,
    ⟨"c2", "home", "lamp", "relay", 11, 30, 11, none⟩,
    ⟨"c3", "home", "pump", "relay", 12, 30, 12, some 13⟩]

/-- When the second page is asked for, the lamp has answered and the rows lie in another order. -/
def relayLogs : Nat → List Command
  | 0 => relayLog
  | _ => [⟨"c3", "home", "pump", "relay", 12, 30, 12, some 13⟩,
      ⟨"c2", "home", "lamp", "relay", 11, 30, 11, some 14⟩,
      ⟨"c1", "home", "pump", "relay", 10, 30, 10, none⟩]

theorem pages_exact_relay :
    (collect (fun page => listCommands (relayLogs page) "home" "pump" 1 (page * 1) (some "relay")
      none 20) 2).Perm (matching relayLog "home" "pump" (some "relay") none 20) := by
  refine (pages_exact relayLogs (fun _ => 20) (by decide) "home" "pump" Nat.one_pos (some "relay")
    none (fun page => ?_) (fun page => listed_listCommands _ _ _ _ _ _ _ _) (by decide)).1
  cases page with
  | zero => exact .refl _
  | succ page => exact .swap _ _ _

/-! ## The badge -/

/-- `Date.now()`, and `new Date(iso).getTime()`, which reads three of the six digits. -/
def milliseconds (t : Datetime) : Int := t / 1000

def deadlineMs (c : Command) : Int := milliseconds c.issuedAt + c.ttlSeconds * 1000

/-- `commandStatus`. -/
def commandStatus (c : Command) (nowMs : Int) : Status :=
  if c.ackedAt.isSome then .confirmed
  else if deadlineMs c < nowMs then .noResponse
  else .pending

theorem deadlineMs_eq (c : Command) : deadlineMs c = milliseconds (deadline c) := by
  unfold deadlineMs deadline milliseconds seconds
  omega

/-- **The badge and the filter agree but for the millisecond of the deadline**: within it, from the
deadline on, the list has the command as unanswered and the badge still has it as pending. -/
theorem badge_agrees_iff (c : Command) (t : Datetime) :
    hasStatus t c (commandStatus c (milliseconds t)) = true ↔
      ¬ (c.ackedAt = none ∧ deadline c ≤ t ∧ milliseconds t = milliseconds (deadline c)) := by
  unfold commandStatus
  rw [deadlineMs_eq]
  cases hacked : c.ackedAt with
  | some at' => simp [hasStatus, hacked]
  | none =>
    have hle : deadline c ≤ t → milliseconds (deadline c) ≤ milliseconds t :=
      Int.ediv_le_ediv (by decide)
    have hlt : milliseconds (deadline c) < milliseconds t → deadline c ≤ t := by
      intro h
      by_contra hnot
      exact absurd (Int.ediv_le_ediv (by decide) (not_le.mp hnot).le) (not_le.mpr h)
    by_cases hpast : milliseconds (deadline c) < milliseconds t
    · simp [hasStatus, hacked, hpast, hlt hpast, hpast.ne']
    · simp only [Option.isSome_none, Bool.false_eq_true, if_false, if_neg hpast, hasStatus, hacked,
        Option.isNone_none, Bool.true_and, decide_eq_true_eq, true_and, not_and]
      constructor
      · intro hnot hdue
        exact absurd hnot (not_lt.mpr hdue)
      · intro h
        by_contra hdue
        have hdue' := not_lt.mp hdue
        exact h hdue' (le_antisymm (not_lt.mp hpast) (hle hdue'))

end IotSaas.Commands.Timeline
