import IotSaas.Api.Bodies
import IotSaas.Api.Closure
import IotSaas.Lib.Tx

/-!
# `Api/Updates.lean` — stored rules under any sequence of requests

The three writing routes as they run: a body that may be refused, a program over the working copy of
the tables, and a commit at its end. An update changes the rule it has loaded field by field and
checks the whole afterwards; the look-up of the devices flushes what has been changed, so the last
check is made when the changed row is in the copy already. A refused request is one whose copy is
forgotten.

`updateRuleTx_ok` and `persistRuleTx_ok` connect the programs with the functions of
`Api/Service.lean`, and `wellFormed_run` is what a history of requests leaves: rules that are as a
single create would have had them.
-/

set_option autoImplicit false

namespace IotSaas.Api

open Lib Rules

variable {F : Type}

/-! ## Tables and programs -/

/-- A row of `rule_versions`; the snapshot is the rule. -/
structure RuleVersion (F : Type) where
  tenantId : Uuid
  ruleId : Uuid
  version : Nat
  snapshot : StoredRule F
  changeLines : List String

structure Tables (F : Type) where
  db : Db F := {}
  versions : List (RuleVersion F) := []

inductive Refused where
  /-- 422, from pydantic. -/
  | body
  | rule (error : RuleError)
  deriving DecidableEq

/-- What the routes are run with. `changeLines` is `change_lines`: what has changed in words, and
nothing where nothing has. -/
structure Routes (F : Type) where
  lib : Library F
  py : Pydantic F
  changeLines : Option (StoredRule F) → StoredRule F → List String

abbrev Route (F α : Type) := Tx (Tables F) Refused α

/-- A check that raises a `RuleValidationError`. -/
def raised {α : Type} (x : Except RuleError α) : Route F α := Tx.check (x.mapError .rule)

/-- `select(func.max(RuleVersion.version))`, or zero. -/
def currentVersion (versions : List (RuleVersion F)) (ruleId : Uuid) : Nat :=
  ((versions.filter fun row => row.ruleId = ruleId).map (·.version)).foldl max 0

/-- `record_version`. -/
def recordVersion (routes : Routes F) (before : Option (StoredRule F)) (rule : StoredRule F) :
    Route F Unit :=
  Tx.write fun tables =>
    match routes.changeLines before rule with
    | [] => tables
    | lines =>
        { tables with
          versions := tables.versions ++
            [⟨rule.tenantId, rule.id, currentVersion tables.versions rule.id + 1, rule, lines⟩] }

/-- `_sync_rule_devices`. -/
def syncDevices (rule : StoredRule F) : Route F Unit :=
  Tx.write fun tables =>
    { tables with
      db := { tables.db with
        ruleDevices :=
          syncRuleDevices rule.tenantId rule.id rule.deviceMap tables.db.ruleDevices } }

/-- `_persist_rule`. -/
def persistRuleTx (routes : Routes F) (rule : StoredRule F) : Route F (StoredRule F) := do
  raised (assertLeavesHaveDevice rule.condition)
  raised (validateTrigger routes.lib rule.trigger)
  raised (validateClearActions rule.trigger rule.clearActions)
  raised (validateLatch rule.trigger rule.executionPolicy rule.clearActions)
  let tables ← Tx.read
  raised (validateDevicesInTenant tables.db rule.tenantId (rule.deviceMap.map Prod.fst))
  Tx.write fun tables => { tables with db := { tables.db with rules := tables.db.rules ++ [rule] } }
  syncDevices rule
  recordVersion routes none rule
  pure rule

/-- The loaded rule, or 404. -/
def loadRule (tables : Tables F) (tenantId ruleId : Uuid) : Except RuleError (StoredRule F) :=
  match getRule tables.db tenantId ruleId with
  | none => .error .notFound
  | some rule => .ok rule

/-- The changed object is written; the look-up behind it does that before it asks. -/
def flush (ruleId : Uuid) (rule : StoredRule F) : Route F Unit :=
  Tx.write fun tables =>
    { tables with
      db := { tables.db with
        rules := tables.db.rules.map fun stored => if stored.id = ruleId then rule else stored } }

/-- `update_rule`. -/
def updateRuleTx (routes : Routes F) (tenantId ruleId : Uuid) (request : RuleUpdateRequest F) :
    Route F (StoredRule F) := do
  let tables ← Tx.read
  let before ← raised (loadRule tables tenantId ruleId)
  raised (validateGivenTrigger routes.lib request.trigger)
  let rule := updatedRule (fallbackDevice tables.db ruleId) request before
  raised (requireCondition rule)
  raised (assertLeavesHaveDevice rule.condition)
  raised (validateClearActions rule.trigger rule.clearActions)
  raised (validateLatch rule.trigger rule.executionPolicy rule.clearActions)
  flush ruleId rule
  let flushed ← Tx.read
  raised (validateDevicesInTenant flushed.db rule.tenantId (rule.deviceMap.map Prod.fst))
  syncDevices rule
  recordVersion routes (some before) rule
  pure rule

/-- A body pydantic has read, or 422. -/
def parsed {α : Type} (request : Option α) : Route F α :=
  Tx.check (match request with
    | none => .error .body
    | some request => .ok request)

/-- `get_device_or_404`. -/
def deviceOr404 (tables : Tables F) (tenantId deviceId : Uuid) : Except RuleError Unit :=
  if tables.db.devices.any fun device => device.id = deviceId && device.tenantId = tenantId then
    .ok ()
  else .error .notFound

/-- What `create_device_rule` stores, if there is an action. -/
def definedRule (definition : Option (StoredRule F)) : Except RuleError (StoredRule F) :=
  match definition with
  | none => .error (.invalid "a rule needs at least one action")
  | some rule => .ok rule

/-- A request to one of the routes, as it arrives. -/
inductive RuleRequest (F : Type) where
  | create (body : CreateBody F)
  | createForDevice (deviceId : Uuid) (body : DeviceCreateBody F)
  | update (ruleId : Uuid) (body : PatchBody F)

section

variable [JsonNumber F]

/-- The routes; `newId` is the identifier a new rule gets. -/
def respond (routes : Routes F) (tenantId newId : Uuid) (request : RuleRequest F) :
    Route F (StoredRule F) :=
  match request with
  | .create body => do
      let request ← parsed (body.validate routes.py)
      persistRuleTx routes (canonicalRule tenantId newId request)
  | .createForDevice deviceId body => do
      let request ← parsed (body.validate routes.py)
      let tables ← Tx.read
      raised (deviceOr404 tables tenantId deviceId)
      let rule ← raised (definedRule (deviceRule routes.lib tenantId newId deviceId request))
      persistRuleTx routes rule
  | .update ruleId body => do
      let request ← parsed (body.validate routes.py)
      updateRuleTx routes tenantId ruleId request

/-- What happens to the tables: a request, or devices coming and going. -/
inductive ApiEvent (F : Type) where
  | request (tenantId newId : Uuid) (request : RuleRequest F)
  | devices (devices : List Device)

/-- The tables after an event. -/
def apiStep (routes : Routes F) (tables : Tables F) (event : ApiEvent F) : Tables F :=
  match event with
  | .request tenantId newId request => (Tx.serve (respond routes tenantId newId request) tables).2
  | .devices devices => { tables with db := { tables.db with devices := devices } }

/-- The tables after a history. -/
def apiRun (routes : Routes F) (tables : Tables F) (events : List (ApiEvent F)) : Tables F :=
  events.foldl (apiStep routes) tables

end

/-! ## Well-formed rules -/

/-- **What a single create enforces on the whole.** -/
structure WellFormed (routes : Routes F) (rule : StoredRule F) : Prop where
  condition : rule.trigger = .metric → rule.condition.isSome
  clearActions : rule.clearActions ≠ [] → rule.trigger = .metric
  latch : rule.executionPolicy.strategy = .latch → rule.trigger = .metric ∧ rule.clearActions = []
  schedule : ∀ cron timezone, rule.trigger = .schedule cron timezone →
    routes.lib.isValidCron cron = true ∧ routes.lib.isZone timezone = true
  deviceStatus : TriggerNamed routes.py rule.trigger
  actions : rule.actions ≠ []
  leaves : ∀ leaf ∈ conditionLeaves rule.condition, leaf.deviceId.isSome

/-! ## The programs and the functions of the service -/

section

variable {routes : Routes F} {tables tables' : Tables F}

theorem raised_bind_ok {α β : Type} {x : Except RuleError α} {f : α → Route F β} {b : β}
    (h : (raised x >>= f) tables = (.ok b, tables')) :
    ∃ a, x = .ok a ∧ f a tables = (.ok b, tables') := by
  obtain ⟨a, hx, h⟩ := Tx.check_bind_ok h
  cases x with
  | error e => cases hx
  | ok a' =>
    cases hx
    exact ⟨a, rfl, h⟩

theorem parsed_bind_ok {α β : Type} {request : Option α} {f : α → Route F β} {b : β}
    (h : (parsed request >>= f) tables = (.ok b, tables')) :
    ∃ a, request = some a ∧ f a tables = (.ok b, tables') := by
  obtain ⟨a, hrequest, h⟩ := Tx.check_bind_ok h
  cases request with
  | none => cases hrequest
  | some a' =>
    cases hrequest
    exact ⟨a, rfl, h⟩

/-- A version is beside the rules, and ends a write. -/
theorem recordVersion_ok {before : Option (StoredRule F)} {rule stored : StoredRule F}
    (h : (do
      recordVersion routes before rule
      pure rule : Route F (StoredRule F)) tables = (.ok stored, tables')) :
    stored = rule ∧ tables'.db = tables.db := by
  have h' := h
  unfold recordVersion at h'
  rw [Tx.write_bind] at h'
  cases h'
  refine ⟨rfl, ?_⟩
  split <;> rfl

/-- **What is persisted** is what `persistRule` makes of the tables. -/
theorem persistRuleTx_ok {rule stored : StoredRule F}
    (h : persistRuleTx routes rule tables = (.ok stored, tables')) :
    persistRule routes.lib tables.db rule = .ok (tables'.db, stored) := by
  obtain ⟨_, hleaves, h⟩ := raised_bind_ok h
  obtain ⟨_, htrigger, h⟩ := raised_bind_ok h
  obtain ⟨_, hclear, h⟩ := raised_bind_ok h
  obtain ⟨_, hlatch, h⟩ := raised_bind_ok h
  rw [Tx.read_bind] at h
  obtain ⟨_, hdevices, h⟩ := raised_bind_ok h
  rw [Tx.write_bind] at h
  obtain ⟨rfl, hdb⟩ := recordVersion_ok h
  rw [hdb]
  unfold persistRule
  rw [hleaves, htrigger, hclear, hlatch, hdevices]
  rfl

/-- **What is updated** is what `updateRule` makes of the tables. -/
theorem updateRuleTx_ok {tenantId ruleId : Uuid} {request : RuleUpdateRequest F}
    {stored : StoredRule F}
    (h : updateRuleTx routes tenantId ruleId request tables = (.ok stored, tables')) :
    updateRule routes.lib tables.db tenantId ruleId request = .ok (tables'.db, stored) ∧
      requireCondition stored = .ok () := by
  unfold updateRuleTx at h
  rw [Tx.read_bind] at h
  obtain ⟨before, hload, h⟩ := raised_bind_ok h
  obtain ⟨_, htrigger, h⟩ := raised_bind_ok h
  obtain ⟨_, hrequire, h⟩ := raised_bind_ok h
  obtain ⟨_, hleaves, h⟩ := raised_bind_ok h
  obtain ⟨_, hclear, h⟩ := raised_bind_ok h
  obtain ⟨_, hlatch, h⟩ := raised_bind_ok h
  unfold flush at h
  rw [Tx.write_bind, Tx.read_bind] at h
  obtain ⟨_, hdevices, h⟩ := raised_bind_ok h
  unfold syncDevices at h
  rw [Tx.write_bind] at h
  obtain ⟨rfl, hdb⟩ := recordVersion_ok h
  refine ⟨?_, hrequire⟩
  rw [hdb]
  unfold updateRule
  unfold loadRule at hload
  cases hbefore : getRule tables.db tenantId ruleId with
  | none =>
    rw [hbefore] at hload
    cases hload
  | some found =>
    rw [hbefore] at hload
    cases hload
    -- the devices were looked up behind the flush, which leaves them alone
    have hdevices' : validateDevicesInTenant tables.db _ _ = .ok () := hdevices
    simp only [htrigger, hrequire, hleaves, hclear, hlatch, hdevices']
    rfl

/-! ## What the checks are worth -/

/-- Every schedule is one croniter and the time zones know. -/
def ScheduleValid (routes : Routes F) (trigger : Trigger) : Prop :=
  ∀ cron timezone, trigger = .schedule cron timezone →
    routes.lib.isValidCron cron = true ∧ routes.lib.isZone timezone = true

theorem ScheduleValid.of_check {trigger : Trigger}
    (h : validateTrigger routes.lib trigger = .ok ()) : ScheduleValid routes trigger := by
  intro cron timezone heq
  subst heq
  simp only [validateTrigger] at h
  split at h
  · rename_i hcron
    split at h
    · rename_i hzone
      exact ⟨hcron, hzone⟩
    · cases h
  · cases h

theorem clearActions_of_check {trigger : Trigger} {clearActions : List (Action F)}
    (h : validateClearActions trigger clearActions = .ok ()) (hsome : clearActions ≠ []) :
    trigger = .metric := by
  unfold validateClearActions at h
  split at h
  · cases h
  · rename_i hnot
    by_contra hmetric
    exact hnot ⟨by simpa using hsome, hmetric⟩

theorem latch_of_check {trigger : Trigger} {policy : ExecutionPolicy F}
    {clearActions : List (Action F)} (h : validateLatch trigger policy clearActions = .ok ())
    (hlatch : policy.strategy = .latch) : trigger = .metric ∧ clearActions = [] := by
  unfold validateLatch at h
  rw [if_neg (not_not.mpr hlatch)] at h
  split at h
  · cases h
  · rename_i hmetric
    split at h
    · cases h
    · rename_i hnone
      exact ⟨not_not.mp hmetric, by simpa using hnone⟩

theorem condition_of_check {rule : StoredRule F} (h : requireCondition rule = .ok ())
    (hmetric : rule.trigger = .metric) : rule.condition.isSome := by
  unfold requireCondition at h
  split at h
  · cases h
  · rename_i hnot
    rw [Option.isSome_iff_ne_none]
    intro hnone
    exact hnot ⟨by rw [hnone]; rfl, hmetric⟩

/-- A rule whose trigger, actions and condition are in order and that has passed the checks of
every write. -/
theorem WellFormed.of_passed {given : Option Trigger} {rule : StoredRule F}
    (h : Passed routes.lib given rule) (hcondition : rule.trigger = .metric → rule.condition.isSome)
    (hschedule : ScheduleValid routes rule.trigger) (hnamed : TriggerNamed routes.py rule.trigger)
    (hactions : rule.actions ≠ []) : WellFormed routes rule where
  condition := hcondition
  clearActions := clearActions_of_check h.clearActions
  latch := latch_of_check h.latch
  schedule := hschedule
  deviceStatus := hnamed
  actions := hactions
  leaves := assertLeavesHaveDevice_ok h.leaves

/-! ## One write -/

/-- A rule that is created whole. -/
theorem WellFormed.of_persist {db db' : Db F} {rule stored : StoredRule F}
    (h : persistRule routes.lib db rule = .ok (db', stored))
    (hcondition : rule.trigger = .metric → rule.condition.isSome)
    (hnamed : TriggerNamed routes.py rule.trigger) (hactions : rule.actions ≠ []) :
    WellFormed routes rule := by
  obtain ⟨-, -, hpassed, -⟩ := persistRule_ok h
  exact .of_passed hpassed hcondition (.of_check hpassed.trigger) hnamed hactions

/-- The device route defines a rule on readings, with the actions it was given. -/
theorem deviceRule_spec {tenantId ruleId deviceId : Uuid} {request : DeviceRuleCreateRequest F}
    {rule : StoredRule F}
    (h : deviceRule routes.lib tenantId ruleId deviceId request = some rule) :
    rule.trigger = .metric ∧ rule.condition.isSome ∧ rule.actions ≠ [] := by
  unfold deviceRule at h
  dsimp only at h
  split at h
  · cases h
  · rename_i actions hsome
    cases h
    refine ⟨rfl, rfl, ?_⟩
    intro hnil
    exact hsome (List.map_eq_nil_iff.mp hnil)

/-- **A rule that is updated** stays as a single create would have had it: what the request does not
bring was so before, and what holds between two fields is checked on the whole. -/
theorem WellFormed.of_update {db db' : Db F} {tenantId ruleId : Uuid}
    {request : RuleUpdateRequest F} {stored : StoredRule F}
    (h : updateRule routes.lib db tenantId ruleId request = .ok (db', stored))
    (hrequire : requireCondition stored = .ok ()) (hvalidated : request.Validated routes.py)
    (hbefore : ∀ rule ∈ db.rules, WellFormed routes rule) : WellFormed routes stored := by
  obtain ⟨before, hget, rfl, -, hpassed, -⟩ := updateRule_ok h
  have hold : WellFormed routes before := hbefore before (List.mem_of_find?_eq_some hget)
  refine .of_passed hpassed (condition_of_check hrequire) ?_ ?_ ?_
  · cases htrigger : request.trigger with
    | none =>
      have hsame : (updatedRule (fallbackDevice db ruleId) request before).trigger =
          before.trigger := by simp [updatedRule, htrigger]
      exact hsame ▸ hold.schedule
    | some trigger =>
      have hnew : (updatedRule (fallbackDevice db ruleId) request before).trigger = trigger := by
        simp [updatedRule, htrigger]
      have hgiven := hpassed.trigger
      rw [htrigger] at hgiven
      exact hnew ▸ .of_check hgiven
  · cases htrigger : request.trigger with
    | none =>
      have hsame : (updatedRule (fallbackDevice db ruleId) request before).trigger =
          before.trigger := by simp [updatedRule, htrigger]
      exact hsame ▸ hold.deviceStatus
    | some trigger =>
      have hnew : (updatedRule (fallbackDevice db ruleId) request before).trigger = trigger := by
        simp [updatedRule, htrigger]
      exact hnew ▸ hvalidated.trigger trigger htrigger
  · cases hactions : request.actions with
    | some actions =>
      have hnew : (updatedRule (fallbackDevice db ruleId) request before).actions = actions := by
        simp [updatedRule, hactions]
      exact hnew ▸ hvalidated.actions actions hactions
    | none =>
      cases haction : request.action with
      | some action => simp [updatedRule, hactions, haction]
      | none =>
        have hsame : (updatedRule (fallbackDevice db ruleId) request before).actions =
            before.actions := by simp [updatedRule, hactions, haction]
        exact hsame ▸ hold.actions

end

/-! ## A history of requests -/

section

variable {routes : Routes F} {tables : Tables F}

/-- Every stored rule is well formed. -/
def AllWellFormed (routes : Routes F) (tables : Tables F) : Prop :=
  ∀ rule ∈ tables.db.rules, WellFormed routes rule

/-- A write that is well formed itself leaves the rules so. -/
theorem AllWellFormed.of_persist {tables' : Tables F} {rule stored : StoredRule F}
    (h : AllWellFormed routes tables)
    (hpersist : persistRule routes.lib tables.db rule = .ok (tables'.db, stored))
    (hrule : WellFormed routes rule) : AllWellFormed routes tables' := by
  obtain ⟨-, hrules, -, -⟩ := persistRule_ok hpersist
  intro other hother
  rw [hrules] at hother
  cases List.mem_append.mp hother with
  | inl hold => exact h other hold
  | inr hnew =>
    cases List.mem_singleton.mp hnew
    exact hrule

variable [JsonNumber F]

/-- **Every request keeps the stored rules well formed.** -/
theorem AllWellFormed.respond {tables' : Tables F} {tenantId newId : Uuid}
    {request : RuleRequest F} {stored : StoredRule F} (h : AllWellFormed routes tables)
    (hrespond : Api.respond routes tenantId newId request tables = (.ok stored, tables')) :
    AllWellFormed routes tables' := by
  cases request with
  | create body =>
    obtain ⟨request, hbody, hpersist⟩ := parsed_bind_ok hrespond
    have hvalidated := CreateBody.validated hbody
    have hok := persistRuleTx_ok hpersist
    exact h.of_persist hok
      (.of_persist hok hvalidated.condition hvalidated.trigger hvalidated.actions)
  | createForDevice deviceId body =>
    obtain ⟨request, hbody, hrespond⟩ := parsed_bind_ok hrespond
    rw [Tx.read_bind] at hrespond
    obtain ⟨_, -, hrespond⟩ := raised_bind_ok hrespond
    obtain ⟨rule, hdefined, hpersist⟩ := raised_bind_ok hrespond
    have hdevice : deviceRule routes.lib tenantId newId deviceId request = some rule := by
      unfold definedRule at hdefined
      split at hdefined
      · cases hdefined
      · rename_i heq
        cases hdefined
        exact heq
    obtain ⟨hmetric, hcondition, hactions⟩ := deviceRule_spec hdevice
    have hok := persistRuleTx_ok hpersist
    refine h.of_persist hok (.of_persist hok (fun _ => hcondition) ?_ hactions)
    rw [hmetric]
    exact nofun
  | update ruleId body =>
    obtain ⟨request, hbody, hupdate⟩ := parsed_bind_ok hrespond
    obtain ⟨hok, hrequire⟩ := updateRuleTx_ok hupdate
    have hstored := WellFormed.of_update hok hrequire (PatchBody.validated hbody) h
    obtain ⟨before, -, -, hrules, -, -⟩ := updateRule_ok hok
    intro other hother
    rw [hrules] at hother
    obtain ⟨old, hold, heq⟩ := List.mem_map.mp hother
    split at heq
    · exact heq ▸ hstored
    · exact heq ▸ h old hold

theorem AllWellFormed.step (h : AllWellFormed routes tables) (event : ApiEvent F) :
    AllWellFormed routes (apiStep routes tables event) := by
  cases event with
  | devices devices => exact h
  | request tenantId newId request =>
    rcases Tx.serve_cases (Api.respond routes tenantId newId request) tables with
      ⟨e, -, hsame⟩ | ⟨stored, hok⟩
    · show AllWellFormed routes (Tx.serve (Api.respond routes tenantId newId request) tables).2
      rw [hsame]
      exact h
    · exact h.respond hok

theorem AllWellFormed.run (h : AllWellFormed routes tables) (events : List (ApiEvent F)) :
    AllWellFormed routes (apiRun routes tables events) := by
  induction events generalizing tables with
  | nil => exact h
  | cons event rest ih => exact ih (h.step event)

end

/-- **Stored rules stay well formed under partial updates, and a refused update does nothing.** In
every state a history of requests comes to, from tables without rules: every rule is as a single
create enforces, and an update that is refused leaves the rules, their devices and their versions
as they are. -/
theorem wellFormed_run [JsonNumber F] (routes : Routes F) (devices : List Device)
    (events : List (ApiEvent F)) :
    (∀ rule ∈ (apiRun routes { db := { devices := devices } } events).db.rules,
      WellFormed routes rule) ∧
    ∀ tenantId newId ruleId body why,
      (Tx.serve (respond routes tenantId newId (.update ruleId body))
        (apiRun routes { db := { devices := devices } } events)).1 = .error why →
      (Tx.serve (respond routes tenantId newId (.update ruleId body))
        (apiRun routes { db := { devices := devices } } events)).2 =
        apiRun routes { db := { devices := devices } } events := by
  constructor
  · exact AllWellFormed.run (nofun : AllWellFormed routes { db := { devices := devices } }) events
  · intro tenantId newId ruleId body why hrefused
    exact Tx.serve_error hrefused

end IotSaas.Api
