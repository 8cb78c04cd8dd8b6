import IotSaas.Api.ChangeLines
import IotSaas.Api.Closure
import IotSaas.Api.StoredTree

/-!
# `Api/Versions.lean` — the versions of a rule

Rules are created and updated, one request after another, and every write that `change_lines` has
words for appends a version. `History` is the tables it happens in; what is compared and kept is the
snapshot, the documents a rule is dumped as. An update compares with the rule as it was loaded, not
with the newest version, and what the row holds afterwards is the session's: it may leave a column
alone whose new value equals the old one in Python (`Flushed`).

The versions of a rule are numbered without gaps whatever is asked for (`Numbered.run`). That the
newest one shows the stored rule (`Current`) is kept by every update that does not exchange actions
for others equal to them but for booleans and the numbers they count as (`Plain`), and a tree of
conditions has no booleans (`counted_conditionDoc`).
-/

set_option autoImplicit false

namespace IotSaas.Api.Versions

open Lib Rules

variable {F : Type}

/-! ## Documents -/

def testRhs (test : LeafTest F) : Option (Stored.RhsSpec F) :=
  match test with
  | .compare _ (.static value) _ => some (.static value)
  | .compare _ (.metric deviceId metric) _ => some (.metric deviceId metric)
  | .range _ low high => some (.range low high)
  | .set _ values => some (.set values)
  | .change _ => none

section

variable [JsonNumber F]

def testHysteresis (test : LeafTest F) : F :=
  match test with
  | .compare _ _ hysteresis => hysteresis
  | _ => JsonNumber.ofNat 0

/-- The leaf, its operator and its side apart. -/
def leafModel (leaf : ConditionLeaf F) : Stored.ConditionLeaf F :=
  { deviceId := leaf.deviceId
    metric := leaf.metric
    operator := Stored.Operator.text (testOperator leaf.test)
    rhs := testRhs leaf.test
    hysteresis := testHysteresis leaf.test }

mutual

def nodeModel : ConditionNode F → Stored.ConditionNode F
  | .leaf l => .leaf (leafModel l)
  | .group op predicates => .group op (nodeModels predicates)

def nodeModels : List (ConditionNode F) → List (Stored.ConditionNode F)
  | [] => []
  | node :: rest => nodeModel node :: nodeModels rest

end

/-- A tree as `model_dump(mode="json")` has it. -/
def conditionDoc (condition : Option (ConditionNode F)) : Json F :=
  (condition.map fun node => (nodeModel node).modelDump).getD .null

def valueDoc (value : CommandValue F) : Json F :=
  match value with
  | .bool b => .bool b
  | .float x => .num x
  | .str s => .str s

def channelText (channel : NotificationChannel) : String :=
  match channel with
  | .platform => "platform"
  | .email => "email"

def retryDoc (retry : RetryConfig F) : Json F :=
  .obj [("max_attempts", .num (JsonNumber.ofNat retry.maxAttempts)),
    ("timeout_s", .num retry.timeoutS)]

/-- An action as `model_dump(mode="json")` has it. -/
def actionDoc (action : Action F) : Json F :=
  match action with
  | .actuatorCommand deviceId actuator value =>
      .obj [("type", .str "actuator_command"), ("device_id", Stored.optionalText deviceId),
        ("actuator", .str actuator), ("value", valueDoc value)]
  | .notification message channels =>
      .obj [("type", .str "notification"), ("message", .str message),
        ("channels", .arr (channels.map fun channel => .str (channelText channel)))]
  | .webhook config =>
      .obj [("type", .str "webhook"), ("url", .str config.url), ("body", .obj config.body),
        ("retry", (config.retry.map retryDoc).getD .null),
        ("timeout_s", (config.timeoutS.map .num).getD .null)]
  | .email recipients subject body =>
      .obj [("type", .str "email"), ("to", .arr (recipients.map .str)),
        ("subject", .str subject), ("body", .str body)]

def actionDocs (actions : List (Action F)) : Json F := .arr (actions.map actionDoc)

/-! ## Tables -/

/-- A row of `rule_versions`. -/
structure RuleVersion (F : Type) where
  tenantId : Uuid
  ruleId : Uuid
  version : Nat
  snapshot : Snapshot F
  changeLines : List String

/-- The tables. The policies of the rules in `bare` have no `clear_for_duration`. -/
structure History (F : Type) where
  db : Db F := {}
  bare : List Uuid := []
  versions : List (RuleVersion F) := []

/-- A policy as it is stored. -/
def policyDoc (bare : Bool) (policy : ExecutionPolicy F) : PolicyDoc F :=
  { strategy := some policy.strategy
    forDuration := some policy.forDuration
    cooldown := some policy.cooldown
    resetCondition := conditionDoc policy.resetCondition
    clearForDuration := if bare then none else some policy.clearForDuration }

/-- `snapshot_of`. -/
def snapshotOf (bare : List Uuid) (rule : StoredRule F) : Snapshot F :=
  { name := rule.name
    description := rule.description
    enabled := rule.enabled
    trigger := some (.given rule.trigger)
    condition := conditionDoc rule.condition
    executionPolicy := some (policyDoc (bare.contains rule.id) rule.executionPolicy)
    actions := rule.actions.map actionDoc
    clearActions := rule.clearActions.map actionDoc }

/-! ## The session -/

/-- What a column holds behind a flush: what it was given, or what it held where that is equal. -/
def Kept {α : Type} (eq : α → α → Bool) (before after column : α) : Prop :=
  column = after ∨ column = before ∧ eq before after = true

def policyEq (a b : ExecutionPolicy F) : Bool :=
  decide (a.strategy = b.strategy) && a.forDuration == b.forDuration && a.cooldown == b.cooldown &&
    a.clearForDuration == b.clearForDuration &&
    pyEq (conditionDoc a.resetCondition) (conditionDoc b.resetCondition)

/-- **A row that was loaded, changed and flushed.** -/
structure Flushed (before after row : StoredRule F) : Prop where
  id : row.id = after.id
  name : row.name = after.name
  description : row.description = after.description
  enabled : row.enabled = after.enabled
  trigger : row.trigger = after.trigger
  condition : Kept (fun a b => pyEq (conditionDoc a) (conditionDoc b)) before.condition
    after.condition row.condition
  executionPolicy : Kept policyEq before.executionPolicy after.executionPolicy row.executionPolicy
  actions : Kept (fun a b => pyEq (actionDocs a) (actionDocs b)) before.actions after.actions
    row.actions
  clearActions : Kept (fun a b => pyEq (actionDocs a) (actionDocs b)) before.clearActions
    after.clearActions row.clearActions

/-- SQLAlchemy's unit of work: from the loaded and the changed rule to the row. -/
structure Session (F : Type) [JsonNumber F] where
  flush : StoredRule F → StoredRule F → StoredRule F
  flushed : ∀ before after, Flushed before after (flush before after)

def keep {α : Type} (eq : α → α → Bool) (before after : α) : α :=
  if eq before after then before else after

theorem kept_keep {α : Type} (eq : α → α → Bool) (before after : α) :
    Kept eq before after (keep eq before after) := by
  unfold keep
  by_cases heq : eq before after = true
  · rw [if_pos heq]
    exact .inr ⟨rfl, heq⟩
  · rw [if_neg heq]
    exact .inl rfl

/-- A flush that writes no column whose value is equal to the loaded one. -/
def changedColumns (before after : StoredRule F) : StoredRule F :=
  { after with
    condition :=
      keep (fun a b => pyEq (conditionDoc a) (conditionDoc b)) before.condition after.condition
    executionPolicy := keep policyEq before.executionPolicy after.executionPolicy
    actions := keep (fun a b => pyEq (actionDocs a) (actionDocs b)) before.actions after.actions
    clearActions :=
      keep (fun a b => pyEq (actionDocs a) (actionDocs b)) before.clearActions after.clearActions }

theorem flushed_changedColumns (before after : StoredRule F) :
    Flushed before after (changedColumns before after) where
  id := rfl
  name := rfl
  description := rfl
  enabled := rfl
  trigger := rfl
  condition := kept_keep _ _ _
  executionPolicy := kept_keep _ _ _
  actions := kept_keep _ _ _
  clearActions := kept_keep _ _ _

theorem flushed_self (before after : StoredRule F) : Flushed before after after where
  id := rfl
  name := rfl
  description := rfl
  enabled := rfl
  trigger := rfl
  condition := .inl rfl
  executionPolicy := .inl rfl
  actions := .inl rfl
  clearActions := .inl rfl

/-- The two ends of what a session may do. -/
def Session.keeping : Session F := ⟨changedColumns, flushed_changedColumns⟩

def Session.assigning : Session F := ⟨fun _ after => after, flushed_self⟩

/-! ## Requests -/

/-- What the rules service is run with. -/
structure Service (F : Type) [JsonNumber F] where
  lib : Library F
  digits : Digits
  session : Session F

/-- The versions of a rule, oldest first. -/
def versionsOf (versions : List (RuleVersion F)) (ruleId : Uuid) : List (RuleVersion F) :=
  versions.filter fun row => row.ruleId = ruleId

/-- `select(func.max(RuleVersion.version))`, or zero. -/
def currentVersion (versions : List (RuleVersion F)) (ruleId : Uuid) : Nat :=
  ((versionsOf versions ruleId).map (·.version)).foldl max 0

/-- `record_version`. -/
def recordVersion (digits : Digits) (before : Option (Snapshot F)) (rule : StoredRule F)
    (after : Snapshot F) (versions : List (RuleVersion F)) : List (RuleVersion F) :=
  match changeLines digits before after with
  | [] => versions
  | lines =>
      versions ++ [⟨rule.tenantId, rule.id, currentVersion versions rule.id + 1, after, lines⟩]

/-- A rule is created: by `create_device_rule` without `clear_for_duration`. -/
def create (service : Service F) (history : History F) (isBare : Bool)
    (result : Except RuleError (Db F × StoredRule F)) : History F :=
  match result with
  | .error _ => history
  | .ok (db, rule) =>
      let bare := if isBare then rule.id :: history.bare else history.bare
      { db := db
        bare := bare
        versions :=
          recordVersion service.digits none rule (snapshotOf bare rule) history.versions }

/-- `update_rule` writes a policy with all its fields, if it writes one. -/
def writesPolicy (request : RuleUpdateRequest F) : Bool :=
  request.executionPolicy.isSome || request.forDuration.isSome || request.cooldown.isSome

def bareAfter (bare : List Uuid) (ruleId : Uuid) (request : RuleUpdateRequest F) : List Uuid :=
  if writesPolicy request then bare.filter (· ≠ ruleId) else bare

/-- `update_rule`. -/
def update (service : Service F) (history : History F) (tenantId ruleId : Uuid)
    (request : RuleUpdateRequest F) : History F :=
  match getRule history.db tenantId ruleId,
      updateRule service.lib history.db tenantId ruleId request with
  | some before, .ok (db, after) =>
      let bare := bareAfter history.bare ruleId request
      { db :=
          { db with
            rules := db.rules.map fun stored =>
              if stored.id = ruleId then service.session.flush before after else stored }
        bare := bare
        versions :=
          recordVersion service.digits (some (snapshotOf history.bare before)) after
            (snapshotOf bare after) history.versions }
  | _, _ => history

/-- What happens: a request, with the identifier a new rule would get, or devices coming and
going. -/
inductive Event (F : Type) where
  | write (tenantId newId : Uuid) (request : Write F)
  | devices (devices : List Device)

/-- An identifier is given once: it is the table's primary key. -/
def step (service : Service F) (history : History F) (event : Event F) : History F :=
  match event with
  | .devices devices => { history with db := { history.db with devices := devices } }
  | .write tenantId newId request =>
      match request with
      | .update ruleId request => update service history tenantId ruleId request
      | .createCanonical request =>
          if history.db.rules.any fun rule => rule.id = newId then history
          else
            create service history false
              (write service.lib history.db tenantId newId (.createCanonical request))
      | .createForDevice deviceId request =>
          if history.db.rules.any fun rule => rule.id = newId then history
          else
            create service history true
              (write service.lib history.db tenantId newId (.createForDevice deviceId request))

def run (service : Service F) (history : History F) (events : List (Event F)) : History F :=
  events.foldl (step service) history

end

/-! ## What a request can do -/

theorem mem_bareAfter {bare : List Uuid} {ruleId id : Uuid} (request : RuleUpdateRequest F)
    (h : id ≠ ruleId) : id ∈ bareAfter bare ruleId request ↔ id ∈ bare := by
  unfold bareAfter
  split
  · simp [h]
  · rfl

theorem deviceRule_id {lib : Library F} {tenantId ruleId deviceId : Uuid}
    {request : DeviceRuleCreateRequest F} {rule : StoredRule F}
    (h : deviceRule lib tenantId ruleId deviceId request = some rule) : rule.id = ruleId := by
  unfold deviceRule at h
  dsimp only at h
  split at h
  · cases h
  · cases h
    rfl

theorem getRule_id {db : Db F} {tenantId ruleId : Uuid} {rule : StoredRule F}
    (h : getRule db tenantId ruleId = some rule) : rule.id = ruleId := by
  have hfound := List.find?_some h
  simp only [Bool.and_eq_true, decide_eq_true_eq] at hfound
  exact hfound.2

section

variable [JsonNumber F]

/-- What becomes of the tables: nothing but devices, a new rule, or a changed one. -/
inductive Outcome (service : Service F) (history : History F) : Event F → History F → Prop where
  | idle {event : Event F} {history' : History F} (rules : history'.db.rules = history.db.rules)
      (bare : history'.bare = history.bare) (versions : history'.versions = history.versions) :
      Outcome service history event history'
  | created {event : Event F} {history' : History F} {rule : StoredRule F}
      (fresh : ∀ other ∈ history.db.rules, other.id ≠ rule.id)
      (rules : history'.db.rules = history.db.rules ++ [rule])
      (bare : history'.bare = history.bare ∨ history'.bare = rule.id :: history.bare)
      (versions : history'.versions =
        recordVersion service.digits none rule (snapshotOf history'.bare rule) history.versions) :
      Outcome service history event history'
  | updated {tenantId newId ruleId : Uuid} {request : RuleUpdateRequest F} {history' : History F}
      {before after : StoredRule F} (loaded : getRule history.db tenantId ruleId = some before)
      (changed : after = updatedRule (fallbackDevice history.db ruleId) request before)
      (rules : history'.db.rules = history.db.rules.map fun stored =>
        if stored.id = ruleId then service.session.flush before after else stored)
      (bare : history'.bare = bareAfter history.bare ruleId request)
      (versions : history'.versions =
        recordVersion service.digits (some (snapshotOf history.bare before)) after
          (snapshotOf history'.bare after) history.versions) :
      Outcome service history (.write tenantId newId (.update ruleId request)) history'

/-- A rule that is created has the new identifier. -/
theorem create_outcome {service : Service F} {history : History F} {event : Event F}
    {newId : Uuid} {rule : StoredRule F} (isBare : Bool) (hid : rule.id = newId)
    (hfresh : ¬ (history.db.rules.any fun other => other.id = newId) = true) :
    Outcome service history event
      (create service history isBare (persistRule service.lib history.db rule)) := by
  cases hpersist : persistRule service.lib history.db rule with
  | error e => exact .idle rfl rfl rfl
  | ok result =>
    obtain ⟨db, stored⟩ := result
    obtain ⟨rfl, hrules, -, -⟩ := persistRule_ok hpersist
    refine .created ?_ hrules ?_ rfl
    · intro other hother heq
      exact hfresh (List.any_eq_true.mpr ⟨other, hother, by simp [heq, hid]⟩)
    · cases isBare with
      | false => exact .inl rfl
      | true => exact .inr rfl

/-- The row that was loaded is the one that changes. -/
theorem update_rules {service : Service F} {history : History F} {tenantId ruleId : Uuid}
    {request : RuleUpdateRequest F} {before after : StoredRule F} {db : Db F}
    (hload : getRule history.db tenantId ruleId = some before)
    (hupdate : updateRule service.lib history.db tenantId ruleId request = .ok (db, after)) :
    (update service history tenantId ruleId request).db.rules =
      history.db.rules.map fun stored =>
        if stored.id = ruleId then service.session.flush before after else stored := by
  obtain ⟨before', hload', hafter, hrules, -, -⟩ := updateRule_ok hupdate
  cases hload.symm.trans hload'
  simp only [update, hload, hupdate]
  rw [hrules, List.map_map]
  apply List.map_congr_left
  intro stored _
  by_cases hid : stored.id = ruleId
  · have hid' : after.id = ruleId := by
      rw [hafter]
      show before.id = ruleId
      exact getRule_id hload
    simp [hid, hid']
  · simp [hid]

theorem update_outcome (service : Service F) (history : History F)
    (tenantId newId ruleId : Uuid) (request : RuleUpdateRequest F) :
    Outcome service history (.write tenantId newId (.update ruleId request))
      (update service history tenantId ruleId request) := by
  cases hload : getRule history.db tenantId ruleId with
  | none =>
    simp only [update, hload]
    exact .idle rfl rfl rfl
  | some before =>
    cases hupdate : updateRule service.lib history.db tenantId ruleId request with
    | error e =>
      simp only [update, hload, hupdate]
      exact .idle rfl rfl rfl
    | ok result =>
      obtain ⟨db, after⟩ := result
      obtain ⟨before', hload', hafter, -⟩ := updateRule_ok hupdate
      cases hload.symm.trans hload'
      refine .updated hload hafter (update_rules hload hupdate) ?_ ?_
      · simp only [update, hload, hupdate]
      · simp only [update, hload, hupdate]

/-- **What a step can do.** -/
theorem step_outcome (service : Service F) (history : History F) (event : Event F) :
    Outcome service history event (step service history event) := by
  cases event with
  | devices devices => exact .idle rfl rfl rfl
  | write tenantId newId request =>
    cases request with
    | update ruleId request => exact update_outcome service history tenantId newId ruleId request
    | createCanonical request =>
      unfold step
      dsimp only
      split
      · exact .idle rfl rfl rfl
      · rename_i hfresh
        exact create_outcome false rfl hfresh
    | createForDevice deviceId request =>
      unfold step
      dsimp only
      split
      · exact .idle rfl rfl rfl
      · rename_i hfresh
        unfold write
        dsimp only
        cases hrule : deviceRule service.lib tenantId newId deviceId request with
        | none => exact .idle rfl rfl rfl
        | some rule => exact create_outcome true (deviceRule_id hrule) hfresh

end

/-! ## Numbers -/

/-- The versions of every rule are numbered from one, one by one. -/
def Numbered (versions : List (RuleVersion F)) : Prop :=
  ∀ ruleId, (versionsOf versions ruleId).map (·.version) =
    List.range' 1 (versionsOf versions ruleId).length

theorem foldl_max_range' (n : Nat) : (List.range' 1 n).foldl max 0 = n := by
  induction n with
  | zero => rfl
  | succ n ih =>
    rw [List.range'_concat, List.foldl_append, ih]
    simp [Nat.add_comm]

variable {versions : List (RuleVersion F)}

theorem versionsOf_append {row : RuleVersion F} {ruleId : Uuid} :
    versionsOf (versions ++ [row]) ruleId =
      versionsOf versions ruleId ++ if row.ruleId = ruleId then [row] else [] := by
  unfold versionsOf
  by_cases hid : row.ruleId = ruleId <;> simp [hid]

/-- The newest number is the number of versions. -/
theorem Numbered.current (h : Numbered versions) (ruleId : Uuid) :
    currentVersion versions ruleId = (versionsOf versions ruleId).length := by
  unfold currentVersion
  rw [h ruleId, foldl_max_range']

theorem Numbered.append (h : Numbered versions) {row : RuleVersion F}
    (hrow : row.version = currentVersion versions row.ruleId + 1) :
    Numbered (versions ++ [row]) := by
  intro ruleId
  rw [versionsOf_append]
  by_cases hid : row.ruleId = ruleId
  · subst hid
    rw [h.current] at hrow
    rw [if_pos rfl, List.map_append, List.length_append, List.length_singleton, h row.ruleId,
      List.range'_concat, List.map_singleton, hrow, Nat.one_mul, Nat.add_comm]
  · simp [hid, h ruleId]

section

variable [JsonNumber F]

/-- `record_version` appends the next version, or nothing. -/
theorem recordVersion_cases (digits : Digits) (before : Option (Snapshot F)) (rule : StoredRule F)
    (after : Snapshot F) (versions : List (RuleVersion F)) :
    (changeLines digits before after = [] ∧
      recordVersion digits before rule after versions = versions) ∨
    (changeLines digits before after ≠ [] ∧
      recordVersion digits before rule after versions = versions ++
        [⟨rule.tenantId, rule.id, currentVersion versions rule.id + 1, after,
          changeLines digits before after⟩]) := by
  unfold recordVersion
  cases hlines : changeLines digits before after with
  | nil => exact .inl ⟨rfl, rfl⟩
  | cons line rest => exact .inr ⟨by simp, rfl⟩

variable {before : Option (Snapshot F)} {versions : List (RuleVersion F)}

/-- No version is written where there is no line. -/
theorem recordVersion_eq_iff {digits : Digits} {rule : StoredRule F} {after : Snapshot F} :
    recordVersion digits before rule after versions = versions ↔
      changeLines digits before after = [] := by
  rcases recordVersion_cases digits before rule after versions with ⟨hnil, heq⟩ | ⟨hsome, heq⟩
  · simp [hnil, heq]
  · rw [heq]
    simpa using hsome

variable {service : Service F} {history : History F}

/-- Whether a version is written, by the lines. -/
theorem update_versions_iff {tenantId ruleId : Uuid} {request : RuleUpdateRequest F}
    {before after : StoredRule F} {db : Db F}
    (hload : getRule history.db tenantId ruleId = some before)
    (hupdate : updateRule service.lib history.db tenantId ruleId request = .ok (db, after)) :
    (update service history tenantId ruleId request).versions = history.versions ↔
      changeLines service.digits (some (snapshotOf history.bare before))
        (snapshotOf (bareAfter history.bare ruleId request) after) = [] := by
  simp only [update, hload, hupdate, recordVersion_eq_iff]

theorem Numbered.record (h : Numbered versions) (digits : Digits) (before : Option (Snapshot F))
    (rule : StoredRule F) (after : Snapshot F) :
    Numbered (recordVersion digits before rule after versions) := by
  rcases recordVersion_cases digits before rule after versions with ⟨-, heq⟩ | ⟨-, heq⟩
  · rw [heq]
    exact h
  · rw [heq]
    exact h.append rfl

theorem Numbered.step (h : Numbered history.versions) (event : Event F) :
    Numbered (step service history event).versions := by
  cases step_outcome service history event with
  | idle _ _ hversions => exact hversions ▸ h
  | created _ _ _ hversions => exact hversions ▸ h.record _ _ _ _
  | updated _ _ _ _ hversions => exact hversions ▸ h.record _ _ _ _

theorem Numbered.run (h : Numbered history.versions) (events : List (Event F)) :
    Numbered (run service history events).versions := by
  induction events generalizing history with
  | nil => exact h
  | cons event rest ih => exact ih (h.step event)

/-! ## Documents without booleans -/

theorem counted_optionalText (text : Option String) :
    Json.counted boolNumber (Stored.optionalText text : Json F) = Stored.optionalText text := by
  cases text <;> rfl

theorem counted_rhs (rhs : Option (Stored.RhsSpec F)) :
    Json.counted boolNumber ((rhs.map Stored.RhsSpec.modelDump).getD .null) =
      (rhs.map Stored.RhsSpec.modelDump).getD .null := by
  cases rhs with
  | none => rfl
  | some side =>
    cases side with
    | static value => rfl
    | range low high => rfl
    | set values =>
      have hvalues : Json.countedItems boolNumber (values.map .num) = values.map .num := by
        simp [Json.countedItems_eq, Json.counted]
      simp [Stored.RhsSpec.modelDump, Json.counted, Json.countedMembers, Json.countedEntry, hvalues]
    | metric deviceId name => rfl

mutual

theorem counted_modelDump (node : Stored.ConditionNode F) :
    Json.counted boolNumber node.modelDump = node.modelDump := by
  cases node with
  | leaf l =>
    simp [Stored.ConditionNode.modelDump, Stored.ConditionLeaf.modelDump, Json.counted,
      Json.countedMembers, Json.countedEntry, counted_optionalText, counted_rhs]
  | group op predicates =>
    simp [Stored.ConditionNode.modelDump, Json.counted, Json.countedMembers, Json.countedEntry,
      counted_modelDumps predicates]

theorem counted_modelDumps (nodes : List (Stored.ConditionNode F)) :
    Json.countedItems boolNumber (Stored.ConditionNode.modelDumps nodes) =
      Stored.ConditionNode.modelDumps nodes := by
  cases nodes with
  | nil => rfl
  | cons node rest =>
    simp [Stored.ConditionNode.modelDumps, Json.countedItems, counted_modelDump node,
      counted_modelDumps rest]

end

theorem counted_conditionDoc (condition : Option (ConditionNode F)) :
    counted (conditionDoc condition) = conditionDoc condition := by
  cases condition with
  | none => rfl
  | some node => exact counted_modelDump (nodeModel node)

/-! ## Documents that blur -/

/-- Two documents that are not equal, and would be if their booleans were numbers. -/
def DocBlurs (a b : Json F) : Prop := docEq a b = false ∧ docEq (counted a) (counted b) = true

/-- **The request brings no actions equal to the stored ones but for booleans and the numbers they
count as.** -/
structure Plain (before : StoredRule F) (request : RuleUpdateRequest F) : Prop where
  actions : ∀ actions, request.actions.or (request.action.map fun action => [action]) =
    some actions → ¬ DocBlurs (actionDocs before.actions) (actionDocs actions)
  clearActions : ∀ actions, request.clearActions = some actions →
    ¬ DocBlurs (actionDocs before.clearActions) (actionDocs actions)

theorem not_docBlurs_conditionDoc (a b : Option (ConditionNode F)) :
    ¬ DocBlurs (conditionDoc a) (conditionDoc b) := by
  rintro ⟨hne, heq⟩
  rw [counted_conditionDoc, counted_conditionDoc, hne] at heq
  cases heq

section

variable [LawfulNumber F]

theorem docEq_refl (a : Json F) : docEq a a = true := Json.strictEq_refl LawfulNumber.refl a

theorem docEq_symm (a b : Json F) (h : docEq a b = true) : docEq b a = true :=
  Json.strictEq_symm LawfulNumber.symm h

theorem docEq_trans (a b c : Json F) (hab : docEq a b = true) (hbc : docEq b c = true) :
    docEq a c = true :=
  Json.strictEq_trans LawfulNumber.trans hab hbc

/-- Where nothing blurs Python is exact. -/
theorem docEq_of_pyEq {a b : Json F} (hplain : ¬ DocBlurs a b) (h : pyEq a b = true) :
    docEq a b = true := by
  rw [pyEq_counted] at h
  by_contra hne
  exact hplain ⟨by simpa using hne, h⟩

theorem not_docBlurs_refl (a : Json F) : ¬ DocBlurs a a := by
  intro h
  have hne := h.1
  rw [docEq_refl] at hne
  cases hne

/-- A column of documents that do not blur holds what it was given. -/
theorem Kept.docEq {α : Type} {doc : α → Json F} {before after column : α}
    (h : Kept (fun a b => pyEq (doc a) (doc b)) before after column)
    (hplain : ¬ DocBlurs (doc before) (doc after)) : Api.docEq (doc column) (doc after) = true := by
  rcases h with rfl | ⟨rfl, heq⟩
  · exact docEq_refl _
  · exact docEq_of_pyEq hplain heq

/-- So does the policy, which never does. -/
theorem Kept.policy {before after column : ExecutionPolicy F}
    (h : Kept policyEq before after column) :
    column.strategy = after.strategy ∧ column.forDuration = after.forDuration ∧
      column.cooldown = after.cooldown ∧ column.clearForDuration = after.clearForDuration ∧
      Api.docEq (conditionDoc column.resetCondition) (conditionDoc after.resetCondition) =
        true := by
  rcases h with rfl | ⟨rfl, heq⟩
  · exact ⟨rfl, rfl, rfl, rfl, docEq_refl _⟩
  · simp only [policyEq, Bool.and_eq_true, decide_eq_true_eq, beq_iff_eq] at heq
    obtain ⟨⟨⟨⟨hstrategy, hfor⟩, hcooldown⟩, hclear⟩, hreset⟩ := heq
    exact ⟨hstrategy, hfor, hcooldown, hclear,
      docEq_of_pyEq (not_docBlurs_conditionDoc _ _) hreset⟩

/-- **The row shows the rule that was asked for.** -/
theorem Flushed.same {before after row : StoredRule F} (h : Flushed before after row)
    (bare : List Uuid)
    (hactions : ¬ DocBlurs (actionDocs before.actions) (actionDocs after.actions))
    (hclearActions : ¬ DocBlurs (actionDocs before.clearActions) (actionDocs after.clearActions)) :
    (snapshotOf bare row).Same (snapshotOf bare after) := by
  obtain ⟨hstrategy, hfor, hcooldown, hclear, hreset⟩ := h.executionPolicy.policy
  refine ⟨h.name, ?_, h.enabled, ?_, ?_, ?_, ?_, ?_, ?_, hreset, ?_, ?_⟩
  · show row.description.getD "" = after.description.getD ""
    rw [h.description]
  · simp [snapshotOf, h.trigger]
  · exact h.condition.docEq (not_docBlurs_conditionDoc _ _)
  · simp [snapshotOf, Snapshot.policy, policyDoc, hstrategy]
  · simp [snapshotOf, Snapshot.policy, policyDoc, hfor]
  · simp [snapshotOf, Snapshot.policy, policyDoc, hcooldown]
  · simp [snapshotOf, Snapshot.policy, policyDoc, hclear, h.id]
  · exact h.actions.docEq hactions
  · exact h.clearActions.docEq hclearActions

/-- Where no actions blur, snapshots that are alike for Python are the same. -/
theorem same_of_alike {bare bare' : List Uuid} {a b : StoredRule F}
    (h : (snapshotOf bare a).Alike pyEq (snapshotOf bare' b))
    (hactions : ¬ DocBlurs (actionDocs a.actions) (actionDocs b.actions))
    (hclearActions : ¬ DocBlurs (actionDocs a.clearActions) (actionDocs b.clearActions)) :
    (snapshotOf bare a).Same (snapshotOf bare' b) where
  name := h.name
  description := h.description
  enabled := h.enabled
  trigger := h.trigger
  condition := docEq_of_pyEq (not_docBlurs_conditionDoc _ _) h.condition
  strategy := h.strategy
  forDuration := h.forDuration
  cooldown := h.cooldown
  clearForDuration := h.clearForDuration
  resetCondition := docEq_of_pyEq (not_docBlurs_conditionDoc _ _) h.resetCondition
  actions := docEq_of_pyEq hactions h.actions
  clearActions := docEq_of_pyEq hclearActions h.clearActions

/-- What the request does not bring stays. -/
theorem Plain.updated {before : StoredRule F} {request : RuleUpdateRequest F}
    (h : Plain before request) (fallback : Option Uuid) :
    ¬ DocBlurs (actionDocs before.actions)
        (actionDocs (updatedRule fallback request before).actions) ∧
      ¬ DocBlurs (actionDocs before.clearActions)
        (actionDocs (updatedRule fallback request before).clearActions) := by
  constructor
  · cases hgiven : request.actions.or (request.action.map fun action => [action]) with
    | none =>
      have hsame : (updatedRule fallback request before).actions = before.actions := by
        simp [updatedRule, hgiven]
      rw [hsame]
      exact not_docBlurs_refl _
    | some actions =>
      have hnew : (updatedRule fallback request before).actions = actions := by
        simp [updatedRule, hgiven]
      rw [hnew]
      exact h.actions actions hgiven
  · cases hgiven : request.clearActions with
    | none =>
      have hsame : (updatedRule fallback request before).clearActions = before.clearActions := by
        simp [updatedRule, hgiven]
      rw [hsame]
      exact not_docBlurs_refl _
    | some actions =>
      have hnew : (updatedRule fallback request before).clearActions = actions := by
        simp [updatedRule, hgiven]
      rw [hnew]
      exact h.clearActions actions hgiven

end

/-! ## The newest version -/

/-- The newest version of every stored rule shows it. -/
def Current (history : History F) : Prop :=
  ∀ rule ∈ history.db.rules, ∃ newest,
    (versionsOf history.versions rule.id).getLast? = some newest ∧
      (snapshotOf history.bare rule).Same newest.snapshot

/-- An update is a plain one. -/
def PlainStep (history : History F) (event : Event F) : Prop :=
  match event with
  | .write tenantId _ (.update ruleId request) =>
      ∀ before, getRule history.db tenantId ruleId = some before → Plain before request
  | _ => True

/-- Every update of the run is. -/
def PlainRun (service : Service F) (history : History F) : List (Event F) → Prop
  | [] => True
  | event :: rest => PlainStep history event ∧ PlainRun service (step service history event) rest

theorem snapshotOf_bare {bare bare' : List Uuid} {rule : StoredRule F}
    (h : rule.id ∈ bare' ↔ rule.id ∈ bare) : snapshotOf bare' rule = snapshotOf bare rule := by
  have hcontains : bare'.contains rule.id = bare.contains rule.id := by
    rw [Bool.eq_iff_iff]
    simpa using h
  unfold snapshotOf
  rw [hcontains]

/-- A version of one rule is none of another's. -/
theorem versionsOf_record {digits : Digits} {rule : StoredRule F} {after : Snapshot F}
    {ruleId : Uuid} (h : rule.id ≠ ruleId) :
    versionsOf (recordVersion digits before rule after versions) ruleId =
      versionsOf versions ruleId := by
  rcases recordVersion_cases digits before rule after versions with ⟨-, heq⟩ | ⟨-, heq⟩
  · rw [heq]
  · rw [heq, versionsOf_append, if_neg h, List.append_nil]

/-- The version that is appended is the newest. -/
theorem getLast?_record {digits : Digits} {after : Snapshot F} (rule : StoredRule F)
    (versions : List (RuleVersion F)) (h : changeLines digits before after ≠ []) :
    ∃ newest, (versionsOf (recordVersion digits before rule after versions) rule.id).getLast? =
      some newest ∧ newest.snapshot = after := by
  rcases recordVersion_cases digits before rule after versions with ⟨hnil, -⟩ | ⟨-, heq⟩
  · exact absurd hnil h
  · rw [heq, versionsOf_append, if_pos rfl, List.getLast?_concat]
    exact ⟨_, rfl, rfl⟩

/-- **An update that is tracked**: it writes no version just where the rule it asks for is the one
that is stored, and behind it the newest versions show the rules. -/
structure Tracked (service : Service F) (history : History F) (tenantId ruleId : Uuid)
    (request : RuleUpdateRequest F) (before after : StoredRule F) : Prop where
  recorded : (update service history tenantId ruleId request).versions = history.versions ↔
    (snapshotOf history.bare before).Same
      (snapshotOf (bareAfter history.bare ruleId request) after)
  current : Current (update service history tenantId ruleId request)

/-- Columns of actions that are given equal ones stay as they were. -/
structure Keeping (session : Session F) : Prop where
  actions : ∀ before after, pyEq (actionDocs before.actions) (actionDocs after.actions) = true →
    (session.flush before after).actions = before.actions
  clearActions : ∀ before after,
    pyEq (actionDocs before.clearActions) (actionDocs after.clearActions) = true →
      (session.flush before after).clearActions = before.clearActions

/-- Behind an update that is tracked, the stored rule was the one it asks for, or the row is. -/
theorem Tracked.row {tenantId ruleId : Uuid} {request : RuleUpdateRequest F}
    {before after : StoredRule F} {db : Db F}
    (h : Tracked service history tenantId ruleId request before after)
    (hload : getRule history.db tenantId ruleId = some before)
    (hupdate : updateRule service.lib history.db tenantId ruleId request = .ok (db, after)) :
    (snapshotOf history.bare before).Same
        (snapshotOf (bareAfter history.bare ruleId request) after) ∨
      (snapshotOf (bareAfter history.bare ruleId request) (service.session.flush before after)).Same
        (snapshotOf (bareAfter history.bare ruleId request) after) := by
  by_cases hlines : changeLines service.digits (some (snapshotOf history.bare before))
      (snapshotOf (bareAfter history.bare ruleId request) after) = []
  · exact .inl (h.recorded.mp ((update_versions_iff hload hupdate).mpr hlines))
  · have hrow : service.session.flush before after ∈
        (update service history tenantId ruleId request).db.rules := by
      rw [update_rules hload hupdate]
      exact List.mem_map.mpr
        ⟨before, List.mem_of_find?_eq_some hload, if_pos (getRule_id hload)⟩
    obtain ⟨newest, hnewest, hsame⟩ := h.current _ hrow
    obtain ⟨written, hwritten, hsnapshot⟩ := getLast?_record after history.versions hlines
    simp only [update, hload, hupdate, (service.session.flushed before after).id] at hnewest hsame
    cases hnewest.symm.trans hwritten
    exact .inr (hsnapshot ▸ hsame)

section

variable [LawfulNumber F]

theorem same_refl (a : Snapshot F) : a.Same a := Snapshot.Alike.refl docEq_refl a

variable {service : Service F}

/-- The new rule is its own newest version, and the others keep theirs. -/
theorem Current.created {history history' : History F} {rule : StoredRule F}
    (h : Current history) (hfresh : ∀ other ∈ history.db.rules, other.id ≠ rule.id)
    (hrules : history'.db.rules = history.db.rules ++ [rule])
    (hbare : history'.bare = history.bare ∨ history'.bare = rule.id :: history.bare)
    (hversions : history'.versions =
      recordVersion service.digits none rule (snapshotOf history'.bare rule) history.versions) :
    Current history' := by
  intro other hother
  rw [hrules] at hother
  rw [hversions]
  rcases List.mem_append.mp hother with hold | hnew
  · have hne := hfresh other hold
    have hsame : other.id ∈ history'.bare ↔ other.id ∈ history.bare := by
      rcases hbare with hbare | hbare <;> simp [hbare, hne]
    rw [versionsOf_record hne.symm, snapshotOf_bare hsame]
    exact h other hold
  · cases List.mem_singleton.mp hnew
    have hlines : changeLines service.digits none (snapshotOf history'.bare rule) ≠ [] := by
      simp [changeLines]
    obtain ⟨newest, hnewest, hsnapshot⟩ := getLast?_record rule history.versions hlines
    exact ⟨newest, hnewest, hsnapshot ▸ same_refl _⟩

/-- The changed rule is in the version its update writes; where it writes none, it is as the rule
was that was loaded. -/
theorem Current.updated {history history' : History F}
    {tenantId ruleId : Uuid} {request : RuleUpdateRequest F} {before after : StoredRule F}
    (h : Current history) (hplain : Plain before request)
    (hload : getRule history.db tenantId ruleId = some before)
    (hchanged : after = updatedRule (fallbackDevice history.db ruleId) request before)
    (hrules : history'.db.rules = history.db.rules.map fun stored =>
      if stored.id = ruleId then service.session.flush before after else stored)
    (hbare : history'.bare = bareAfter history.bare ruleId request)
    (hversions : history'.versions =
      recordVersion service.digits (some (snapshotOf history.bare before)) after
        (snapshotOf history'.bare after) history.versions) : Current history' := by
  have hbeforeId : before.id = ruleId := getRule_id hload
  have hafterId : after.id = ruleId := by
    rw [hchanged]
    exact hbeforeId
  have hflushed := service.session.flushed before after
  have hclear : ¬ DocBlurs (actionDocs before.actions) (actionDocs after.actions) ∧
      ¬ DocBlurs (actionDocs before.clearActions) (actionDocs after.clearActions) :=
    hchanged ▸ hplain.updated _
  intro rule hrule
  rw [hrules] at hrule
  obtain ⟨old, hold, heq⟩ := List.mem_map.mp hrule
  rw [hversions]
  by_cases hid : old.id = ruleId
  · rw [if_pos hid] at heq
    subst heq
    have hrow := hflushed.same history'.bare hclear.1 hclear.2
    rw [hflushed.id]
    by_cases hlines : changeLines service.digits (some (snapshotOf history.bare before))
        (snapshotOf history'.bare after) = []
    · have hsame := same_of_alike ((changeLines_nil_iff _ _ _).mp hlines) hclear.1 hclear.2
      obtain ⟨newest, hnewest, hcurrent⟩ := h before (List.mem_of_find?_eq_some hload)
      have hrowBefore := Snapshot.Alike.trans docEq_trans hrow (hsame.symm docEq_symm)
      rw [recordVersion_eq_iff.mpr hlines, hafterId, ← hbeforeId]
      exact ⟨newest, hnewest, hrowBefore.trans docEq_trans hcurrent⟩
    · obtain ⟨newest, hnewest, hsnapshot⟩ := getLast?_record after history.versions hlines
      exact ⟨newest, hnewest, hsnapshot ▸ hrow⟩
  · rw [if_neg hid] at heq
    subst heq
    have hmem : old.id ∈ history'.bare ↔ old.id ∈ history.bare :=
      hbare ▸ mem_bareAfter request hid
    rw [versionsOf_record (by rw [hafterId]; exact Ne.symm hid), snapshotOf_bare hmem]
    exact h old hold

theorem Current.step {history : History F} (h : Current history) {event : Event F}
    (hplain : PlainStep history event) :
    Current (step service history event) := by
  cases step_outcome service history event with
  | idle hrules hbare hversions =>
    intro rule hrule
    rw [hrules] at hrule
    rw [hbare, hversions]
    exact h rule hrule
  | created hfresh hrules hbare hversions => exact h.created hfresh hrules hbare hversions
  | updated hload hchanged hrules hbare hversions =>
    exact h.updated (hplain _ hload) hload hchanged hrules hbare hversions

theorem Current.run {history : History F} (h : Current history) {events : List (Event F)}
    (hplain : PlainRun service history events) :
    Current (run service history events) := by
  induction events generalizing history with
  | nil => exact h
  | cons event rest ih => exact ih (h.step hplain.1) hplain.2

section

variable {service : Service F} {history : History F} {tenantId ruleId : Uuid}
  {request : RuleUpdateRequest F} {before after : StoredRule F} {db : Db F}

theorem Plain.tracked (hplain : Plain before request) (h : Current history)
    (hload : getRule history.db tenantId ruleId = some before)
    (hupdate : updateRule service.lib history.db tenantId ruleId request = .ok (db, after)) :
    Tracked service history tenantId ruleId request before after := by
  obtain ⟨before', hload', hafter, -⟩ := updateRule_ok hupdate
  cases hload.symm.trans hload'
  have hclear : ¬ DocBlurs (actionDocs before.actions) (actionDocs after.actions) ∧
      ¬ DocBlurs (actionDocs before.clearActions) (actionDocs after.clearActions) :=
    hafter ▸ hplain.updated _
  constructor
  · rw [update_versions_iff hload hupdate, changeLines_nil_iff]
    constructor
    · intro halike
      exact same_of_alike halike hclear.1 hclear.2
    · intro hsame
      exact hsame.mono fun _ _ => Json.looseEq_of_strictEq
  · have hplainStep : PlainStep history (.write tenantId ruleId (.update ruleId request)) := by
      intro other hother
      cases hload.symm.trans hother
      exact hplain
    show Current (step service history (.write tenantId ruleId (.update ruleId request)))
    exact h.step hplainStep

/-- A column that is kept where it is equal shows no documents that blur. -/
theorem not_docBlurs_of_kept {before after row : Json F} (hkept : pyEq before after = true →
    row = before) (h : docEq before after = true ∨ docEq row after = true) :
    ¬ DocBlurs before after := by
  rintro ⟨hne, heq⟩
  rw [← pyEq_counted] at heq
  rw [hkept heq, or_self, hne] at h
  cases h

/-- **A session that keeps equal columns tracks no updates but the plain ones.** -/
theorem Tracked.plain (h : Tracked service history tenantId ruleId request before after)
    (hkeeping : Keeping service.session)
    (hload : getRule history.db tenantId ruleId = some before)
    (hupdate : updateRule service.lib history.db tenantId ruleId request = .ok (db, after)) :
    Plain before request := by
  obtain ⟨before', hload', hafter, -⟩ := updateRule_ok hupdate
  cases hload.symm.trans hload'
  have hrow := h.row hload hupdate
  constructor
  · intro actions hgiven
    have hnew : after.actions = actions := by
      rw [hafter]
      simp [updatedRule, hgiven]
    rw [← hnew]
    refine not_docBlurs_of_kept (fun heq => ?_) (hrow.imp (·.actions) (·.actions))
    exact congrArg actionDocs (hkeeping.actions before after heq)
  · intro actions hgiven
    have hnew : after.clearActions = actions := by
      rw [hafter]
      simp [updatedRule, hgiven]
    rw [← hnew]
    refine not_docBlurs_of_kept (fun heq => ?_) (hrow.imp (·.clearActions) (·.clearActions))
    exact congrArg actionDocs (hkeeping.clearActions before after heq)

end

/-- **When the versions of a rule track it.** Whatever is requested, they are numbered from one
without a gap. `change_lines` is exact on two snapshots unless these differ in booleans that face
their own numbers alone. In every run whose updates are plain, the newest version of each rule shows
it as it is stored, and with a session that keeps equal columns no other update is tracked. -/
theorem versions_track_iff (service : Service F) :
    (∀ a b : Snapshot F,
      (changeLines service.digits (some a) b = [] ↔ a.Same b) ↔ ¬ a.Blurs b) ∧
    (∀ (devices : List Device) (events : List (Event F)),
      Numbered (run service { db := { devices := devices } } events).versions ∧
      (PlainRun service { db := { devices := devices } } events →
        Current (run service { db := { devices := devices } } events))) ∧
    ∀ (history : History F) (tenantId ruleId : Uuid) (request : RuleUpdateRequest F)
      (before : StoredRule F) (db : Db F) (after : StoredRule F), Current history →
      getRule history.db tenantId ruleId = some before →
      updateRule service.lib history.db tenantId ruleId request = .ok (db, after) →
      (Plain before request → Tracked service history tenantId ruleId request before after) ∧
      (Keeping service.session →
        Tracked service history tenantId ruleId request before after → Plain before request) := by
  refine ⟨changeLines_exact_iff service.digits, ?_, ?_⟩
  · intro devices events
    refine ⟨Numbered.run (fun _ => rfl) events, Current.run ?_⟩
    intro rule hrule
    cases hrule
  · intro history tenantId ruleId request before db after hcurrent hload hupdate
    constructor
    · intro hplain
      exact hplain.tracked hcurrent hload hupdate
    · intro hkeeping htracked
      exact htracked.plain hkeeping hload hupdate

end

end

/-! ## A lamp -/

def lampService (session : Session Int) : Service Int :=
  { lib :=
      { isValidCron := fun _ => true
        isZone := fun _ => true
        repr := fun s => s
        showFloat := fun value => toString value
        upper := fun c => String.ofList [c] }
    digits := fun c => if c.isDigit then some (c.toNat - 48) else none
    session := session }

/-- A lamp that comes on when it is dark. -/
def lampRequest (value : CommandValue Int) : RuleCreateRequest Int :=
  { name := "Dusk"
    condition := some (.leaf ⟨some "lamp", "light", .compare .lt (.static 10) 0⟩)
    actions := [.actuatorCommand (some "lamp") "led" value] }

def lampEvents (value : CommandValue Int) (updates : List (RuleUpdateRequest Int)) :
    List (Event Int) :=
  .write "home" "dusk" (.createCanonical (lampRequest value)) ::
    updates.map fun update => .write "home" "" (.update "dusk" update)

def lampRun (session : Session Int) (value : CommandValue Int)
    (updates : List (RuleUpdateRequest Int)) : History Int :=
  run (lampService session) { db := { devices := [⟨"lamp", "home"⟩] } } (lampEvents value updates)

def lampValue (value : CommandValue Int) : List (Action Int) :=
  [.actuatorCommand (some "lamp") "led" value]

example :
    (lampRun .keeping (.bool true) [{ name := some "Dark" }, { cooldown := some 0 }]).versions.map
      (·.changeLines) = [["Created"], ["Renamed \"Dusk\" → \"Dark\""]] := by decide +kernel

/-- Renamed, saved as it was, and from 128 to full on. -/
def lampUpdates : List (RuleUpdateRequest Int) :=
  [{ name := some "Dark" }, { cooldown := some 0 }, { actions := some (lampValue (.bool true)) }]

theorem versions_track_iff_lamp :
    (versionsOf (lampRun .keeping (.float 128) lampUpdates).versions "dusk").map (·.version) =
      [1, 2, 3] ∧
    Current (lampRun .keeping (.float 128) lampUpdates) := by
  constructor
  · decide +kernel
  · refine ((versions_track_iff (lampService .keeping)).2.1 [⟨"lamp", "home"⟩]
      (lampEvents (.float 128) lampUpdates)).2 ?_
    refine ⟨trivial, ?_, ?_, ?_, trivial⟩
    · intro before _
      exact ⟨by simp, by simp⟩
    · intro before _
      exact ⟨by simp, by simp⟩
    · intro before hload
      have hactions : before.actions = lampValue (.float 128) := by
        have hsome : (some before).map (·.actions) = some (lampValue (.float 128)) := by
          rw [← hload]
          rfl
        simpa using hsome
      refine ⟨?_, by simp⟩
      intro actions hgiven
      cases hgiven
      rw [hactions]
      unfold DocBlurs
      decide +kernel

/-- A rule that is stored and a newest version with actions that are not equal. -/
theorem not_current_of_actions {history : History Int} {rule : StoredRule Int}
    (actions : List (Json Int)) (hrule : rule ∈ history.db.rules)
    (hnewest : ((versionsOf history.versions rule.id).getLast?.map fun newest =>
      newest.snapshot.actions) = some actions)
    (hne : docEq (actionDocs rule.actions) (.arr actions) = false) : ¬ Current history := by
  intro h
  obtain ⟨newest, hlast, hsame⟩ := h rule hrule
  rw [hlast, Option.map_some] at hnewest
  cases hnewest
  exact Bool.false_ne_true (hne.symm.trans hsame.actions)

/-- **From full on to one, and no version.** The lamp is switched full on; then it is given `1`, the
faintest light it has, and `change_lines` has no word for it. A session that writes the column
leaves a newest version that does not show the rule. So does one that keeps it, as soon as something
else is changed as well. -/
theorem fullOn_to_one_unrecorded :
    changeLines (lampService .keeping).digits
        (some (snapshotOf [] (canonicalRule "home" "dusk" (lampRequest (.bool true)))))
        (snapshotOf [] (canonicalRule "home" "dusk" (lampRequest (.float 1)))) = [] ∧
    ¬ (snapshotOf [] (canonicalRule "home" "dusk" (lampRequest (.bool true)))).Same
        (snapshotOf [] (canonicalRule "home" "dusk" (lampRequest (.float 1)))) ∧
    (lampRun .keeping (.bool true)
      [{ actions := some (lampValue (.float 1)) }]).versions.length = 1 ∧
    (lampRun .assigning (.bool true)
      [{ actions := some (lampValue (.float 1)) }]).versions.length = 1 ∧
    ¬ Current (lampRun .assigning (.bool true) [{ actions := some (lampValue (.float 1)) }]) ∧
    ¬ Current (lampRun .keeping (.bool true)
      [{ name := some "Dark", actions := some (lampValue (.float 1)) }]) := by
  refine ⟨by decide +kernel, ?_, by decide +kernel, by decide +kernel, ?_, ?_⟩
  · intro hsame
    have hactions := hsame.actions
    revert hactions
    decide +kernel
  · exact not_current_of_actions ((lampValue (.bool true)).map actionDoc)
      List.mem_cons_self rfl (by decide +kernel)
  · exact not_current_of_actions ((lampValue (.float 1)).map actionDoc)
      List.mem_cons_self rfl (by decide +kernel)

end IotSaas.Api.Versions
