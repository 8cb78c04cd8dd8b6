import IotSaas.Api.Service
import IotSaas.Lib.Except

/-!
# `Api/Closure.lean` — the devices of a rule and its rows in `rule_devices`

Seven places of a definition carry a device. Six of them pass through `_rule_device_map`, which is
what is checked against the tenant and what the rows are made from, and `_assert_leaves_have_device`
looks at the condition. The seventh, the reset tree, passes through neither. `closed_iff` says that
this is the only thing in the way: after a write the rule is closed exactly when its reset tree
names no device that an input of the rule does not name as well, and leaves none out.
-/

set_option autoImplicit false

namespace IotSaas.Api

open Lib Rules

variable {F : Type}

/-! ## What a closed rule is -/

/-- The devices a rule reads: its condition, its trigger and its reset tree. -/
def inputDevices (rule : StoredRule F) : List Uuid :=
  (conditionLeaves rule.condition).flatMap leafDevices ++ triggerDevice rule.trigger ++
    (conditionLeaves rule.executionPolicy.resetCondition).flatMap leafDevices

/-- The devices a rule commands. -/
def targetDevices (rule : StoredRule F) : List Uuid :=
  (rule.actions ++ rule.clearActions).filterMap actionDevice

/-- Every place of the definition that names a device, with the role of that use. -/
def occurrences (rule : StoredRule F) : List (Uuid × RuleDeviceRole) :=
  ((inputDevices rule).map fun deviceId => (deviceId, .input)) ++
    (targetDevices rule).map fun deviceId => (deviceId, .target)

/-- **Closure**: the tenant has the devices, the rows are those of the occurrences, and every leaf
names its device. -/
structure Closed (db : Db F) (rule : StoredRule F) : Prop where
  inTenant : ∀ use ∈ occurrences rule, (⟨use.1, rule.tenantId⟩ : Device) ∈ db.devices
  rows : ∀ use ∈ occurrences rule,
    (⟨rule.tenantId, rule.id, use.1, use.2⟩ : RuleDevice) ∈ db.ruleDevices
  noOther : ∀ row ∈ db.ruleDevices, row.ruleId = rule.id →
    (row.deviceId, row.role) ∈ occurrences rule
  named : ∀ leaf ∈ conditionLeaves rule.condition ++
    conditionLeaves rule.executionPolicy.resetCondition, leaf.deviceId.isSome

/-- What a request asks to be stored. -/
def Write.definition (lib : Library F) (db : Db F) (tenantId ruleId : Uuid) (request : Write F) :
    Option (StoredRule F) :=
  match request with
  | .createCanonical request => some (canonicalRule tenantId ruleId request)
  | .createForDevice deviceId request => deviceRule lib tenantId ruleId deviceId request
  | .update ruleId request =>
      (getRule db tenantId ruleId).map (updatedRule (fallbackDevice db ruleId) request)

/-- The reset tree names only devices that the condition or the trigger names as well, and every
leaf of it names one. -/
def ResetCovered (rule : StoredRule F) : Prop :=
  ∀ leaf ∈ conditionLeaves rule.executionPolicy.resetCondition,
    leaf.deviceId.isSome ∧
    ∀ deviceId ∈ leafDevices leaf,
      deviceId ∈ (conditionLeaves rule.condition).flatMap leafDevices ++ triggerDevice rule.trigger

/-! ## What a successful write has checked -/

theorem assertLeavesHaveDevice_ok {condition : Option (ConditionNode F)}
    (h : assertLeavesHaveDevice condition = .ok ()) :
    ∀ leaf ∈ conditionLeaves condition, leaf.deviceId.isSome := by
  unfold assertLeavesHaveDevice at h
  split at h
  · cases h
  · rename_i hnone
    intro leaf hleaf
    by_contra hmissing
    exact hnone (List.any_eq_true.mpr ⟨leaf, hleaf, by simpa using hmissing⟩)

theorem validateDevicesInTenant_ok {db : Db F} {tenantId : Uuid} {deviceIds : List Uuid}
    (h : validateDevicesInTenant db tenantId deviceIds = .ok ()) :
    ∀ id ∈ deviceIds, (⟨id, tenantId⟩ : Device) ∈ db.devices := by
  unfold validateDevicesInTenant at h
  dsimp only at h
  split at h
  · rename_i hmissing
    intro id hid
    have hfound := List.filter_eq_nil_iff.mp hmissing id hid
    simp only [Bool.not_eq_true, Bool.not_eq_false', List.any_eq_true, Bool.and_eq_true,
      decide_eq_true_eq] at hfound
    obtain ⟨device, hdevice, rfl, rfl⟩ := hfound
    exact hdevice
  · cases h

/-- What a write that succeeds with `rule` leaves behind it. -/
structure Written (db : Db F) (db' : Db F) (rule : StoredRule F) : Prop where
  devices : db'.devices = db.devices
  rows : db'.ruleDevices = syncRuleDevices rule.tenantId rule.id rule.deviceMap db.ruleDevices
  named : ∀ leaf ∈ conditionLeaves rule.condition, leaf.deviceId.isSome
  inTenant : ∀ use ∈ rule.deviceMap, (⟨use.1, rule.tenantId⟩ : Device) ∈ db.devices

/-- The checks a write has passed; `trigger` is the one the request brought. -/
structure Passed (lib : Library F) (trigger : Option Trigger) (rule : StoredRule F) : Prop where
  trigger : validateGivenTrigger lib trigger = .ok ()
  leaves : assertLeavesHaveDevice rule.condition = .ok ()
  clearActions : validateClearActions rule.trigger rule.clearActions = .ok ()
  latch : validateLatch rule.trigger rule.executionPolicy rule.clearActions = .ok ()

/-- **A rule that was persisted.** -/
theorem persistRule_ok {lib : Library F} {db db' : Db F} {rule stored : StoredRule F}
    (h : persistRule lib db rule = .ok (db', stored)) :
    stored = rule ∧ db'.rules = db.rules ++ [rule] ∧ Passed lib (some rule.trigger) rule ∧
      Written db db' rule := by
  unfold persistRule at h
  obtain ⟨_, hleaves, h⟩ := bind_ok h
  obtain ⟨_, htrigger, h⟩ := bind_ok h
  obtain ⟨_, hclear, h⟩ := bind_ok h
  obtain ⟨_, hlatch, h⟩ := bind_ok h
  obtain ⟨_, hdevices, h⟩ := bind_ok h
  cases h
  refine ⟨rfl, rfl, ⟨htrigger, hleaves, hclear, hlatch⟩, rfl, rfl,
    assertLeavesHaveDevice_ok hleaves, ?_⟩
  intro use huse
  exact validateDevicesInTenant_ok hdevices _ (List.mem_map_of_mem huse)

/-- **A rule that was updated**: the result is written over every row with that identifier. -/
theorem updateRule_ok {lib : Library F} {db db' : Db F} {tenantId ruleId : Uuid}
    {request : RuleUpdateRequest F} {stored : StoredRule F}
    (h : updateRule lib db tenantId ruleId request = .ok (db', stored)) :
    ∃ before, getRule db tenantId ruleId = some before ∧
      stored = updatedRule (fallbackDevice db ruleId) request before ∧
      db'.rules = (db.rules.map fun old => if old.id = ruleId then stored else old) ∧
      Passed lib request.trigger stored ∧ Written db db' stored := by
  unfold updateRule at h
  split at h
  · cases h
  · rename_i before hbefore
    obtain ⟨_, htrigger, h⟩ := bind_ok h
    dsimp only at h
    obtain ⟨_, -, h⟩ := bind_ok h
    obtain ⟨_, hleaves, h⟩ := bind_ok h
    obtain ⟨_, hclear, h⟩ := bind_ok h
    obtain ⟨_, hlatch, h⟩ := bind_ok h
    obtain ⟨_, hdevices, h⟩ := bind_ok h
    cases h
    refine ⟨before, hbefore, rfl, rfl, ⟨htrigger, hleaves, hclear, hlatch⟩, rfl, rfl,
      assertLeavesHaveDevice_ok hleaves, ?_⟩
    intro use huse
    exact validateDevicesInTenant_ok hdevices _ (List.mem_map_of_mem huse)

variable {rule : StoredRule F}

/-- **A successful write** stores the definition its request asks for, checked. -/
theorem write_ok {lib : Library F} {db db' : Db F} {tenantId ruleId : Uuid} {request : Write F}
    (h : write lib db tenantId ruleId request = .ok (db', rule)) :
    request.definition lib db tenantId ruleId = some rule ∧ Written db db' rule := by
  cases request with
  | createCanonical request =>
    obtain ⟨rfl, -, -, hwritten⟩ := persistRule_ok h
    exact ⟨rfl, hwritten⟩
  | createForDevice deviceId request =>
    unfold write at h
    dsimp only at h
    split at h
    · cases h
    · rename_i definition hdefinition
      obtain ⟨rfl, -, -, hwritten⟩ := persistRule_ok h
      exact ⟨hdefinition, hwritten⟩
  | update ruleId request =>
    obtain ⟨before, hbefore, rfl, -, -, hwritten⟩ := updateRule_ok h
    refine ⟨?_, hwritten⟩
    show (getRule db tenantId ruleId).map _ = _
    rw [hbefore]
    rfl

/-! ## Closure -/

theorem mem_syncRuleDevices {tenantId ruleId : Uuid} {deviceMap : List (Uuid × RuleDeviceRole)}
    {rows : List RuleDevice} {row : RuleDevice} (hrow : row.ruleId = ruleId) :
    row ∈ syncRuleDevices tenantId ruleId deviceMap rows ↔
      row.tenantId = tenantId ∧ (row.deviceId, row.role) ∈ deviceMap := by
  unfold syncRuleDevices
  rw [List.mem_append, List.mem_map]
  constructor
  · rintro (hold | ⟨entry, hentry, rfl⟩)
    · exact absurd hrow (by simpa using (List.mem_filter.mp hold).2)
    · exact ⟨rfl, List.mem_dedup.mp hentry⟩
  · rintro ⟨htenant, hmem⟩
    refine .inr ⟨_, List.mem_dedup.mpr hmem, ?_⟩
    rw [← hrow, ← htenant]

/-- What the code's map holds is what occurs outside the reset tree. -/
theorem mem_deviceMap {use : Uuid × RuleDeviceRole} :
    use ∈ rule.deviceMap ↔
      use.2 = .input ∧ use.1 ∈ (conditionLeaves rule.condition).flatMap leafDevices ++
        triggerDevice rule.trigger ∨
      use.2 = .target ∧ use.1 ∈ targetDevices rule := by
  obtain ⟨deviceId, role⟩ := use
  unfold StoredRule.deviceMap ruleDeviceMap targetDevices
  rw [List.mem_append, List.mem_map, List.mem_map]
  constructor
  · rintro (⟨id, hid, heq⟩ | ⟨id, hid, heq⟩)
    · cases heq
      exact .inl ⟨rfl, hid⟩
    · cases heq
      exact .inr ⟨rfl, hid⟩
  · rintro (⟨hrole, hid⟩ | ⟨hrole, hid⟩)
    · exact .inl ⟨deviceId, hid, by rw [← hrole]⟩
    · exact .inr ⟨deviceId, hid, by rw [← hrole]⟩

theorem mem_occurrences {use : Uuid × RuleDeviceRole} :
    use ∈ occurrences rule ↔ use ∈ rule.deviceMap ∨
      use.2 = .input ∧
        use.1 ∈ (conditionLeaves rule.executionPolicy.resetCondition).flatMap leafDevices := by
  obtain ⟨deviceId, role⟩ := use
  rw [mem_deviceMap]
  unfold occurrences inputDevices
  rw [List.mem_append, List.mem_map, List.mem_map]
  constructor
  · rintro (⟨id, hid, heq⟩ | ⟨id, hid, heq⟩)
    · cases heq
      rcases List.mem_append.mp hid with hid | hid
      · exact .inl (.inl ⟨rfl, hid⟩)
      · exact .inr ⟨rfl, hid⟩
    · cases heq
      exact .inl (.inr ⟨rfl, hid⟩)
  · rintro ((⟨hrole, hid⟩ | ⟨hrole, hid⟩) | ⟨hrole, hid⟩)
    · exact .inl ⟨deviceId, List.mem_append_left _ hid, by rw [← hrole]⟩
    · exact .inr ⟨deviceId, hid, by rw [← hrole]⟩
    · exact .inl ⟨deviceId, List.mem_append_right _ hid, by rw [← hrole]⟩

/-- A rule just written is closed exactly when its reset tree is covered. -/
theorem Written.closed_iff_mapped {db db' : Db F} (h : Written db db' rule) :
    Closed db' rule ↔ ResetCovered rule := by
  constructor
  · intro hclosed leaf hleaf
    refine ⟨hclosed.named leaf (List.mem_append_right _ hleaf), ?_⟩
    intro deviceId hdevice
    have huse : (deviceId, RuleDeviceRole.input) ∈ occurrences rule :=
      mem_occurrences.mpr (.inr ⟨rfl, List.mem_flatMap.mpr ⟨leaf, hleaf, hdevice⟩⟩)
    have hrow := hclosed.rows _ huse
    rw [h.rows] at hrow
    rcases mem_deviceMap.mp ((mem_syncRuleDevices rfl).mp hrow).2 with ⟨-, hinput⟩ | ⟨hrole, -⟩
    · exact hinput
    · cases hrole
  · intro hcovered
    have hmap : ∀ use ∈ occurrences rule, use ∈ rule.deviceMap := by
      intro use huse
      rcases mem_occurrences.mp huse with hmap | ⟨hrole, hreset⟩
      · exact hmap
      · obtain ⟨leaf, hleaf, hdevice⟩ := List.mem_flatMap.mp hreset
        exact mem_deviceMap.mpr (.inl ⟨hrole, (hcovered leaf hleaf).2 _ hdevice⟩)
    refine ⟨?_, ?_, ?_, ?_⟩
    · intro use huse
      rw [h.devices]
      exact h.inTenant use (hmap use huse)
    · intro use huse
      rw [h.rows]
      exact (mem_syncRuleDevices rfl).mpr ⟨rfl, hmap use huse⟩
    · intro row hrow hid
      rw [h.rows, mem_syncRuleDevices hid] at hrow
      exact mem_occurrences.mpr (.inl hrow.2)
    · intro leaf hleaf
      rcases List.mem_append.mp hleaf with hleaf | hleaf
      · exact h.named leaf hleaf
      · exact (hcovered leaf hleaf).1

/-- **When a write closes its rule.** For every request to one of the three routes, on every
database: what it stores is closed exactly when the reset tree of the definition asked for names no
device that neither its condition nor its trigger names, and no leaf of it is without one. -/
theorem closed_iff (lib : Library F) (db : Db F) (tenantId ruleId : Uuid) (request : Write F)
    {db' : Db F} {rule : StoredRule F}
    (h : write lib db tenantId ruleId request = .ok (db', rule)) :
    Closed db' rule ↔
      ∀ definition, request.definition lib db tenantId ruleId = some definition →
        ResetCovered definition := by
  obtain ⟨hdefinition, hwritten⟩ := write_ok h
  rw [hwritten.closed_iff_mapped, hdefinition]
  constructor
  · intro hcovered definition hd
    cases hd
    exact hcovered
  · intro hall
    exact hall rule rfl

/-! ## A reset tree that reads somebody else's device -/

def plainLibrary : Library Int where
  isValidCron := fun _ => true
  isZone := fun _ => true
  repr := fun s => s
  showFloat := fun value => toString value
  upper := fun c => String.ofList [c]

def plainPydantic : Pydantic Int where
  parseUuid := fun text => if text = "" then none else some text
  asInt := some

/-- Two tenants with a device each. -/
def twoTenants : Db Int :=
  { devices := [⟨"ours", "tenant"⟩, ⟨"theirs", "other"⟩] }

/-- Above 30, one notification; the reset leaf is a parameter. -/
def overheating (reset : LeafBody Int) : RuleBody Int :=
  { name := some "Overheating"
    trigger := .metric
    condition := some (.leaf ⟨some "ours", "temperature", .comparison .gt, some (.static 30), 1⟩)
    executionPolicy :=
      { strategy := .resetCondition
        forDuration := 10
        cooldown := 60
        resetCondition := some (.leaf reset)
        clearForDuration := 0 }
    actions := [.notification "hot" [.platform]]
    clearActions := []
    enabled := true }

/-- What pydantic makes of it. -/
def overheatingRequest (reset : ConditionLeaf Int) : RuleCreateRequest Int :=
  { name := "Overheating"
    condition := some (.leaf ⟨some "ours", "temperature", .compare .gt (.static 30) 1⟩)
    executionPolicy :=
      { strategy := .resetCondition
        forDuration := 10
        cooldown := 60
        resetCondition := some (.leaf reset) }
    actions := [.notification "hot" [.platform]] }

/-- The rule is stored. -/
def Stored (request : RuleCreateRequest Int) (db' : Db Int) (rule : StoredRule Int) : Prop :=
  write plainLibrary twoTenants "tenant" "rule" (.createCanonical request) = .ok (db', rule)

/-- Cool again: our own temperature in the reset tree. -/
theorem closed_iff_coolAgain :
    (overheating ⟨some "ours", "temperature", .comparison .lt, some (.static 25), 1⟩).toCreate
        plainPydantic =
      some (overheatingRequest ⟨some "ours", "temperature", .compare .lt (.static 25) 1⟩) ∧
    ∃ db' rule, Stored
        (overheatingRequest ⟨some "ours", "temperature", .compare .lt (.static 25) 1⟩) db' rule ∧
      Closed db' rule := by
  refine ⟨rfl, _, _, rfl, ?_⟩
  refine (closed_iff plainLibrary twoTenants "tenant" "rule" (.createCanonical
    (overheatingRequest ⟨some "ours", "temperature", .compare .lt (.static 25) 1⟩)) rfl).mpr ?_
  intro definition hdefinition
  cases hdefinition
  intro leaf hleaf
  cases List.mem_singleton.mp hleaf
  refine ⟨rfl, ?_⟩
  intro deviceId hdevice
  cases List.mem_singleton.mp hdevice
  exact List.mem_cons_self

/-- **A tenant's rule reads another tenant's door**, and a rule's reset tree reads no device's:
both bodies are accepted and both rules stored. -/
theorem reset_tree_unchecked :
    ((overheating ⟨some "theirs", "door", .comparison .eq, some (.static 0), 0⟩).toCreate
        plainPydantic =
      some (overheatingRequest ⟨some "theirs", "door", .compare .eq (.static 0) 0⟩) ∧
    ∃ db' rule, Stored (overheatingRequest ⟨some "theirs", "door", .compare .eq (.static 0) 0⟩) db'
      rule ∧ ¬ Closed db' rule) ∧
    ((overheating ⟨none, "door", .comparison .eq, some (.static 0), 0⟩).toCreate plainPydantic =
      some (overheatingRequest ⟨none, "door", .compare .eq (.static 0) 0⟩) ∧
    ∃ db' rule, Stored (overheatingRequest ⟨none, "door", .compare .eq (.static 0) 0⟩) db' rule ∧
      ¬ Closed db' rule) := by
  constructor
  · refine ⟨rfl, _, _, rfl, ?_⟩
    intro hclosed
    have hforeign : (⟨"theirs", "tenant"⟩ : Device) ∈ twoTenants.devices :=
      hclosed.inTenant ("theirs", .input) (by decide)
    revert hforeign
    decide
  · refine ⟨rfl, _, _, rfl, ?_⟩
    intro hclosed
    have hnamed := hclosed.named ⟨none, "door", .compare .eq (.static 0) 0⟩
      (List.mem_cons_of_mem _ List.mem_cons_self)
    cases hnamed

end IotSaas.Api
