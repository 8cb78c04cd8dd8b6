import IotSaas.Editor.RoundTrip
import IotSaas.Editor.Save
import IotSaas.Lib.Reach

/-!
# `Editor/Returned.lean` — what the tables hold is what the editor can open

`Returned` is what opening a rule asks of it, and `Reopens` adds what saving it again asks: the
editor sends the reset tree of a latch, and the clear actions it has no slot for, as it was given
them. After any writes both hold of every rule in the tables (`reopens_of_reaches`). A tree that
pydantic made of a body is read back when it is printed, and so it is after a device was stamped on
it, since the device of a row or of a path is a UUID.

What makes this more than a look at each request is the update. It stores what the request gives and
keeps the rest, so a rule is put together from several requests, and a policy without a reset tree of
its own may keep one that an earlier request brought.
-/

set_option autoImplicit false

namespace IotSaas.Editor

open Lib Rules Api

variable {F : Type} [JsonNumber F] {py : Pydantic F}

/-- `uuid.UUID` reads what it printed. -/
def PrintsUuids (py : Pydantic F) : Prop :=
  ∀ text id, py.parseUuid text = some id → py.parseUuid id = some id

/-! ## What pydantic made is read back -/

omit [JsonNumber F] in
theorem optionalUuid_again (prints : PrintsUuids py) {text : Option String} {id : Option Uuid}
    (h : optionalUuid py text = some id) : optionalUuid py id = some id := by
  cases text with
  | none =>
    cases h
    rfl
  | some text =>
    obtain ⟨parsed, hparsed, rfl⟩ := Option.map_eq_some_iff.mp h
    rw [optionalUuid, prints text parsed hparsed]
    rfl

/-- The test of a leaf, and its operator and margin, are read back. -/
theorem test_again (prints : PrintsUuids py) {body : LeafBody F} {test : LeafTest F}
    (h : body.test py = some test) (deviceId : Option Uuid) :
    (leafToBody ⟨deviceId, body.metric, test⟩).operator = body.operator ∧
      ((leafToBody ⟨deviceId, body.metric, test⟩).hysteresis = body.hysteresis ∨
        (leafToBody ⟨deviceId, body.metric, test⟩).hysteresis = JsonNumber.ofNat 0) ∧
      (leafToBody ⟨deviceId, body.metric, test⟩).test py = some test := by
  obtain ⟨_, metric, operator, rhs, hysteresis⟩ := body
  unfold LeafBody.test at h
  dsimp only at h
  split at h
  · cases h
    exact ⟨rfl, .inr rfl, rfl⟩
  · cases h
    exact ⟨rfl, .inr rfl, rfl⟩
  · rename_i setOperator values
    obtain ⟨hvalues, h⟩ := Option.ite_none_right_eq_some.mp h
    cases h
    refine ⟨rfl, .inr rfl, ?_⟩
    have hne : values.filterMap id ≠ [] := by
      cases values with
      | nil => simp at hvalues
      | cons value rest =>
        cases value with
        | none => simp at hvalues
        | some x => simp
    have hsome : ∀ numbers : List F, numbers ≠ [] →
        (leafToBody ⟨deviceId, metric, .set setOperator numbers⟩).test py =
          some (.set setOperator numbers) := by
      intro numbers hnumbers
      simp [leafToBody, testOperator, LeafBody.test, hnumbers]
    exact hsome _ hne
  · cases h
    exact ⟨rfl, .inl rfl, rfl⟩
  · obtain ⟨hlength, h⟩ := Option.ite_none_right_eq_some.mp h
    obtain ⟨parsed, hparsed, rfl⟩ := Option.map_eq_some_iff.mp h
    refine ⟨rfl, .inl rfl, ?_⟩
    simp only [leafToBody, testOperator, LeafBody.test, if_pos hlength, prints _ _ hparsed,
      Option.map_some]
  · cases h

/-- **A leaf that was accepted is accepted as it is printed.** -/
theorem leaf_again (laws : NumberLaws py) (prints : PrintsUuids py) {body : LeafBody F}
    {leaf : Api.ConditionLeaf F} (h : body.validate py = some leaf) :
    (leafToBody leaf).validate py = some leaf := by
  obtain ⟨⟨hmetric, hzero, hmargin⟩, hdevice, hname, htest⟩ := LeafBody.validate_eq_some.mp h
  obtain ⟨deviceId, metric, test⟩ := leaf
  cases hname
  obtain ⟨hoperator, hhysteresis, hagain⟩ := test_again prints htest deviceId
  refine LeafBody.validate_eq_some.mpr
    ⟨⟨hmetric, ?_, ?_⟩, optionalUuid_again prints hdevice, rfl, hagain⟩
  · rcases hhysteresis with hsame | hnone
    · rw [hsame]
      exact hzero
    · rw [hnone]
      exact laws.zero_le_zero
  · rw [hoperator]
    rcases hhysteresis with hsame | hnone
    · rw [hsame]
      exact hmargin
    · rw [hnone, laws.not_zero_lt_zero]
      intro hfalse
      cases hfalse

mutual

/-- **So is a tree.** -/
theorem readBack_of_validate (laws : NumberLaws py) (prints : PrintsUuids py) :
    ∀ (body : NodeBody F) {tree : Api.ConditionNode F}, body.validate py = some tree →
      ReadBack py tree
  | .leaf l, tree, h => by
      rw [NodeBody.validate] at h
      obtain ⟨leaf, hleaf, rfl⟩ := Option.map_eq_some_iff.mp h
      unfold ReadBack
      rw [nodeToBody, NodeBody.validate, leaf_again laws prints hleaf]
      rfl
  | .group op predicates, tree, h => by
      rw [NodeBody.validate] at h
      obtain ⟨htwo, h⟩ := Option.ite_none_right_eq_some.mp h
      obtain ⟨nodes, hnodes, rfl⟩ := Option.map_eq_some_iff.mp h
      obtain ⟨hlength, hagain⟩ := readBackAll_of_validate laws prints predicates hnodes
      unfold ReadBack
      rw [nodeToBody, NodeBody.validate, if_pos (by rwa [hlength]), hagain]
      rfl

theorem readBackAll_of_validate (laws : NumberLaws py) (prints : PrintsUuids py) :
    ∀ (predicates : List (NodeBody F)) {nodes : List (Api.ConditionNode F)},
      NodeBody.validateAll py predicates = some nodes →
      (nodesToBodies nodes).length = predicates.length ∧
        NodeBody.validateAll py (nodesToBodies nodes) = some nodes
  | [], nodes, h => by
      rw [NodeBody.validateAll] at h
      cases h
      rw [nodesToBodies, NodeBody.validateAll]
      exact ⟨rfl, rfl⟩
  | body :: rest, nodes, h => by
      rw [NodeBody.validateAll] at h
      split at h
      · rename_i node nodes hnode hnodes
        cases h
        obtain ⟨hlength, hagain⟩ := readBackAll_of_validate laws prints rest hnodes
        have hread := readBack_of_validate laws prints body hnode
        unfold ReadBack at hread
        rw [nodesToBodies, NodeBody.validateAll, hread, hagain, List.length_cons, List.length_cons,
          hlength]
        exact ⟨rfl, rfl⟩
      · cases h

end

/-- **An action that was accepted is accepted as it is printed.** -/
theorem action_again (prints : PrintsUuids py) {body : ActionBody F} {action : Action F}
    (h : body.validate py = some action) : (actionToBody action).validate py = some action := by
  cases body with
  | actuatorCommand deviceId actuator value =>
    obtain ⟨hlength, h⟩ := Option.ite_none_right_eq_some.mp h
    obtain ⟨id, hid, rfl⟩ := Option.map_eq_some_iff.mp h
    simp only [actionToBody, ActionBody.validate, if_pos hlength, optionalUuid_again prints hid,
      Option.map_some]
  | notification message channels =>
    obtain ⟨haccepted, h⟩ := Option.ite_none_right_eq_some.mp h
    cases h
    rw [actionToBody, ActionBody.validate, if_pos haccepted]
  | webhook url value retry timeoutS =>
    unfold ActionBody.validate at h
    dsimp only at h
    split at h
    · split at h
      · rename_i haccepted
        cases h
        rw [actionToBody, ActionBody.validate]
        exact if_pos haccepted
      · cases h
    · cases h
  | email recipients subject text =>
    obtain ⟨haccepted, h⟩ := Option.ite_none_right_eq_some.mp h
    cases h
    rw [actionToBody, ActionBody.validate, if_pos haccepted]

/-! ## Stamping -/

mutual

/-- **A stamped tree is read back**, the device being a UUID. -/
theorem ReadBack.stamp {deviceId : Uuid} (hid : py.parseUuid deviceId = some deviceId) :
    ∀ (tree : Api.ConditionNode F), ReadBack py tree →
      ReadBack py (stampConditionDevice deviceId tree)
  | .leaf l, h => by
      unfold ReadBack at h ⊢
      rw [nodeToBody, NodeBody.validate] at h
      obtain ⟨leaf, hleaf, heq⟩ := Option.map_eq_some_iff.mp h
      cases heq
      obtain ⟨hchecks, hdevice, hmetric, htest⟩ := LeafBody.validate_eq_some.mp hleaf
      have hstamped : (leafToBody { l with deviceId := some (l.deviceId.getD deviceId) }).validate
          py = some { l with deviceId := some (l.deviceId.getD deviceId) } := by
        refine LeafBody.validate_eq_some.mpr ⟨hchecks, ?_, rfl, htest⟩
        cases hnamed : l.deviceId with
        | none =>
          show (py.parseUuid deviceId).map some = _
          rw [hid]
          rfl
        | some named =>
          show optionalUuid py (some named) = some (some named)
          rw [← hnamed]
          exact hdevice
      rw [stampConditionDevice, nodeToBody, NodeBody.validate, hstamped]
      rfl
  | .group op predicates, h => by
      unfold ReadBack at h ⊢
      rw [nodeToBody, NodeBody.validate] at h
      obtain ⟨htwo, h⟩ := Option.ite_none_right_eq_some.mp h
      obtain ⟨nodes, hnodes, heq⟩ := Option.map_eq_some_iff.mp h
      cases heq
      obtain ⟨hlength, hagain⟩ := stampAll_again hid predicates hnodes
      rw [stampConditionDevice, nodeToBody, NodeBody.validate, if_pos (by rwa [hlength]), hagain]
      rfl

theorem stampAll_again {deviceId : Uuid} (hid : py.parseUuid deviceId = some deviceId) :
    ∀ (predicates : List (Api.ConditionNode F)),
      NodeBody.validateAll py (nodesToBodies predicates) = some predicates →
      (nodesToBodies (stampAll deviceId predicates)).length = (nodesToBodies predicates).length ∧
        NodeBody.validateAll py (nodesToBodies (stampAll deviceId predicates)) =
          some (stampAll deviceId predicates)
  | [], _ => by
      rw [stampAll, nodesToBodies, NodeBody.validateAll]
      exact ⟨rfl, rfl⟩
  | node :: rest, h => by
      rw [nodesToBodies, NodeBody.validateAll] at h
      split at h
      · rename_i hnode hnodes
        cases h
        obtain ⟨hlength, hagain⟩ := stampAll_again hid rest hnodes
        have hstamped := ReadBack.stamp hid node hnode
        unfold ReadBack at hstamped
        rw [stampAll, nodesToBodies, NodeBody.validateAll, hstamped, hagain, nodesToBodies,
          List.length_cons, List.length_cons, hlength]
        exact ⟨rfl, rfl⟩
      · cases h

end

/-- A stamped action is accepted as it is printed. -/
theorem stampAction_again {deviceId : Uuid} (hid : py.parseUuid deviceId = some deviceId)
    {action : Action F} (h : (actionToBody action).validate py = some action) :
    (actionToBody (stampAction deviceId action)).validate py =
      some (stampAction deviceId action) := by
  cases action with
  | notification message channels => exact h
  | webhook config => exact h
  | email recipients subject body => exact h
  | actuatorCommand named actuator value =>
    cases named with
    | some named => exact h
    | none =>
      unfold actionToBody ActionBody.validate at h
      obtain ⟨hlength, h⟩ := Option.ite_none_right_eq_some.mp h
      simp only [stampAction, actionToBody, ActionBody.validate, if_pos hlength, optionalUuid,
        Option.getD_none, hid, Option.map_some]

/-! ## The tables -/

/-- The trees and the actions of a request are what pydantic made of bodies. -/
structure Parsed (py : Pydantic F) (trees : List (Api.ConditionNode F))
    (actions : List (Action F)) : Prop where
  trees : ∀ tree ∈ trees, ∃ body : NodeBody F, body.validate py = some tree
  actions : ∀ action ∈ actions, ∃ body : ActionBody F, body.validate py = some action

/-- **A request as it reaches the service**, with its reset tree and its clear actions. The path of
the device route names a device. -/
def ParsedWrite (py : Pydantic F) (db : Db F) (request : Write F) : Prop :=
  match request with
  | .createCanonical request =>
      Parsed py (request.condition.toList ++ request.executionPolicy.resetCondition.toList)
        (request.actions ++ request.clearActions)
  | .createForDevice deviceId request =>
      Parsed py [request.condition] (request.actions.getD request.action.toList) ∧
        ∃ device ∈ db.devices, device.id = deviceId
  | .update _ request =>
      Parsed py (request.condition.toList ++
          (request.executionPolicy.bind (·.resetCondition)).toList)
        ((request.actions.or (request.action.map fun action => [action])).getD [] ++
          request.clearActions.getD [])

/-- **A rule that can be opened and saved again**: the reset tree and the clear actions, which are
sent back as they came, are valid as they are printed too, and a latch has none of the latter. -/
structure Reopens (lib : Library F) (py : Pydantic F) (rule : StoredRule F) : Prop
    extends Returned lib py rule where
  resetTree : ∀ tree ∈ rule.executionPolicy.resetCondition, ReadBack py tree
  cleared : ∀ action ∈ rule.clearActions, (actionToBody action).validate py = some action
  latch : validateLatch rule.trigger rule.executionPolicy rule.clearActions = .ok ()

/-- **Tables the editor can open every rule of**: the devices have UUIDs, the rows name devices, and
each rule is one the API can return. -/
structure Openable (lib : Library F) (py : Pydantic F) (db : Db F) : Prop where
  uuids : ∀ device ∈ db.devices, py.parseUuid device.id = some device.id
  rows : ∀ row ∈ db.ruleDevices, ∃ device ∈ db.devices, device.id = row.deviceId
  rules : ∀ rule ∈ db.rules, Reopens lib py rule

section

variable {lib : Library F}

/-- What a parsed request brings is read back. -/
theorem Parsed.readBack (laws : NumberLaws py) (prints : PrintsUuids py)
    {trees : List (Api.ConditionNode F)} {actions : List (Action F)}
    (h : Parsed py trees actions) :
    (∀ tree ∈ trees, ReadBack py tree) ∧
      ∀ action ∈ actions, (actionToBody action).validate py = some action := by
  constructor
  · intro tree htree
    obtain ⟨body, hbody⟩ := h.trees tree htree
    exact readBack_of_validate laws prints body hbody
  · intro action haction
    obtain ⟨body, hbody⟩ := h.actions action haction
    exact action_again prints hbody

/-- The device an update stamps with is a UUID. -/
theorem Openable.fallback {db : Db F} (h : Openable lib py db) {ruleId deviceId : Uuid}
    (hfallback : fallbackDevice db ruleId = some deviceId) :
    py.parseUuid deviceId = some deviceId := by
  obtain ⟨row, hrow, rfl⟩ := Option.map_eq_some_iff.mp hfallback
  obtain ⟨device, hdevice, hid⟩ := h.rows row (List.mem_of_find?_eq_some hrow)
  rw [← hid]
  exact h.uuids device hdevice

/-- **The rule a canonical request stores** is the request itself. -/
theorem reopens_canonicalRule (laws : NumberLaws py) (prints : PrintsUuids py) {db db' : Db F}
    {tenantId ruleId : Uuid} {request : RuleCreateRequest F} {stored : StoredRule F}
    (hparsed : Parsed py (request.condition.toList ++ request.executionPolicy.resetCondition.toList)
      (request.actions ++ request.clearActions))
    (hpersist : persistRule lib db (canonicalRule tenantId ruleId request) = .ok (db', stored)) :
    Reopens lib py (canonicalRule tenantId ruleId request) := by
  obtain ⟨htrees, hactions⟩ := hparsed.readBack laws prints
  obtain ⟨-, -, hpassed, -⟩ := persistRule_ok hpersist
  refine ⟨⟨fun tree htree => ?_, fun action haction => ?_, hpassed.leaves, hpassed.trigger,
    hpassed.clearActions⟩, fun tree htree => ?_, fun action haction => ?_, hpassed.latch⟩
  · exact htrees tree (List.mem_append_left _ (Option.mem_toList.mpr htree))
  · exact hactions action (List.mem_append_left _ haction)
  · exact htrees tree (List.mem_append_right _ (Option.mem_toList.mpr htree))
  · exact hactions action (List.mem_append_right _ haction)

/-- **The rule a device route stores**: stamped with the device of the path, with no reset tree and
nothing to clear. -/
theorem reopens_deviceRule (laws : NumberLaws py) (prints : PrintsUuids py) {db db' : Db F}
    {tenantId ruleId deviceId : Uuid} {request : DeviceRuleCreateRequest F}
    {rule stored : StoredRule F} (hid : py.parseUuid deviceId = some deviceId)
    (hparsed : Parsed py [request.condition] (request.actions.getD request.action.toList))
    (hrule : deviceRule lib tenantId ruleId deviceId request = some rule)
    (hpersist : persistRule lib db rule = .ok (db', stored)) : Reopens lib py rule := by
  obtain ⟨htrees, hactions⟩ := hparsed.readBack laws prints
  obtain ⟨-, -, hpassed, -⟩ := persistRule_ok hpersist
  unfold deviceRule at hrule
  dsimp only at hrule
  split at hrule
  · cases hrule
  · rename_i actions _
    cases hrule
    refine ⟨⟨?_, ?_, hpassed.leaves, hpassed.trigger, hpassed.clearActions⟩, fun _ => nofun,
      fun _ => nofun, hpassed.latch⟩
    · intro tree htree
      cases htree
      exact ReadBack.stamp hid request.condition (htrees _ (List.mem_singleton_self _))
    · intro action haction
      obtain ⟨sent, hsent, rfl⟩ := List.mem_map.mp haction
      exact stampAction_again hid (hactions sent hsent)

/-- **The rule an update leaves**: each part is the request's or the one from before. -/
theorem reopens_updatedRule (laws : NumberLaws py) (prints : PrintsUuids py) {db : Db F}
    {ruleId : Uuid} {request : RuleUpdateRequest F} {before stored : StoredRule F}
    (h : Openable lib py db) (hbefore : Reopens lib py before)
    (hparsed : Parsed py (request.condition.toList ++
        (request.executionPolicy.bind (·.resetCondition)).toList)
      ((request.actions.or (request.action.map fun action => [action])).getD [] ++
        request.clearActions.getD []))
    (hstored : stored = updatedRule (fallbackDevice db ruleId) request before)
    (hpassed : Passed lib request.trigger stored) : Reopens lib py stored := by
  obtain ⟨htrees, hactions⟩ := hparsed.readBack laws prints
  refine ⟨⟨?_, ?_, hpassed.leaves, ?_, hpassed.clearActions⟩, ?_, ?_, hpassed.latch⟩
  · rw [hstored]
    intro tree htree
    unfold updatedRule at htree
    dsimp only at htree
    split at htree
    · exact hbefore.condition tree htree
    · rename_i condition hsent
      have hread : ReadBack py condition :=
        htrees condition (List.mem_append_left _ (Option.mem_toList.mpr hsent))
      split at htree
      · rename_i deviceId hfallback
        cases htree
        exact ReadBack.stamp (h.fallback hfallback) condition hread
      · cases htree
        exact hread
  · rw [hstored]
    intro action haction
    unfold updatedRule at haction
    dsimp only at haction
    cases hsent : request.actions.or (request.action.map fun action => [action]) with
    | none =>
      rw [hsent] at haction
      exact hbefore.actions action haction
    | some actions =>
      rw [hsent] at haction hactions
      exact hactions action (List.mem_append_left _ haction)
  · rw [hstored]
    unfold updatedRule
    dsimp only
    cases hsent : request.trigger with
    | none => exact hbefore.trigger
    | some trigger =>
      have hchecked := hpassed.trigger
      rw [hsent] at hchecked
      exact hchecked
  · rw [hstored]
    intro tree htree
    unfold updatedRule updatedPolicy at htree
    dsimp only at htree
    cases hsent : request.executionPolicy with
    | none =>
      -- only durations are given, and the tree stays
      rw [hsent] at htree
      exact hbefore.resetTree tree htree
    | some policy =>
      rw [hsent] at htree htrees
      exact htrees tree (List.mem_append_right _ (Option.mem_toList.mpr htree))
  · rw [hstored]
    intro action haction
    unfold updatedRule at haction
    dsimp only at haction
    cases hsent : request.clearActions with
    | none =>
      rw [hsent] at haction
      exact hbefore.cleared action haction
    | some actions =>
      rw [hsent] at haction hactions
      exact hactions action (List.mem_append_right _ haction)

/-- **One write** leaves the tables openable. The devices never change, and the rows a write makes
name devices it has found; so it is the new rule that has to be looked at, or, in an update, the one
that takes the place of every row of its id. -/
theorem write_openable (laws : NumberLaws py) (prints : PrintsUuids py) {db db' : Db F}
    {tenantId ruleId : Uuid} {request : Write F} {rule : StoredRule F} (h : Openable lib py db)
    (hparsed : ParsedWrite py db request)
    (hwrite : write lib db tenantId ruleId request = .ok (db', rule)) : Openable lib py db' := by
  obtain ⟨-, hwritten⟩ := write_ok hwrite
  refine ⟨?_, ?_, ?_⟩
  · rw [hwritten.devices]
    exact h.uuids
  · rw [hwritten.devices, hwritten.rows]
    intro row hrow
    rcases List.mem_append.mp hrow with hold | hnew
    · exact h.rows row (List.mem_of_mem_filter hold)
    · obtain ⟨entry, hentry, rfl⟩ := List.mem_map.mp hnew
      exact ⟨_, hwritten.inTenant entry (List.mem_dedup.mp hentry), rfl⟩
  · cases request with
    | createCanonical request =>
      rw [(persistRule_ok hwrite).2.1]
      intro rule hrule
      rcases List.mem_append.mp hrule with hold | hnew
      · exact h.rules rule hold
      · rw [List.mem_singleton.mp hnew]
        exact reopens_canonicalRule laws prints hparsed hwrite
    | createForDevice deviceId request =>
      obtain ⟨hparsed, device, hdevice, rfl⟩ := hparsed
      unfold write at hwrite
      dsimp only at hwrite
      split at hwrite
      · cases hwrite
      · rename_i definition hdefinition
        rw [(persistRule_ok hwrite).2.1]
        intro rule hrule
        rcases List.mem_append.mp hrule with hold | hnew
        · exact h.rules rule hold
        · rw [List.mem_singleton.mp hnew]
          exact reopens_deviceRule laws prints (h.uuids device hdevice) hparsed hdefinition hwrite
    | update ruleId request =>
      obtain ⟨before, hbefore, hstored, hrules, hpassed, -⟩ := updateRule_ok hwrite
      rw [hrules]
      intro stored hmem
      obtain ⟨old, hold, rfl⟩ := List.mem_map.mp hmem
      split
      · exact reopens_updatedRule laws prints h (h.rules before (getRule_some hbefore).1) hparsed
          hstored hpassed
      · exact h.rules old hold

/-- A write by a tenant, under the identifier a new rule gets. -/
def writeStep (lib : Library F) (db : Db F) (event : Uuid × Uuid × Write F) : Option (Db F) :=
  match write lib db event.1 event.2.1 event.2.2 with
  | .ok (db', _) => some db'
  | .error _ => none

/-- **Every rule the API writes can be opened and saved**, after any writes of any tenants. -/
theorem reopens_of_reaches (laws : NumberLaws py) (prints : PrintsUuids py)
    {devices : List Device} {db : Db F}
    (huuids : ∀ device ∈ devices, py.parseUuid device.id = some device.id)
    (h : Reaches (writeStep lib) (fun db event => ParsedWrite py db event.2.2)
      { devices := devices } db) : ∀ rule ∈ db.rules, Reopens lib py rule := by
  refine (h.invariant (I := Openable lib py) ⟨huuids, ?_, ?_⟩ ?_).rules
  · intro row hrow
    cases hrow
  · intro rule hrule
    cases hrule
  · intro db event db' hdb hparsed hstep
    unfold writeStep at hstep
    split at hstep
    · rename_i hwrite
      cases hstep
      exact write_openable laws prints hdb hparsed hwrite
    · cases hstep

end

/-- An overheating rule is written, which resets when it is cool again. -/
def overheatingRun : List (Uuid × Uuid × Write Int) :=
  [("tenant", "rule", .createCanonical
    (overheatingRequest ⟨some "ours", "temperature", .compare .lt (.static 25) 1⟩))]

def overheatingDb : Db Int := (run (writeStep plainLibrary) twoTenants overheatingRun).getD twoTenants

theorem reopens_of_reaches_overheating : overheatingDb.rules ≠ [] ∧
    ∀ rule ∈ overheatingDb.rules, Reopens plainLibrary plainPydantic rule := by
  have laws : NumberLaws plainPydantic :=
    ⟨by decide, by decide, rfl, fun n i hn hle => by cases hn; exact of_decide_eq_true hle⟩
  have prints : PrintsUuids plainPydantic := by
    intro text id h
    unfold plainPydantic at h ⊢
    dsimp only at h ⊢
    obtain ⟨hne, h⟩ := Option.ite_none_left_eq_some.mp h
    cases h
    exact if_neg hne
  have hrun : run (writeStep plainLibrary) twoTenants overheatingRun = some overheatingDb := rfl
  refine ⟨by decide, reopens_of_reaches laws prints (by decide)
    (.of_run_of_forall hrun fun event hevent db => ?_)⟩
  obtain rfl := List.mem_singleton.mp hevent
  constructor
  · intro tree htree
    rcases List.mem_cons.mp htree with rfl | hreset
    · exact ⟨.leaf ⟨some "ours", "temperature", .comparison .gt, some (.static 30), 1⟩, rfl⟩
    · cases List.mem_singleton.mp hreset
      exact ⟨.leaf ⟨some "ours", "temperature", .comparison .lt, some (.static 25), 1⟩, rfl⟩
  · intro action haction
    cases List.mem_singleton.mp haction
    exact ⟨.notification "hot" [.platform], rfl⟩

end IotSaas.Editor
