import IotSaas.Api.Accepted
import IotSaas.Editor.Text

/-!
# `Editor/Accepts.lean` — what the editor accepts and the API does not

Three checkers look at a rule before it is stored: the save gate (`sectionIssues`), `validateDraft`,
and the schemas with the checks of the service. The first implies the second, and a request is
always made (`validateDraft_of_unblocked`, `actionsToApi_of_unblocked`). The third asks for more,
and `Fits` is all of it, field by field: whole seconds, lengths, a set with numbers in it, an object
for a webhook's body. The service's own checks ask for nothing new (`service_ok`).
-/

set_option autoImplicit false

namespace IotSaas.Editor

open Lib Rules Api

variable {F : Type} [JsonNumber F] {py : Pydantic F} {js : Js F}

/-! ## The save gate -/

/-- **What a draft without blocking issues has.** -/
structure Unblocked (js : Js F) (draft : RuleDraft F) : Prop where
  cron : draft.trigger.type = .schedule → jsTrim draft.trigger.cron ≠ ""
  watched : draft.trigger.type = .deviceStatus → draft.trigger.statusDeviceId ≠ ""
  condition : isReadingRule draft = true → draft.condition.isNone = false
  contacts : ∀ c ∈ contacts draft.condition, contactProblem c = none
  someAction : ¬ (draft.actions.isEmpty = true ∧ draft.preserved.actions.isEmpty = true)
  actions : ∀ action ∈ draft.actions, actionProblem js action = none
  clearMessage : canClear draft = true → draft.clearNotify = true → jsTrim draft.clearMessage ≠ ""
  name : jsLength (jsTrim draft.name) ≤ 200

theorem blocking_issueIf {cause : Bool} {ruleSection : RuleSection} {message : String} :
    (issueIf cause ruleSection message true).filter (·.blocking) = [] ↔ cause = false := by
  cases cause <;> simp [issueIf]

theorem blocking_problems {problems : List String} {ruleSection : RuleSection} :
    (problems.map (⟨ruleSection, ·, true⟩)).filter (fun issue : SectionIssue => issue.blocking) =
      [] ↔ problems = [] := by
  cases problems <;> simp

variable {draft : RuleDraft F}

theorem unblocked (h : blockingIssues js draft = []) :
    Unblocked js draft := by
  unfold blockingIssues sectionIssues at h
  simp only [List.filter_append, List.append_eq_nil_iff, blocking_issueIf, blocking_problems] at h
  obtain ⟨⟨⟨⟨⟨⟨⟨⟨⟨⟨hcron, hwatched⟩, hcondition⟩, hcontacts⟩, -⟩, hsome⟩, hactions⟩, -⟩, -⟩,
    hmessage⟩, hname⟩ := h
  refine ⟨?_, ?_, ?_, ?_, ?_, ?_, ?_, ?_⟩
  · intro htype hempty
    simp [htype, hempty] at hcron
  · intro htype hempty
    simp [htype, hempty] at hwatched
  · intro hreading
    simpa [hreading] using hcondition
  · exact List.filterMap_eq_nil_iff.mp hcontacts
  · rintro ⟨hnone, hpreserved⟩
    simp [hnone, hpreserved] at hsome
  · exact List.filterMap_eq_nil_iff.mp hactions
  · intro hclear hnotify hempty
    simp [hclear, hnotify, hempty] at hmessage
  · exact Nat.le_of_not_lt (of_decide_eq_false hname)

omit [JsonNumber F] in
/-- The second checker agrees with the first. -/
theorem validateDraft_of_unblocked (h : Unblocked js draft) :
    validateDraft js draft = none := by
  have hcontacts : (contacts draft.condition).findSome? contactProblem = none :=
    List.findSome?_eq_none_iff.mpr h.contacts
  have hactions : draft.actions.findSome? (actionProblem js) = none :=
    List.findSome?_eq_none_iff.mpr h.actions
  unfold validateDraft
  dsimp only
  rw [if_neg fun hcron => h.cron hcron.1 hcron.2,
    if_neg fun hwatched => h.watched hwatched.1 hwatched.2, if_neg, hcontacts]
  · dsimp only
    rw [if_neg h.someAction, hactions]
    dsimp only
    rw [if_neg fun hmessage => h.clearMessage hmessage.1 hmessage.2.1 hmessage.2.2]
  · rintro ⟨hnone, hmetric⟩
    rw [h.condition (by simpa [isReadingRule] using hmetric)] at hnone
    cases hnone

omit [JsonNumber F] in
theorem actionToApi_of_problem {action : ActionDraft F} (h : actionProblem js action = none) :
    ∃ body, actionToApi js action = some body := by
  cases action with
  | actuator a => exact ⟨_, rfl⟩
  | email recipients subject body => exact ⟨_, rfl⟩
  | notification message => exact ⟨_, rfl⟩
  | webhook url body =>
    unfold actionProblem at h
    dsimp only at h
    split at h
    · cases h
    · split at h
      · rename_i value hvalue
        exact ⟨_, by rw [actionToApi, hvalue]; rfl⟩
      · cases h

omit [JsonNumber F] in
/-- A request can always be made. -/
theorem actionsToApi_of_problem {actions : List (ActionDraft F)}
    (h : ∀ action ∈ actions, actionProblem js action = none) :
    ∃ bodies, actionsToApi js actions = some bodies := by
  induction actions with
  | nil => exact ⟨[], rfl⟩
  | cons action rest ih =>
    obtain ⟨body, hbody⟩ := actionToApi_of_problem (h action List.mem_cons_self)
    obtain ⟨bodies, hbodies⟩ := ih fun a ha => h a (List.mem_cons_of_mem _ ha)
    exact ⟨body :: bodies, by rw [actionsToApi, hbody, hbodies]⟩

/-! ## What the API asks for beyond that -/

/-- A contact the API has no objection to: its texts are not too long, and a set has a number in it
and no infinite one. -/
def ContactFits (js : Js F) (c : ContactDraft F) : Prop :=
  c.metric.length ≤ 100 ∧
    match c.operator with
    | .set _ =>
        (∃ value, .finite value ∈ setNumbers js c.setText) ∧
          .infinite ∉ setNumbers js c.setText
    | .comparison _ => c.rhsKind = .metric → c.rhsMetric.length ≤ 100
    | .range _ | .change _ => True

/-- An action the API has no objection to. -/
def ActionFits (js : Js F) (action : ActionDraft F) : Prop :=
  match action with
  | .actuator a => (jsTrim a.actuator).length ≤ 100
  | .email recipients subject body =>
      (parseRecipients recipients).length ≤ 20 ∧
      (∀ r ∈ parseRecipients recipients, nextLine ∉ r.toList ∧ r.length ≤ 254) ∧
      (jsTrim subject).length ≤ 200 ∧ (jsTrim body).length ≤ 5000
  | .webhook url body =>
      (jsTrim url).length ≤ 2000 ∧
        ∃ members, js.parseJson (webhookText body) = some (.obj members)
  | .notification message => (jsTrim message).length ≤ 1000

omit [JsonNumber F] in
/-- The values of a set that are sent. -/
theorem sentNumbers_accepted {numbers : List (JsNumber F)} :
    (!(numbers.filterMap sentNumber).isEmpty && (numbers.filterMap sentNumber).all Option.isSome) =
      true ↔ (∃ value, .finite value ∈ numbers) ∧ .infinite ∉ numbers := by
  have hfinite : (numbers.filterMap sentNumber).all Option.isSome = true ↔ .infinite ∉ numbers := by
    rw [List.all_eq_true]
    constructor
    · intro hall hmem
      have := hall none (List.mem_filterMap.mpr ⟨.infinite, hmem, rfl⟩)
      cases this
    · intro hnot sent hsent
      obtain ⟨number, hnumber, heq⟩ := List.mem_filterMap.mp hsent
      cases number with
      | finite value =>
        cases heq
        rfl
      | infinite => exact absurd hnumber hnot
      | nan => cases heq
  rw [Bool.and_eq_true, hfinite, Bool.not_eq_true', List.isEmpty_eq_false_iff]
  constructor
  · rintro ⟨hne, hnot⟩
    refine ⟨?_, hnot⟩
    obtain ⟨sent, hsent⟩ := List.exists_mem_of_ne_nil _ hne
    obtain ⟨number, hnumber, heq⟩ := List.mem_filterMap.mp hsent
    cases number with
    | finite value => exact ⟨value, hnumber⟩
    | infinite => exact absurd hnumber hnot
    | nan => cases heq
  · rintro ⟨⟨value, hvalue⟩, hnot⟩
    exact ⟨List.ne_nil_of_mem (List.mem_filterMap.mpr ⟨.finite value, hvalue, rfl⟩), hnot⟩

/-! ## Contacts -/

/-- What numbers are and how pydantic reads a whole one: zero is not less than itself, it is read as
zero, and nothing that is not negative is read as something that is. -/
structure NumberLaws (py : Pydantic F) : Prop where
  zero_le_zero : PyFloat.le (JsonNumber.ofNat 0 : F) (JsonNumber.ofNat 0) = true
  not_zero_lt_zero : PyFloat.lt (JsonNumber.ofNat 0 : F) (JsonNumber.ofNat 0) = false
  asInt_zero : py.asInt (JsonNumber.ofNat 0) = some 0
  asInt_nonneg : ∀ (n : F) (i : Int), py.asInt n = some i →
    PyFloat.le (JsonNumber.ofNat 0) n = true → 0 ≤ i

/-- The devices a contact names: its own, and the one it is compared with. -/
def contactDevices (c : ContactDraft F) : List String :=
  c.deviceId ::
    if takesOne c.operator = true ∧ c.rhsKind = .metric then [c.rhsDeviceId] else []

/-- What is given of a contact: the editor has no problem with it, its margin is not negative and
its devices have identifiers. -/
structure ContactGiven (py : Pydantic F) (c : ContactDraft F) : Prop where
  problem : contactProblem c = none
  margin : PyFloat.le (JsonNumber.ofNat 0) c.hysteresis = true
  devices : ∀ id ∈ contactDevices c, (py.parseUuid id).isSome

omit [JsonNumber F] in
theorem contactProblem_none {c : ContactDraft F} (h : contactProblem c = none) :
    c.metric ≠ "" ∧
      (takesOne c.operator = true → c.rhsKind = .metric → c.rhsMetric ≠ "") := by
  unfold contactProblem at h
  split at h
  · cases h
  · rename_i hnamed
    split at h
    · cases h
    · rename_i hcompared
      constructor
      · exact ne_empty_of_jsTrim fun hempty => hnamed (.inr hempty)
      · intro hone hkind hempty
        exact hcompared ⟨hkind, hone, .inr hempty⟩

/-- The right-hand side of a contact. -/
theorem test_isSome {c : ContactDraft F} (h : ContactGiven py c) :
    ((leafFromContact js c).test py).isSome ↔
      match c.operator with
      | .set _ =>
          (∃ value, .finite value ∈ setNumbers js c.setText) ∧
            .infinite ∉ setNumbers js c.setText
      | .comparison _ => c.rhsKind = .metric → c.rhsMetric.length ≤ 100
      | .range _ | .change _ => True := by
  cases hop : c.operator with
  | range operator => simp [LeafBody.test, leafFromContact, buildRhs, hop]
  | change operator => simp [LeafBody.test, leafFromContact, buildRhs, hop]
  | set operator =>
    dsimp only
    rw [← sentNumbers_accepted]
    simp only [LeafBody.test, leafFromContact, buildRhs, hop]
    split
    · rename_i haccepted
      exact iff_of_true rfl haccepted
    · rename_i hrefused
      exact iff_of_false (by simp) hrefused
  | comparison operator =>
    have hone : takesOne c.operator = true := by rw [hop]; rfl
    cases hkind : c.rhsKind with
    | static => simp [LeafBody.test, leafFromContact, buildRhs, hop, hkind]
    | metric =>
      have hmetric := (contactProblem_none h.problem).2 hone hkind
      have hdevice : (py.parseUuid c.rhsDeviceId).isSome :=
        h.devices _ (by simp [contactDevices, hone, hkind])
      simp only [LeafBody.test, leafFromContact, buildRhs, hop, hkind, forall_const,
        ← lengthIn_iff hmetric]
      split
      · rename_i hlength
        simp [hlength, hdevice]
      · rename_i hlength
        simp [hlength]

theorem contact_isSome (laws : NumberLaws py) {c : ContactDraft F} (h : ContactGiven py c) :
    ((leafFromContact js c).validate py).isSome ↔ ContactFits js c := by
  rw [LeafBody.validate_isSome, test_isSome h]
  unfold ContactFits
  have hmetric : lengthIn 1 100 (leafFromContact js c).metric = true ↔ c.metric.length ≤ 100 :=
    lengthIn_iff (contactProblem_none h.problem).1
  have hdevice : (optionalUuid py (leafFromContact js c).deviceId).isSome := by
    show ((py.parseUuid c.deviceId).map some).isSome
    rw [Option.isSome_map]
    exact h.devices _ List.mem_cons_self
  -- the margin is sent as zero where the API wants none
  have hmargin : PyFloat.le (JsonNumber.ofNat 0) (leafFromContact js c).hysteresis = true ∧
      (PyFloat.lt (JsonNumber.ofNat 0) (leafFromContact js c).hysteresis = true →
        (leafFromContact js c).operator.hasHysteresis = true) := by
    unfold leafFromContact
    dsimp only
    split
    · rename_i hhas
      exact ⟨h.margin, fun _ => hhas⟩
    · refine ⟨laws.zero_le_zero, fun hpositive => ?_⟩
      rw [laws.not_zero_lt_zero] at hpositive
      cases hpositive
  constructor
  · rintro ⟨hlength, -, -, -, htest⟩
    exact ⟨hmetric.mp hlength, htest⟩
  · rintro ⟨hlength, htest⟩
    exact ⟨hmetric.mpr hlength, hmargin.1, hmargin.2, hdevice, htest⟩

/-! ## Trees -/

theorem bodiesOfNodes_eq_map (children : List (DraftNode F)) :
    bodiesOfNodes js children = children.map (bodyOfNode js) := by
  induction children with
  | nil => rw [bodiesOfNodes, List.map_nil]
  | cons child rest ih => rw [bodiesOfNodes, List.map_cons, ih]

/-- A tree in normal form is accepted with its contacts. -/
theorem bodyOfNode_isSome (laws : NumberLaws py) {node : DraftNode F} (hnormal : Normal node)
    (h : ∀ c ∈ nodeContacts node, ContactGiven py c) :
    ((bodyOfNode js node).validate py).isSome ↔ ∀ c ∈ nodeContacts node, ContactFits js c := by
  induction hnormal with
  | contact c =>
    rw [nodeContacts] at h ⊢
    rw [bodyOfNode, NodeBody.validate_leaf_isSome, contact_isSome laws (h c List.mem_cons_self)]
    simp
  | @group _ op children two normal alternating ih =>
    rw [nodeContacts, nodesContacts_eq_flatMap] at h ⊢
    rw [bodyOfNode, NodeBody.validate_group_isSome, bodiesOfNodes_eq_map, List.length_map]
    have hchild : ∀ child ∈ children,
        (((bodyOfNode js child).validate py).isSome ↔
          ∀ c ∈ nodeContacts child, ContactFits js c) := by
      intro child hchild
      exact ih child hchild fun c hc => h c (List.mem_flatMap.mpr ⟨child, hchild, hc⟩)
    constructor
    · rintro ⟨-, hall⟩ c hc
      obtain ⟨child, hmem, hc⟩ := List.mem_flatMap.mp hc
      exact (hchild child hmem).mp (hall _ (List.mem_map_of_mem hmem)) c hc
    · intro hall
      refine ⟨two, ?_⟩
      intro body hbody
      obtain ⟨child, hmem, rfl⟩ := List.mem_map.mp hbody
      exact (hchild child hmem).mpr fun c hc => hall c (List.mem_flatMap.mpr ⟨child, hmem, hc⟩)

/-- **The condition of a draft** is accepted with its contacts. -/
theorem condition_isSome (laws : NumberLaws py) {node : Option (DraftNode F)}
    (h : ∀ c ∈ contacts node, ContactGiven py c) :
    (validateTree py (conditionFromNode js node)).isSome ↔
      ∀ c ∈ contacts node, ContactFits js c := by
  rw [validateTree_isSome]
  cases node with
  | none => simp [conditionFromNode, contacts]
  | some node =>
    have hcontacts := contacts_normalize node
    unfold conditionFromNode
    show (∀ tree ∈ (normalize node).map (bodyOfNode js), _) ↔ ∀ c ∈ nodeContacts node, _
    have h : ∀ c ∈ nodeContacts node, ContactGiven py c := h
    rw [← hcontacts] at h ⊢
    cases hn : normalize node with
    | none => simp [contacts]
    | some n =>
      rw [hn] at h
      have hbody : ((bodyOfNode js n).validate py).isSome ↔ _ :=
        bodyOfNode_isSome laws (normalize_normal node hn) h
      simpa [contacts] using hbody

/-! ## Actions -/

/-- The devices an action names. -/
def actionDevices (action : ActionDraft F) : List String :=
  match action with
  | .actuator a => [a.deviceId]
  | _ => []

/-- A command of the editor, on firing or on clearing. -/
theorem command_isSome {a : ActuatorActionDraft F} {value : CommandValue F}
    (hproblem : actionProblem js (.actuator a) = none)
    (hdevice : (py.parseUuid a.deviceId).isSome) :
    ((ActionBody.actuatorCommand (some a.deviceId) (jsTrim a.actuator) value).validate py).isSome ↔
      (jsTrim a.actuator).length ≤ 100 := by
  have hnamed : jsTrim a.actuator ≠ "" := by
    intro hempty
    simp [actionProblem, hempty] at hproblem
  rw [ActionBody.validate, ← lengthIn_iff hnamed]
  split
  · rename_i hlength
    rw [Option.isSome_map, optionalUuid, Option.isSome_map]
    exact iff_of_true hdevice hlength
  · rename_i hlength
    exact iff_of_false (by simp) hlength

theorem action_isSome {action : ActionDraft F} {body : ActionBody F}
    (hproblem : actionProblem js action = none)
    (hdevices : ∀ id ∈ actionDevices action, (py.parseUuid id).isSome)
    (hbody : actionToApi js action = some body) :
    (body.validate py).isSome ↔ ActionFits js action := by
  cases action with
  | actuator a =>
    cases hbody
    exact command_isSome hproblem (hdevices _ List.mem_cons_self)
  | notification message =>
    cases hbody
    have hmessage : jsTrim message ≠ "" := by
      intro hempty
      simp [actionProblem, hempty] at hproblem
    rw [ActionFits, ← lengthIn_iff hmessage, ActionBody.validate]
    split <;> simp_all
  | webhook url text =>
    obtain ⟨value, hvalue, rfl⟩ := Option.map_eq_some_iff.mp hbody
    have hurl : jsTrim url ≠ "" := by
      intro hempty
      simp [actionProblem, hempty] at hproblem
    rw [ActionFits, hvalue, ← lengthIn_iff hurl]
    unfold ActionBody.validate
    -- The API takes an object only.
    cases value with
    | obj members =>
      dsimp only
      split <;> simp_all
    | null => simp
    | bool b => simp
    | num n => simp
    | str s => simp
    | arr items => simp
  | email recipients subject text =>
    cases hbody
    unfold actionProblem at hproblem
    dsimp only at hproblem
    split at hproblem
    · cases hproblem
    · rename_i hshapes
      split at hproblem
      · rename_i htexts
        -- The editor has checked the shape; the API knows one more blank and bounds the length.
        have haddresses : (parseRecipients recipients).all isEmailAddress = true ↔
            ∀ r ∈ parseRecipients recipients, nextLine ∉ r.toList ∧ r.length ≤ 254 := by
          rw [List.all_eq_true]
          refine forall₂_congr fun r hr => ?_
          have hshape : emailShape isJsSpace r = true := by
            simpa using List.find?_eq_none.mp hshapes r hr
          rw [isEmailAddress, Bool.and_eq_true, decide_eq_true_eq,
            emailShape_isWhiteSpace (isJsSpace_of_mem_recipient hr) hshape]
        rw [ActionFits, ← haddresses, ← lengthIn_iff htexts.1, ← lengthIn_iff htexts.2,
          ActionBody.validate]
        split <;> simp_all
      · cases hproblem

theorem actionsToApi_isSome : ∀ {actions : List (ActionDraft F)} {bodies : List (ActionBody F)},
    (∀ action ∈ actions, actionProblem js action = none) →
    (∀ action ∈ actions, ∀ id ∈ actionDevices action, (py.parseUuid id).isSome) →
    actionsToApi js actions = some bodies →
    ((∀ body ∈ bodies, (body.validate py).isSome) ↔ ∀ action ∈ actions, ActionFits js action)
  | [], bodies, _, _, h => by
      cases h
      simp
  | action :: rest, bodies, hproblems, hdevices, h => by
      rw [actionsToApi] at h
      split at h
      · rename_i body bodies hbody hbodies
        cases h
        rw [List.forall_mem_cons, List.forall_mem_cons,
          action_isSome (hproblems _ List.mem_cons_self) (hdevices _ List.mem_cons_self) hbody,
          actionsToApi_isSome (fun a ha => hproblems a (List.mem_cons_of_mem _ ha))
            (fun a ha => hdevices a (List.mem_cons_of_mem _ ha)) hbodies]
      · cases h

omit [JsonNumber F] in
theorem actionsToApi_eq_nil {actions : List (ActionDraft F)} {bodies : List (ActionBody F)}
    (h : actionsToApi js actions = some bodies) : bodies = [] ↔ actions = [] := by
  cases actions with
  | nil =>
    cases h
    simp
  | cons action rest =>
    rw [actionsToApi] at h
    split at h
    · cases h
      simp
    · cases h

/-! ## The draft -/

/-- The device a rule watches. -/
def watchedDevices (w : WhenDraft) : List String :=
  if w.type = .deviceStatus then [w.statusDeviceId] else []

/-- Every device a draft names. -/
def draftDevices (draft : RuleDraft F) : List String :=
  (contacts draft.condition).flatMap contactDevices ++ draft.actions.flatMap actionDevices ++
    watchedDevices draft.trigger

/-- **What is given of a draft**: no number in it is negative, its devices have identifiers, and its
schedule is one. -/
structure DraftGiven (lib : Library F) (py : Pydantic F) (draft : RuleDraft F) : Prop where
  hold : PyFloat.le (JsonNumber.ofNat 0) draft.forDuration = true
  interval : PyFloat.le (JsonNumber.ofNat 0) draft.cooldown = true
  delay : PyFloat.le (JsonNumber.ofNat 0) draft.clearDelay = true
  margins : ∀ c ∈ contacts draft.condition, PyFloat.le (JsonNumber.ofNat 0) c.hysteresis = true
  devices : ∀ id ∈ draftDevices draft, (py.parseUuid id).isSome
  schedule : ∀ cron timezone, triggerToApi draft.trigger = .schedule cron timezone →
    lib.isValidCron cron = true ∧ lib.isZone timezone = true

/-- **What the API asks for**, of a draft without blocking issues. -/
structure Fits (py : Pydantic F) (js : Js F) (draft : RuleDraft F) : Prop where
  name : jsTrim draft.name ≠ ""
  cron : draft.trigger.type = .schedule → (jsTrim draft.trigger.cron).length ≤ 120
  /-- A group without a contact in it is sent as no condition. -/
  condition : isReadingRule draft = true → contacts draft.condition ≠ []
  contacts : ∀ c ∈ contacts draft.condition, ContactFits js c
  hold : isReadingRule draft = true → (py.asInt draft.forDuration).isSome
  interval : (py.asInt draft.cooldown).isSome
  delay : canClear draft = true → (py.asInt draft.clearDelay).isSome
  actions : ∀ action ∈ draft.actions, ActionFits js action
  clearMessage : canClear draft = true → draft.clearNotify = true →
    (jsTrim draft.clearMessage).length ≤ 1000
  /-- What is passed through was accepted before. -/
  resetTree : strategyFor draft = .latch ∨ strategyFor draft = .resetCondition →
    ∀ tree ∈ draft.preserved.resetCondition, ((nodeToBody tree).validate py).isSome
  preservedActions : ∀ action ∈ draft.preserved.actions, ((actionToBody action).validate py).isSome
  preservedClear : canClear draft = true →
    ∀ action ∈ draft.preserved.clearActions, ((actionToBody action).validate py).isSome

/-- **The API accepts a draft**: `validateDraft` has no problem with it, there is a request, it is
one for `POST /rules`, and the service has no objection. -/
def ApiAccepts (lib : Library F) (py : Pydantic F) (js : Js F) (draft : RuleDraft F) : Prop :=
  validateDraft js draft = none ∧
  ∃ body request, draftToRequest js draft = some body ∧ body.toCreate py = some request ∧
    validateTrigger lib request.trigger = .ok () ∧
    validateClearActions request.trigger request.clearActions = .ok () ∧
    validateLatch request.trigger request.executionPolicy request.clearActions = .ok ()

/-! ### The parts of a request -/

variable {lib : Library F}

theorem contactGiven (hgiven : DraftGiven lib py draft) (h : Unblocked js draft) :
    ∀ c ∈ contacts draft.condition, ContactGiven py c := by
  intro c hc
  refine ⟨h.contacts c hc, hgiven.margins c hc, ?_⟩
  intro id hid
  exact hgiven.devices id (List.mem_append_left _ (List.mem_append_left _
    (List.mem_flatMap.mpr ⟨c, hc, hid⟩)))

theorem actionDevices_given (hgiven : DraftGiven lib py draft) :
    ∀ action ∈ draft.actions, ∀ id ∈ actionDevices action, (py.parseUuid id).isSome := by
  intro action haction id hid
  exact hgiven.devices id (List.mem_append_left _ (List.mem_append_right _
    (List.mem_flatMap.mpr ⟨action, haction, hid⟩)))

theorem trigger_isSome (hgiven : DraftGiven lib py draft) (h : Unblocked js draft) :
    ((triggerToApi draft.trigger).validate py).isSome ↔
      (draft.trigger.type = .schedule → (jsTrim draft.trigger.cron).length ≤ 120) := by
  unfold triggerToApi
  cases htype : draft.trigger.type with
  | metric => simp [TriggerBody.validate]
  | manual => simp [TriggerBody.validate]
  | schedule =>
    dsimp only
    rw [TriggerBody.validate, ← lengthIn_iff (h.cron htype)]
    split <;> simp_all
  | deviceStatus =>
    have hdevice : (py.parseUuid draft.trigger.statusDeviceId).isSome :=
      hgiven.devices _ (List.mem_append_right _ (by simp [watchedDevices, htype]))
    simp [TriggerBody.validate, hdevice]

theorem wholeSeconds_isSome (laws : NumberLaws py) {n : F}
    (h : PyFloat.le (JsonNumber.ofNat 0) n = true) :
    (wholeSeconds py n).isSome ↔ (py.asInt n).isSome := by
  unfold wholeSeconds
  cases hn : py.asInt n with
  | none => simp
  | some i => simp [laws.asInt_nonneg n i hn h]

/-- A number that is sent as zero unless it applies. -/
theorem wholeSeconds_ite_isSome (laws : NumberLaws py) {applies : Bool} {n : F}
    (h : PyFloat.le (JsonNumber.ofNat 0) n = true) :
    (wholeSeconds py (if applies = true then n else JsonNumber.ofNat 0)).isSome ↔
      (applies = true → (py.asInt n).isSome) := by
  cases applies with
  | true => simp [wholeSeconds_isSome laws h]
  | false => simp [wholeSeconds_isSome laws laws.zero_le_zero, laws.asInt_zero]

theorem policy_isSome (laws : NumberLaws py) (hgiven : DraftGiven lib py draft) :
    ((policyToApi draft).validate py).isSome ↔
      (isReadingRule draft = true → (py.asInt draft.forDuration).isSome) ∧
      (py.asInt draft.cooldown).isSome ∧
      (strategyFor draft = .latch ∨ strategyFor draft = .resetCondition →
        ∀ tree ∈ draft.preserved.resetCondition, ((nodeToBody tree).validate py).isSome) ∧
      (canClear draft = true → (py.asInt draft.clearDelay).isSome) := by
  have htree : (validateTree py (policyToApi draft).resetCondition).isSome ↔
      (strategyFor draft = .latch ∨ strategyFor draft = .resetCondition →
        ∀ tree ∈ draft.preserved.resetCondition, ((nodeToBody tree).validate py).isSome) := by
    rw [validateTree_isSome]
    unfold policyToApi
    dsimp only
    split
    · rename_i hkept
      simp [hkept]
    · rename_i hdropped
      simp [hdropped]
  rw [PolicyBody.validate_isSome, htree]
  exact and_congr (wholeSeconds_ite_isSome laws hgiven.hold)
    (and_congr (wholeSeconds_isSome laws hgiven.interval)
      (and_congr Iff.rfl (wholeSeconds_ite_isSome laws hgiven.delay)))

/-- The clear actions of a draft, given its actions. -/
theorem clearActions_isSome (hgiven : DraftGiven lib py draft) (h : Unblocked js draft)
    (hactions : ∀ action ∈ draft.actions, ActionFits js action) :
    (∀ body ∈ clearActionsToApi draft, (body.validate py).isSome) ↔
      (canClear draft = true → draft.clearNotify = true →
        (jsTrim draft.clearMessage).length ≤ 1000) ∧
      (canClear draft = true →
        ∀ action ∈ draft.preserved.clearActions, ((actionToBody action).validate py).isSome) := by
  unfold clearActionsToApi
  cases hclear : canClear draft with
  | false => simp
  | true =>
    -- a command that reverts is as long as the command
    have hrevert : ∀ body ∈ draft.actions.filterMap revertAction, (body.validate py).isSome := by
      intro body hbody
      obtain ⟨action, haction, hsome⟩ := List.mem_filterMap.mp hbody
      cases action with
      | actuator a =>
        rw [revertAction] at hsome
        split at hsome
        · cases hsome
          exact (command_isSome (h.actions _ haction)
            (actionDevices_given hgiven _ haction _ List.mem_cons_self)).mpr (hactions _ haction)
        · cases hsome
      | email recipients subject text => cases hsome
      | webhook url text => cases hsome
      | notification message => cases hsome
    have hmessage : (∀ body ∈ clearNotification draft.clearNotify draft.clearMessage,
        (ActionBody.validate py body).isSome) ↔
        (draft.clearNotify = true → (jsTrim draft.clearMessage).length ≤ 1000) := by
      unfold clearNotification
      cases hnotify : draft.clearNotify with
      | false => simp
      | true =>
        have hne := h.clearMessage hclear hnotify
        rw [if_pos ⟨rfl, hne⟩, List.forall_mem_singleton, ActionBody.validate, ← lengthIn_iff hne]
        split <;> simp_all
    rw [if_pos rfl, List.forall_mem_append, List.forall_mem_append, hmessage, List.forall_mem_map]
    constructor
    · rintro ⟨⟨-, hfits⟩, hpreserved⟩
      exact ⟨fun _ => hfits, fun _ => hpreserved⟩
    · rintro ⟨hfits, hpreserved⟩
      exact ⟨⟨hrevert, hfits rfl⟩, hpreserved rfl⟩

/-! ### The service -/

omit [JsonNumber F] in
theorem trigger_metric {trigger : Trigger} (hreading : isReadingRule draft = true)
    (h : (triggerToApi draft.trigger).validate py = some trigger) : trigger = .metric := by
  have htype : draft.trigger.type = .metric := by simpa [isReadingRule] using hreading
  rw [triggerToApi, htype] at h
  exact (Option.some.inj h).symm

omit [JsonNumber F] in
theorem clearActionsToApi_eq_nil (h : canClear draft = false) :
    clearActionsToApi draft = [] := by
  unfold clearActionsToApi
  simp [h]

omit [JsonNumber F] in
/-- A rule that clears is a reading rule, and its strategy is edge. -/
theorem canClear_strategy (h : canClear draft = true) :
    isReadingRule draft = true ∧ strategyFor draft = .edge := by
  unfold canClear at h
  rw [Bool.and_eq_true, decide_eq_true_eq] at h
  refine ⟨h.1, ?_⟩
  simp [strategyFor, h.1, h.2]

/-- **The service has no objection of its own** to what the schemas accept of a draft. -/
theorem service_ok {body : RuleBody F} {request : RuleCreateRequest F}
    (hgiven : DraftGiven lib py draft) (hbody : draftToRequest js draft = some body)
    (hrequest : body.toCreate py = some request) :
    validateTrigger lib request.trigger = .ok () ∧
    validateClearActions request.trigger request.clearActions = .ok () ∧
    validateLatch request.trigger request.executionPolicy request.clearActions = .ok () := by
  obtain ⟨actions, -, rfl⟩ := Option.map_eq_some_iff.mp hbody
  obtain ⟨name, -, -, htrigger, -, hpolicy, -, hclear, -, -⟩ := RuleBody.toCreate_ok hrequest
  dsimp only at htrigger hclear
  have hnone : canClear draft = false → request.clearActions = [] := by
    intro hcannot
    exact (validateActions_eq_nil hclear).mpr (clearActionsToApi_eq_nil hcannot)
  refine ⟨?_, ?_, ?_⟩
  · cases hsent : triggerToApi draft.trigger with
    | metric =>
      rw [hsent] at htrigger
      rw [← Option.some.inj htrigger]
      rfl
    | manual =>
      rw [hsent] at htrigger
      rw [← Option.some.inj htrigger]
      rfl
    | deviceStatus deviceId transition =>
      rw [hsent] at htrigger
      obtain ⟨id, -, heq⟩ := Option.map_eq_some_iff.mp htrigger
      rw [← heq]
      rfl
    | schedule cron timezone =>
      obtain ⟨hcron, hzone⟩ := hgiven.schedule cron timezone hsent
      rw [hsent, TriggerBody.validate] at htrigger
      split at htrigger
      · rw [← Option.some.inj htrigger]
        simp [validateTrigger, hcron, hzone]
      · cases htrigger
  · unfold validateClearActions
    cases hcan : canClear draft with
    | true => simp [trigger_metric (canClear_strategy hcan).1 htrigger]
    | false => simp [hnone hcan]
  · unfold validateLatch
    have hstrategy : request.executionPolicy.strategy = strategyFor draft :=
      PolicyBody.validate_strategy hpolicy
    rw [hstrategy]
    by_cases hlatch : strategyFor draft = .latch
    · have hreading : isReadingRule draft = true := by
        cases hreading : isReadingRule draft with
        | true => rfl
        | false => simp [strategyFor, hreading] at hlatch
      have hcannot : canClear draft = false := by
        cases hcan : canClear draft with
        | false => rfl
        | true =>
          rw [(canClear_strategy hcan).2] at hlatch
          cases hlatch
      simp [hlatch, trigger_metric hreading htrigger, hnone hcannot]
    · simp [hlatch]

/-! ### Both ways -/

omit [JsonNumber F] in
theorem name_accepted (h : Unblocked js draft) :
    (if jsTrim draft.name = "" then none else some (jsTrim draft.name)).any (lengthIn 1 200) =
      true ↔ jsTrim draft.name ≠ "" := by
  split
  · rename_i hempty
    simp [hempty]
  · rename_i hne
    rw [Option.any_some, lengthIn_iff hne]
    exact iff_of_true (Nat.le_trans (length_le_jsLength _) h.name) hne

omit [JsonNumber F] in
theorem triggerToApi_metric :
    triggerToApi draft.trigger = .metric ↔ isReadingRule draft = true := by
  unfold triggerToApi isReadingRule
  cases draft.trigger.type <;> simp

/-- The schemas, of a draft without blocking issues. -/
theorem toCreate_isSome_iff_fits (laws : NumberLaws py) {body : RuleBody F}
    (hgiven : DraftGiven lib py draft) (h : Unblocked js draft)
    (hbody : draftToRequest js draft = some body) :
    (body.toCreate py).isSome ↔ Fits py js draft := by
  obtain ⟨actions, hactions, rfl⟩ := Option.map_eq_some_iff.mp hbody
  rw [RuleBody.toCreate_isSome]
  dsimp only
  have hsome : actions ++ draft.preserved.actions.map actionToBody ≠ [] := by
    intro hnil
    obtain ⟨hnone, hpreserved⟩ := List.append_eq_nil_iff.mp hnil
    refine h.someAction ⟨?_, ?_⟩
    · rw [(actionsToApi_eq_nil hactions).mp hnone]
      rfl
    · rw [List.map_eq_nil_iff.mp hpreserved]
      rfl
  have hall : (∀ body ∈ actions, (body.validate py).isSome) ↔ _ :=
    actionsToApi_isSome h.actions (actionDevices_given hgiven) hactions
  rw [name_accepted h, trigger_isSome hgiven h, condition_isSome laws (contactGiven hgiven h),
    policy_isSome laws hgiven, validateActions_isSome, validateActions_isSome,
    List.forall_mem_append, hall, List.forall_mem_map, conditionFromNode_eq_none]
  constructor
  · rintro ⟨hname, hcron, hcontacts, ⟨hhold, hinterval, htree, hdelay⟩, ⟨hfits, hpreserved⟩, hclear,
      -, hcondition⟩
    obtain ⟨hmessage, hkept⟩ := (clearActions_isSome hgiven h hfits).mp hclear
    exact ⟨hname, hcron, fun hreading hnone => hcondition hnone (triggerToApi_metric.mpr hreading),
      hcontacts, hhold, hinterval, hdelay, hfits, hmessage, htree, hpreserved, hkept⟩
  · intro hfits
    exact ⟨hfits.name, hfits.cron, hfits.contacts,
      ⟨hfits.hold, hfits.interval, hfits.resetTree, hfits.delay⟩,
      ⟨hfits.actions, hfits.preservedActions⟩,
      (clearActions_isSome hgiven h hfits.actions).mpr ⟨hfits.clearMessage, hfits.preservedClear⟩,
      hsome, fun hnone hmetric => hfits.condition (triggerToApi_metric.mp hmetric) hnone⟩

/-- **When the API accepts what the editor accepts.** For every draft the save gate lets through:
exactly when it fits. -/
theorem apiAccepts_iff (laws : NumberLaws py) (lib : Library F) (js : Js F) (draft : RuleDraft F)
    (hgiven : DraftGiven lib py draft) (hgate : blockingIssues js draft = []) :
    ApiAccepts lib py js draft ↔ Fits py js draft := by
  have h := unblocked hgate
  obtain ⟨actions, hactions⟩ := actionsToApi_of_problem h.actions
  constructor
  · rintro ⟨-, body, request, hbody, hrequest, -⟩
    exact (toCreate_isSome_iff_fits laws hgiven h hbody).mp (by rw [hrequest]; rfl)
  · intro hfits
    refine ⟨validateDraft_of_unblocked h, ?_⟩
    cases hbody : draftToRequest js draft with
    | none => simp [draftToRequest, hactions] at hbody
    | some body =>
      obtain ⟨request, hrequest⟩ :=
        Option.isSome_iff_exists.mp ((toCreate_isSome_iff_fits laws hgiven h hbody).mpr hfits)
      exact ⟨body, request, rfl, hrequest, service_ok hgiven hbody hrequest⟩

/-! ## A set without a number, a body without an object, half a second -/

/-- JavaScript, on the texts below. -/
def frostJs (twenty : F) : Js F where
  parseNumber := fun text => if text = "20" then .finite twenty else .nan
  showNumber := fun _ => "20"
  parseJson := fun text =>
    if text = "{}" then some (.obj []) else if text = "[]" then some (.arr []) else none
  stringify := fun _ => "{}"

/-- A set as condition and a webhook as action, with a hold of so many seconds. -/
def frostDraft (hold : F) (setText body : String) : RuleDraft F :=
  { name := "Frost"
    enabled := true
    trigger := ⟨.metric, "0 8 * * *", "UTC", "", .disconnected⟩
    condition := some (.contact
      { deviceId := "ours"
        metric := "temperature"
        operator := .set .isIn
        hysteresis := JsonNumber.ofNat 1
        rhsKind := .static
        value := JsonNumber.ofNat 0
        low := JsonNumber.ofNat 0
        high := JsonNumber.ofNat 0
        setText := setText
        rhsDeviceId := ""
        rhsMetric := "" })
    behaviour := .rearm
    forDuration := hold
    cooldown := JsonNumber.ofNat 60
    clearDelay := JsonNumber.ofNat 0
    actions := [.webhook "https://example.test/frost" body]
    clearNotify := false
    clearMessage := ""
    preserved := {} }

def wholeLibrary : Library F where
  isValidCron := fun _ => true
  isZone := fun _ => true
  repr := fun s => s
  showFloat := fun _ => ""
  upper := fun c => String.ofList [c]

/-- pydantic over the rationals. -/
def rationalPydantic : Pydantic Rat where
  parseUuid := fun text => if text = "" then none else some text
  asInt := fun n => if n.den = 1 then some n.num else none

theorem rational_laws : NumberLaws rationalPydantic where
  zero_le_zero := by decide
  not_zero_lt_zero := by decide
  asInt_zero := by decide
  asInt_nonneg := by
    intro n i hn hle
    unfold rationalPydantic at hn
    dsimp only at hn
    split at hn
    · rw [← Option.some.inj hn]
      exact Rat.num_nonneg.mpr (of_decide_eq_true hle)
    · cases hn

theorem frostDraft_given {hold : Rat} {setText body : String} (h : 0 ≤ hold) :
    DraftGiven wholeLibrary rationalPydantic (frostDraft hold setText body) where
  hold := decide_eq_true h
  interval := rfl
  delay := rfl
  margins := by
    intro c hc
    cases List.mem_singleton.mp hc
    rfl
  devices := by
    intro id hid
    cases List.mem_singleton.mp hid
    rfl
  schedule := by
    intro cron timezone h
    cases h

/-- With a number, an object and whole seconds. -/
theorem apiAccepts_iff_frost :
    ApiAccepts wholeLibrary rationalPydantic (frostJs 20) (frostDraft 10 "20" "{}") := by
  refine (apiAccepts_iff rational_laws wholeLibrary (frostJs 20) (frostDraft 10 "20" "{}")
    (frostDraft_given (by decide)) (by decide)).mpr ?_
  have hnumbers : setNumbers (frostJs (20 : Rat)) "20" = [.finite 20] := rfl
  refine ⟨by decide, ?_, ?_, ?_, fun _ => rfl, rfl, fun _ => rfl, ?_, ?_, ?_, ?_, ?_⟩
  · intro hschedule
    cases hschedule
  · intro _ hnone
    cases hnone
  · intro c hc
    cases List.mem_singleton.mp hc
    refine ⟨by decide, ?_⟩
    show (∃ value, _ ∈ setNumbers (frostJs (20 : Rat)) "20") ∧ _ ∉ setNumbers (frostJs 20) "20"
    rw [hnumbers]
    exact ⟨⟨20, List.mem_singleton.mpr rfl⟩, by simp⟩
  · intro action haction
    cases List.mem_singleton.mp haction
    exact ⟨by decide, [], rfl⟩
  · intro _ hnotify
    cases hnotify
  · intro _ tree htree
    cases htree
  · intro action haction
    cases haction
  · intro _ action haction
    cases haction

/-- 2.5, which a number input takes. -/
def twoAndAHalf : Rat := ⟨5, 2, by decide, by decide⟩

/-- Saved by the editor, refused by the API. -/
def SavedAndRefused (draft : RuleDraft Rat) : Prop :=
  DraftGiven wholeLibrary rationalPydantic draft ∧ blockingIssues (frostJs 20) draft = [] ∧
    ¬ ApiAccepts wholeLibrary rationalPydantic (frostJs 20) draft

/-- **Three rules the editor saves and the API refuses.** -/
theorem gate_open_api_shut :
    SavedAndRefused (frostDraft 10 "warm" "{}") ∧ SavedAndRefused (frostDraft 10 "20" "[]") ∧
      SavedAndRefused (frostDraft twoAndAHalf "20" "{}") := by
  refine ⟨?_, ?_, ?_⟩
  · refine ⟨frostDraft_given (by decide), by decide, ?_⟩
    rintro ⟨-, body, request, hbody, hrequest, -⟩
    cases hbody
    cases hrequest
  · refine ⟨frostDraft_given (by decide), by decide, ?_⟩
    rintro ⟨-, body, request, hbody, hrequest, -⟩
    cases hbody
    cases hrequest
  · refine ⟨frostDraft_given (by decide), by decide, ?_⟩
    rintro ⟨-, body, request, hbody, hrequest, -⟩
    cases hbody
    cases hrequest

end IotSaas.Editor
