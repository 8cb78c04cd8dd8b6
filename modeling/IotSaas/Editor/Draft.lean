import IotSaas.Api.Service
import IotSaas.Editor.Tree
import IotSaas.Lib.Text
import Mathlib.Algebra.GroupWithZero.Nat

/-!
# `Editor/Draft.lean` — the rule editor's draft

`lib/rule-draft.ts`, and the save gate of `lib/rule-preview.ts`: how a rule becomes a draft, a draft
a request, and what stops a save. A draft's texts are what stands in the input fields, so a device
not chosen yet is the empty text; its numbers are what a number input gives. Element ids and the
tree editing are left out: nothing on the way to a request reads them.

JavaScript's number and JSON conversions are parameters (`Js`). Its `trim()` and `\s` have their
own idea of a space, which is not quite pydantic's (`isJsSpace`, `isWhiteSpace`).
-/

set_option autoImplicit false

namespace IotSaas.Editor

open Lib Rules Api

variable {F : Type}

/-! ## JavaScript -/

/-- What `Number(text)` gives. -/
inductive JsNumber (F : Type) where
  | finite (value : F)
  | infinite
  | nan

/-- `Number(text)`, `String(number)`, `JSON.parse` (`none` when it throws) and
`JSON.stringify(value, null, 2)`. -/
structure Js (F : Type) where
  parseNumber : String → JsNumber F
  showNumber : F → String
  parseJson : String → Option (Json F)
  stringify : Json F → String

/-- `\s`, and what `trim()` drops. -/
def isJsSpace (c : Char) : Bool :=
  let n := c.toNat
  (decide (9 ≤ n) && decide (n ≤ 13)) || n = 0x20 || n = 0xA0 || n = 0x1680 ||
    (decide (0x2000 ≤ n) && decide (n ≤ 0x200A)) || n = 0x2028 || n = 0x2029 || n = 0x202F ||
    n = 0x205F || n = 0x3000 || n = 0xFEFF

/-- `text.trim()`. -/
def jsTrim (s : String) : String := String.ofList (trim isJsSpace s.toList)

/-- `text.length`, in UTF-16 units. -/
def jsLength (s : String) : Nat :=
  (s.toList.map fun c => if 0x10000 ≤ c.toNat then 2 else 1).sum

/-- `text.split(sep)` with the empty pieces dropped, `sep` a class of characters. -/
def pieces (sep : Char → Bool) (s : String) : List String :=
  ((s.toList.splitOnP sep).map String.ofList).filter fun piece => piece ≠ ""

/-! ## The draft -/

inductive TriggerType where
  | metric | schedule | manual | deviceStatus
  deriving DecidableEq

inductive ValueKind where
  | boolean | number | text
  deriving DecidableEq

inductive RhsKind where
  | static | metric
  deriving DecidableEq

/-- `other` is a strategy the editor does not offer, kept as it is. -/
inductive Behaviour where
  | rearm | latch | other
  deriving DecidableEq

structure WhenDraft where
  type : TriggerType
  cron : String
  timezone : String
  statusDeviceId : String
  transition : Transition

/-- One condition leaf. Only the right-hand fields that go with the operator are read. -/
structure ContactDraft (F : Type) where
  deviceId : String
  metric : String
  operator : Operator
  hysteresis : F
  rhsKind : RhsKind
  value : F
  low : F
  high : F
  setText : String
  rhsDeviceId : String
  rhsMetric : String

/-- `DraftNode` without the ids. -/
abbrev DraftNode (F : Type) := Tree Unit (ContactDraft F)

structure ActuatorActionDraft (F : Type) where
  deviceId : String
  actuator : String
  valueKind : ValueKind
  bool : Bool
  num : F
  text : String
  revertOnClear : Bool
  /-- `none` is the opposite of `bool`. -/
  clearBool : Option Bool
  clearNum : F
  clearText : String

inductive ActionDraft (F : Type) where
  | actuator (action : ActuatorActionDraft F)
  | email (recipients subject body : String)
  | webhook (url body : String)
  | notification (message : String)

/-- What the editor has no field for and passes through. -/
structure Preserved (F : Type) where
  strategy : Option RuleStrategy := none
  resetCondition : Option (Api.ConditionNode F) := none
  clearActions : List (Action F) := []
  actions : List (Action F) := []

structure RuleDraft (F : Type) where
  name : String
  enabled : Bool
  trigger : WhenDraft
  condition : Option (DraftNode F)
  behaviour : Behaviour
  forDuration : F
  cooldown : F
  clearDelay : F
  actions : List (ActionDraft F)
  clearNotify : Bool
  clearMessage : String
  preserved : Preserved F

/-- `isReadingRule`. -/
def isReadingRule (draft : RuleDraft F) : Bool := draft.trigger.type = .metric

/-- `canClear`. -/
def canClear (draft : RuleDraft F) : Bool := isReadingRule draft && draft.behaviour = .rearm

section

variable [JsonNumber F]

/-! ## From the API -/

/-- `str(device_id)`. -/
def deviceText (deviceId : Option Uuid) : String := deviceId.getD ""

/-- `contactFromLeaf`, over the fields of `emptyContact`. -/
def contactFromLeaf (js : Js F) (leaf : Api.ConditionLeaf F) : ContactDraft F :=
  let base : ContactDraft F :=
    { deviceId := deviceText leaf.deviceId
      metric := leaf.metric
      operator := testOperator leaf.test
      hysteresis := JsonNumber.ofNat 0
      rhsKind := .static
      value := JsonNumber.ofNat 0
      low := JsonNumber.ofNat 0
      high := JsonNumber.ofNat 0
      setText := ""
      rhsDeviceId := ""
      rhsMetric := "" }
  match leaf.test with
  | .change _ => base
  | .range _ low high => { base with low := low, high := high }
  | .set _ values => { base with setText := ", ".intercalate (values.map js.showNumber) }
  | .compare _ (.metric deviceId metric) hysteresis =>
      { base with
        hysteresis := hysteresis
        rhsKind := .metric
        rhsDeviceId := deviceId
        rhsMetric := metric }
  | .compare _ (.static value) hysteresis =>
      { base with hysteresis := hysteresis, value := value }

mutual

/-- `nodeFromCondition`. -/
def nodeFromCondition (js : Js F) : Api.ConditionNode F → DraftNode F
  | .leaf l => .contact (contactFromLeaf js l)
  | .group op predicates => .group () op (nodesFromConditions js predicates)

def nodesFromConditions (js : Js F) : List (Api.ConditionNode F) → List (DraftNode F)
  | [] => []
  | node :: rest => nodeFromCondition js node :: nodesFromConditions js rest

end

/-- An actuator action of the editor that does not revert. -/
def actuatorFromApi (deviceId : Option Uuid) (actuator : String) (value : CommandValue F) :
    ActuatorActionDraft F :=
  { deviceId := deviceText deviceId
    actuator := actuator
    valueKind := match value with
      | .float _ => .number
      | .str _ => .text
      | .bool _ => .boolean
    bool := match value with
      | .bool b => b
      | _ => true
    num := match value with
      | .float f => f
      | _ => JsonNumber.ofNat 0
    text := match value with
      | .str s => s
      | _ => ""
    revertOnClear := false
    clearBool := none
    clearNum := JsonNumber.ofNat 0
    clearText := "" }

/-- `actionFromApi`, with the loop around it: a notification that is also mailed becomes two
actions. -/
def actionFromApi (js : Js F) (ruleName : String) (action : Action F) : List (ActionDraft F) :=
  match action with
  | .actuatorCommand deviceId actuator value =>
      [.actuator (actuatorFromApi deviceId actuator value)]
  | .email recipients subject body => [.email (", ".intercalate recipients) subject body]
  | .webhook config => [.webhook config.url (js.stringify (.obj config.body))]
  | .notification message channels =>
      .notification message ::
        if channels.contains .email then [.email "" ("[" ++ ruleName ++ "] alert") message] else []

/-- An action that sends `value` back on clear. -/
def turnBack (a : ActuatorActionDraft F) (value : CommandValue F) : ActuatorActionDraft F :=
  match value with
  | .bool b => { a with revertOnClear := true, clearBool := some b }
  | .float f => { a with revertOnClear := true, clearNum := f }
  | .str s => { a with revertOnClear := true, clearText := s }

/-- The actuator action a clear command turns back: the first one with its device and actuator that
does not revert yet. -/
def adoptClear (deviceId : Option Uuid) (actuator : String) (value : CommandValue F) :
    List (ActionDraft F) → Option (List (ActionDraft F))
  | [] => none
  | .actuator a :: rest =>
      if a.revertOnClear = false ∧ a.actuator = actuator ∧ a.deviceId = deviceText deviceId then
        some (.actuator (turnBack a value) :: rest)
      else (adoptClear deviceId actuator value rest).map (.actuator a :: ·)
  | other :: rest => (adoptClear deviceId actuator value rest).map (other :: ·)

/-- Where the clear actions go. -/
structure ClearFold (F : Type) where
  actions : List (ActionDraft F)
  clearNotify : Bool := false
  clearMessage : String := ""
  preserved : List (Action F) := []

/-- One turn of the loop over `clear_actions`. -/
def foldClear (fold : ClearFold F) (action : Action F) : ClearFold F :=
  match action with
  | .actuatorCommand deviceId actuator value =>
      match adoptClear deviceId actuator value fold.actions with
      | some actions => { fold with actions := actions }
      | none => { fold with preserved := fold.preserved ++ [action] }
  | .notification message channels =>
      if fold.clearNotify = false ∧ channels.contains .email = false then
        { fold with clearNotify := true, clearMessage := message }
      else { fold with preserved := fold.preserved ++ [action] }
  | .webhook _ | .email _ _ _ => { fold with preserved := fold.preserved ++ [action] }

/-- The trigger's fields, and defaults for those it has not. -/
def whenFromTrigger (trigger : Trigger) : WhenDraft :=
  match trigger with
  | .metric => ⟨.metric, "0 8 * * *", "UTC", "", .disconnected⟩
  | .schedule cron timezone => ⟨.schedule, cron, timezone, "", .disconnected⟩
  | .manual => ⟨.manual, "0 8 * * *", "UTC", "", .disconnected⟩
  | .deviceStatus deviceId transition => ⟨.deviceStatus, "0 8 * * *", "UTC", deviceId, transition⟩

/-- `draftFromRule`. -/
def draftFromRule (js : Js F) (rule : StoredRule F) : RuleDraft F :=
  let policy := rule.executionPolicy
  let folded := rule.clearActions.foldl foldClear
    { actions := rule.actions.flatMap (actionFromApi js rule.name) }
  { name := rule.name
    enabled := rule.enabled
    trigger := whenFromTrigger rule.trigger
    condition := rule.condition.map (nodeFromCondition js)
    behaviour := match policy.strategy with
      | .edge => .rearm
      | .latch => .latch
      | .continuous | .resetCondition => .other
    forDuration := JsonNumber.ofNat policy.forDuration
    cooldown := JsonNumber.ofNat policy.cooldown
    clearDelay := JsonNumber.ofNat policy.clearForDuration
    actions := folded.actions
    clearNotify := folded.clearNotify
    clearMessage := folded.clearMessage
    preserved :=
      { strategy := some policy.strategy
        resetCondition := policy.resetCondition
        clearActions := folded.preserved } }

/-! ## To the API -/

/-- A number of a set as it is sent: none for `NaN`, and `null` for an infinite one. -/
def sentNumber (number : JsNumber F) : Option (Option F) :=
  match number with
  | .finite value => some (some value)
  | .infinite => some none
  | .nan => none

/-- The numbers of a set's text. -/
def setNumbers (js : Js F) (text : String) : List (JsNumber F) :=
  (((text.toList.splitOn ',').map fun piece => jsTrim (String.ofList piece)).filter fun piece =>
    piece ≠ "").map js.parseNumber

/-- `OPERATOR_ARITY` and `buildRhs`. -/
def buildRhs (js : Js F) (c : ContactDraft F) : Option (RhsSpec F) :=
  match c.operator with
  | .change _ => none
  | .range _ => some (.range c.low c.high)
  | .set _ => some (.set ((setNumbers js c.setText).filterMap sentNumber))
  | .comparison _ =>
      match c.rhsKind with
      | .metric => some (.metric c.rhsDeviceId c.rhsMetric)
      | .static => some (.static c.value)

/-- `leafFromContact`; `HYSTERESIS_OPERATORS` are the API's. -/
def leafFromContact (js : Js F) (c : ContactDraft F) : LeafBody F :=
  { deviceId := some c.deviceId
    metric := c.metric
    operator := c.operator
    rhs := buildRhs js c
    hysteresis := if c.operator.hasHysteresis then c.hysteresis else JsonNumber.ofNat 0 }

end

section

variable [JsonNumber F]

mutual

/-- A normalized tree as the API has it. -/
def bodyOfNode (js : Js F) : DraftNode F → NodeBody F
  | .contact c => .leaf (leafFromContact js c)
  | .group _ op children => .group op (bodiesOfNodes js children)

def bodiesOfNodes (js : Js F) : List (DraftNode F) → List (NodeBody F)
  | [] => []
  | child :: rest => bodyOfNode js child :: bodiesOfNodes js rest

end

/-- `conditionFromNode`. The source normalizes the children of a normalized group once more, which
changes nothing (`normalize_of_normal`). -/
def conditionFromNode (js : Js F) (node : Option (DraftNode F)) : Option (NodeBody F) :=
  (node.bind normalize).map (bodyOfNode js)

/-- A draft sends no condition where it has no contact. -/
theorem conditionFromNode_eq_none {js : Js F} {node : Option (DraftNode F)} :
    conditionFromNode js node = none ↔ contacts node = [] := by
  unfold conditionFromNode
  cases node with
  | none => simp [contacts]
  | some node =>
    rw [Option.map_eq_none_iff]
    exact normalize_eq_none

def actuatorValue (a : ActuatorActionDraft F) : CommandValue F :=
  match a.valueKind with
  | .boolean => .bool a.bool
  | .number => .float a.num
  | .text => .str a.text

def actuatorClearValue (a : ActuatorActionDraft F) : CommandValue F :=
  match a.valueKind with
  | .boolean => .bool (a.clearBool.getD !a.bool)
  | .number => .float a.clearNum
  | .text => .str a.clearText

/-- `parseRecipients`. -/
def parseRecipients (recipients : String) : List String :=
  pieces (fun c => c = ',' || c = ';' || isJsSpace c) recipients

/-- `a.body.trim() || "{}"`. -/
def webhookText (body : String) : String := if jsTrim body = "" then "{}" else jsTrim body

/-- `actionToApi`; `none` where `JSON.parse` throws. -/
def actionToApi (js : Js F) (action : ActionDraft F) : Option (ActionBody F) :=
  match action with
  | .actuator a =>
      some (.actuatorCommand (some a.deviceId) (jsTrim a.actuator) (actuatorValue a))
  | .email recipients subject body =>
      some (.email (parseRecipients recipients) (jsTrim subject) (jsTrim body))
  | .webhook url body =>
      (js.parseJson (webhookText body)).map fun body => .webhook (jsTrim url) body none none
  | .notification message => some (.notification (jsTrim message) [.platform])

/-- All of them, or none where one throws. -/
def actionsToApi (js : Js F) : List (ActionDraft F) → Option (List (ActionBody F))
  | [] => some []
  | action :: rest =>
      match actionToApi js action, actionsToApi js rest with
      | some action, some rest => some (action :: rest)
      | _, _ => none

/-- A leaf as the API prints it. -/
def leafToBody (leaf : Api.ConditionLeaf F) : LeafBody F :=
  { deviceId := leaf.deviceId
    metric := leaf.metric
    operator := testOperator leaf.test
    rhs := match leaf.test with
      | .change _ => none
      | .range _ low high => some (.range low high)
      | .set _ values => some (.set (values.map some))
      | .compare _ (.metric deviceId metric) _ => some (.metric deviceId metric)
      | .compare _ (.static value) _ => some (.static value)
    hysteresis := match leaf.test with
      | .compare _ _ hysteresis => hysteresis
      | _ => JsonNumber.ofNat 0 }

mutual

/-- A stored tree as the API prints it. -/
def nodeToBody : Api.ConditionNode F → NodeBody F
  | .leaf l => .leaf (leafToBody l)
  | .group op predicates => .group op (nodesToBodies predicates)

def nodesToBodies : List (Api.ConditionNode F) → List (NodeBody F)
  | [] => []
  | node :: rest => nodeToBody node :: nodesToBodies rest

end

/-- A stored action as the API prints it. -/
def actionToBody (action : Action F) : ActionBody F :=
  match action with
  | .actuatorCommand deviceId actuator value => .actuatorCommand deviceId actuator value
  | .notification message channels => .notification message channels
  | .webhook config => .webhook config.url (.obj config.body) config.retry config.timeoutS
  | .email recipients subject body => .email recipients subject body

def strategyFor (draft : RuleDraft F) : RuleStrategy :=
  if isReadingRule draft = false then .edge
  else
    match draft.behaviour with
    | .latch => .latch
    | .other => draft.preserved.strategy.getD .edge
    | .rearm => .edge

/-- The trigger of the request. -/
def triggerToApi (w : WhenDraft) : TriggerBody :=
  match w.type with
  | .schedule =>
      .schedule (jsTrim w.cron) (if jsTrim w.timezone = "" then "UTC" else jsTrim w.timezone)
  | .deviceStatus => .deviceStatus w.statusDeviceId w.transition
  | .metric => .metric
  | .manual => .manual

/-- The clear command of an action that reverts. -/
def revertAction (action : ActionDraft F) : Option (ActionBody F) :=
  match action with
  | .actuator a =>
      if a.revertOnClear then
        some (.actuatorCommand (some a.deviceId) (jsTrim a.actuator) (actuatorClearValue a))
      else none
  | _ => none

/-- The clear notification, where there is one with a text. -/
def clearNotification (clearNotify : Bool) (clearMessage : String) : List (ActionBody F) :=
  if clearNotify = true ∧ jsTrim clearMessage ≠ "" then
    [.notification (jsTrim clearMessage) [.platform]]
  else []

/-- The clear actions of the request. -/
def clearActionsToApi (draft : RuleDraft F) : List (ActionBody F) :=
  if canClear draft then
    draft.actions.filterMap revertAction ++
      clearNotification draft.clearNotify draft.clearMessage ++
      draft.preserved.clearActions.map actionToBody
  else []

/-- The policy of the request: an event has no duration to hold across. -/
def policyToApi (draft : RuleDraft F) : PolicyBody F :=
  let strategy := strategyFor draft
  { strategy := strategy
    forDuration := if isReadingRule draft then draft.forDuration else JsonNumber.ofNat 0
    cooldown := draft.cooldown
    clearForDuration := if canClear draft then draft.clearDelay else JsonNumber.ofNat 0
    resetCondition :=
      if strategy = .latch ∨ strategy = .resetCondition then
        draft.preserved.resetCondition.map nodeToBody
      else none }

/-- `draftToRequest`; `none` where it throws. -/
def draftToRequest (js : Js F) (draft : RuleDraft F) : Option (RuleBody F) :=
  (actionsToApi js draft.actions).map fun actions =>
    { name := if jsTrim draft.name = "" then none else some (jsTrim draft.name)
      trigger := triggerToApi draft.trigger
      condition := conditionFromNode js draft.condition
      executionPolicy := policyToApi draft
      actions := actions ++ draft.preserved.actions.map actionToBody
      clearActions := clearActionsToApi draft
      enabled := draft.enabled }

end

/-! ## Validation -/

/-- Whether the operator takes one value. -/
def takesOne (operator : Operator) : Bool :=
  match operator with
  | .comparison _ => true
  | _ => false

def contactProblem (c : ContactDraft F) : Option String :=
  if c.deviceId = "" ∨ jsTrim c.metric = "" then
    some "Every condition needs a device and a metric."
  else if c.rhsKind = .metric ∧ takesOne c.operator = true ∧
      (c.rhsDeviceId = "" ∨ c.rhsMetric = "") then
    some "A device comparison needs both a device and a metric."
  else none

def actionProblem (js : Js F) (action : ActionDraft F) : Option String :=
  match action with
  | .actuator a =>
      if a.deviceId ≠ "" ∧ jsTrim a.actuator ≠ "" then none
      else some "An actuator action needs a device and an actuator."
  | .email recipients subject body =>
      match (parseRecipients recipients).find? fun r => !emailShape isJsSpace r with
      | some bad => some ("\"" ++ bad ++ "\" doesn't look like an email address.")
      | none =>
          if jsTrim subject ≠ "" ∧ jsTrim body ≠ "" then none
          else some "An email needs a subject and a message."
  | .webhook url body =>
      if jsTrim url = "" then some "A webhook needs a URL."
      else
        match js.parseJson (webhookText body) with
        | some _ => none
        | none => some "The webhook body isn't valid JSON."
  | .notification message =>
      if jsTrim message ≠ "" then none else some "A notification needs a message."

/-- `validateDraft`: the first problem. -/
def validateDraft (js : Js F) (draft : RuleDraft F) : Option String :=
  let w := draft.trigger
  if w.type = .schedule ∧ jsTrim w.cron = "" then some "A scheduled rule needs a cron expression."
  else if w.type = .deviceStatus ∧ w.statusDeviceId = "" then some "Pick the device to watch."
  else if draft.condition.isNone = true ∧ w.type = .metric then
    some "A rule that runs on each reading needs at least one condition."
  else
    match (contacts draft.condition).findSome? contactProblem with
    | some problem => some problem
    | none =>
        if draft.actions.isEmpty = true ∧ draft.preserved.actions.isEmpty = true then
          some "Add at least one action."
        else
          match draft.actions.findSome? (actionProblem js) with
          | some problem => some problem
          | none =>
              if canClear draft = true ∧ draft.clearNotify = true ∧ jsTrim draft.clearMessage = ""
              then some "The clear notification needs a message."
              else none

/-! ## The save gate -/

inductive RuleSection where
  | when | if | then | behaviour | name
  deriving DecidableEq

structure SectionIssue where
  ruleSection : RuleSection
  message : String
  blocking : Bool
  deriving DecidableEq

def minHold : Nat := 5
def minInterval : Nat := 30
def maxName : Nat := 200

def switchesHardware (draft : RuleDraft F) : Bool :=
  draft.actions.any fun action =>
    match action with
    | .actuator _ => true
    | _ => false

/-- One issue, where there is cause for it. -/
def issueIf (cause : Bool) (ruleSection : RuleSection) (message : String) (blocking : Bool) :
    List SectionIssue :=
  if cause then [⟨ruleSection, message, blocking⟩] else []

section

variable [JsonNumber F]

/-- `sectionIssues`. -/
def sectionIssues (js : Js F) (draft : RuleDraft F) : List SectionIssue :=
  let w := draft.trigger
  let reading := isReadingRule draft
  let leafs := contacts draft.condition
  issueIf (w.type = .schedule && jsTrim w.cron = "") .when "Pick when it runs." true ++
  issueIf (w.type = .deviceStatus && w.statusDeviceId = "") .when
    "Pick the device to watch." true ++
  issueIf (reading && draft.condition.isNone) .if
    "A rule that runs on each reading needs at least one condition." true ++
  (leafs.filterMap contactProblem).map (⟨.if, ·, true⟩) ++
  issueIf
    (reading && switchesHardware draft &&
      leafs.any fun c =>
        c.operator.hasHysteresis && !PyFloat.lt (JsonNumber.ofNat 0) c.hysteresis)
    .if ("Add hysteresis to the thresholds so a reading hovering at the line doesn't toggle " ++
      "the relay.") false ++
  issueIf (draft.actions.isEmpty && draft.preserved.actions.isEmpty) .then
    "Add at least one action." true ++
  (draft.actions.filterMap (actionProblem js)).map (⟨.then, ·, true⟩) ++
  issueIf (reading && PyFloat.lt draft.forDuration (JsonNumber.ofNat minHold)) .behaviour
    "Hold for at least 5 s so one noisy reading can't fire it." false ++
  issueIf (PyFloat.lt draft.cooldown (JsonNumber.ofNat minInterval)) .behaviour
    "Keep at least 30 s between firings." false ++
  issueIf (canClear draft && draft.clearNotify && jsTrim draft.clearMessage = "") .behaviour
    "The clear notification needs a message." true ++
  issueIf (decide (maxName < jsLength (jsTrim draft.name))) .name
    "Keep the name to 200 characters." true

/-- What stops a save. -/
def blockingIssues (js : Js F) (draft : RuleDraft F) : List SectionIssue :=
  (sectionIssues js draft).filter (·.blocking)

end

end IotSaas.Editor
