import IotSaas.Editor.Preview
import IotSaas.Editor.Save
import IotSaas.Lib.Zipped
import IotSaas.Worker.Channels

/-!
# `Editor/PreviewSent.lean` — the preview and what is sent

A draft is saved as it is, its rule fires once and clears once, and nothing goes wrong on the way.
`preview_exact_iff` is about the two lists: what the preview has shown and what has gone out agree
exactly when the dispatcher has no use for what the preview leaves out. That is a kept email or
webhook of the clear, a second notification, the email channel of a notification, and a command
whose device the preview cannot name or the worker does not reach.
-/

set_option autoImplicit false

namespace IotSaas.Editor

open Lib Rules Api Worker Worker.Dispatch Worker.OutOfBand

variable {F : Type}

/-! ## What a draft asks for -/

/-- The device of a command, where the action is one. -/
def commandedDevice (action : Action F) : Option (Option Uuid) :=
  match action with
  | .actuatorCommand deviceId _ _ => some deviceId
  | _ => none

/-- The channels of a notification. -/
def noticeChannels (action : Action F) : Option (List NotificationChannel) :=
  match action with
  | .notification _ channels => some channels
  | _ => none

/-- An email or a webhook. -/
def isDelivery (action : Action F) : Bool :=
  match action with
  | .email _ _ _ | .webhook _ => true
  | _ => false

/-- The device of an actuator action. -/
def draftedDevice (action : ActionDraft F) : Option (Option Uuid) :=
  match action with
  | .actuator a => some (some a.deviceId)
  | _ => none

/-- The device of an actuator action that reverts. -/
def revertedDevice (action : ActionDraft F) : Option (Option Uuid) :=
  match action with
  | .actuator a => if a.revertOnClear then some (some a.deviceId) else none
  | _ => none

/-- The channels the editor gives a notification. -/
def draftedChannels (action : ActionDraft F) : Option (List NotificationChannel) :=
  match action with
  | .notification _ => some [.platform]
  | _ => none

/-- The clear actions that are kept, of a draft that clears. -/
def keptClear (draft : RuleDraft F) : List (Action F) :=
  if canClear draft then draft.preserved.clearActions else []

/-- The devices a firing has commands for, as the draft names them. -/
def firedDevices (draft : RuleDraft F) : List (Option Uuid) :=
  draft.actions.filterMap draftedDevice ++ draft.preserved.actions.filterMap commandedDevice

/-- The devices a clear has commands for. -/
def clearedDevices (draft : RuleDraft F) : List (Option Uuid) :=
  (if canClear draft then draft.actions.filterMap revertedDevice else []) ++
    (keptClear draft).filterMap commandedDevice

/-- The notifications of a firing, by their channels. -/
def firedNotices (draft : RuleDraft F) : List (List NotificationChannel) :=
  draft.actions.filterMap draftedChannels ++ draft.preserved.actions.filterMap noticeChannels

/-- The notifications of a clear. -/
def clearedNotices (draft : RuleDraft F) : List (List NotificationChannel) :=
  (if canClear draft = true ∧ draft.clearNotify = true ∧ jsTrim draft.clearMessage ≠ "" then
    [[.platform]] else []) ++ (keptClear draft).filterMap noticeChannels

/-! ## The same of a request -/

/-- The device of a command of a request. -/
def sentDevice (body : ActionBody F) : Option (Option Uuid) :=
  match body with
  | .actuatorCommand deviceId _ _ => some deviceId
  | _ => none

/-- The message and the channels of a notification of a request. -/
def sentNotice (body : ActionBody F) : Option (String × List NotificationChannel) :=
  match body with
  | .notification message channels => some (message, channels)
  | _ => none

/-- An email or a webhook of a request. -/
def sentDelivery (body : ActionBody F) : Bool :=
  match body with
  | .email _ _ _ | .webhook _ _ _ _ => true
  | _ => false

section

variable {js : Js F}

theorem forall₂_actionsToApi {actions : List (ActionDraft F)} :
    ∀ {bodies : List (ActionBody F)}, actionsToApi js actions = some bodies →
      List.Forall₂ (fun action body => actionToApi js action = some body) actions bodies := by
  induction actions with
  | nil =>
    intro bodies h
    cases h
    exact .nil
  | cons action rest ih =>
    intro bodies h
    rw [actionsToApi] at h
    split at h
    · rename_i hhead hrest
      cases h
      exact .cons hhead (ih hrest)
    · cases h

theorem sentDevice_actionToApi {action : ActionDraft F} {body : ActionBody F}
    (h : actionToApi js action = some body) : draftedDevice action = sentDevice body := by
  cases action with
  | webhook url text =>
    obtain ⟨json, -, rfl⟩ := Option.map_eq_some_iff.mp h
    rfl
  | _ =>
    cases h
    rfl

theorem sentNotice_actionToApi {action : ActionDraft F} {body : ActionBody F}
    (h : actionToApi js action = some body) :
    draftedChannels action = (sentNotice body).map Prod.snd := by
  cases action with
  | webhook url text =>
    obtain ⟨json, -, rfl⟩ := Option.map_eq_some_iff.mp h
    rfl
  | _ =>
    cases h
    rfl

theorem sentDevice_kept (actions : List (Action F)) :
    (actions.map actionToBody).filterMap sentDevice = actions.filterMap commandedDevice := by
  rw [List.filterMap_map]
  congr 1
  funext action
  cases action <;> rfl

theorem sentNotice_kept (actions : List (Action F)) :
    ((actions.map actionToBody).filterMap sentNotice).map Prod.snd =
      actions.filterMap noticeChannels := by
  rw [List.filterMap_map, List.map_filterMap]
  congr 1
  funext action
  cases action <;> rfl

variable [JsonNumber F] {draft : RuleDraft F} {body : RuleBody F}

/-- The commands of a request name the devices of its draft. -/
theorem devices_of_request (h : draftToRequest js draft = some body) :
    body.actions.filterMap sentDevice = firedDevices draft ∧
      body.clearActions.filterMap sentDevice = clearedDevices draft := by
  obtain ⟨actions, hactions, rfl⟩ := Option.map_eq_some_iff.mp h
  refine ⟨?_, ?_⟩
  · have hdrafted : draft.actions.filterMap draftedDevice = actions.filterMap sentDevice := by
      refine filterMap_eq_of_forall₂ ?_ (forall₂_actionsToApi hactions)
      exact fun _ _ => sentDevice_actionToApi
    unfold firedDevices
    rw [List.filterMap_append, sentDevice_kept, hdrafted]
  · unfold clearedDevices keptClear
    dsimp only
    unfold clearActionsToApi
    cases canClear draft with
    | false => rfl
    | true =>
      have hnotice : (clearNotification draft.clearNotify draft.clearMessage).filterMap
          (sentDevice (F := F)) = [] := by
        unfold clearNotification
        split <;> rfl
      have hreverts : (draft.actions.filterMap revertAction).filterMap sentDevice =
          draft.actions.filterMap revertedDevice := by
        rw [List.filterMap_filterMap]
        congr 1
        funext action
        cases action with
        | actuator a =>
          unfold revertAction revertedDevice
          dsimp only
          split <;> rfl
        | _ => rfl
      rw [if_pos rfl, if_pos rfl, if_pos rfl, List.filterMap_append, List.filterMap_append, hnotice,
        hreverts, sentDevice_kept, List.append_nil]

/-- Its notifications have the channels of those of its draft. -/
theorem notices_of_request (h : draftToRequest js draft = some body) :
    (body.actions.filterMap sentNotice).map Prod.snd = firedNotices draft ∧
      (body.clearActions.filterMap sentNotice).map Prod.snd = clearedNotices draft := by
  obtain ⟨actions, hactions, rfl⟩ := Option.map_eq_some_iff.mp h
  refine ⟨?_, ?_⟩
  · have hdrafted : draft.actions.filterMap draftedChannels =
        actions.filterMap fun body => (sentNotice body).map Prod.snd := by
      refine filterMap_eq_of_forall₂ ?_ (forall₂_actionsToApi hactions)
      exact fun _ _ => sentNotice_actionToApi
    unfold firedNotices
    rw [List.filterMap_append, List.map_append, sentNotice_kept, List.map_filterMap, hdrafted]
  · unfold clearedNotices keptClear
    dsimp only
    unfold clearActionsToApi
    cases canClear draft with
    | false => rfl
    | true =>
      have hreverts : (draft.actions.filterMap revertAction).filterMap sentNotice = [] := by
        rw [List.filterMap_filterMap]
        refine List.filterMap_eq_nil_iff.mpr fun action _ => ?_
        cases action with
        | actuator a =>
          unfold revertAction
          dsimp only
          split <;> rfl
        | _ => rfl
      rw [if_pos rfl, if_pos rfl, List.filterMap_append, List.filterMap_append, hreverts,
        List.nil_append, List.map_append, sentNotice_kept]
      congr 1
      unfold clearNotification
      simp only [true_and]
      split <;> rfl

/-- What a clear delivers is what is kept. -/
theorem deliveries_of_request (h : draftToRequest js draft = some body) :
    (∀ action ∈ body.clearActions, sentDelivery action = false) ↔
      ∀ action ∈ keptClear draft, isDelivery action = false := by
  obtain ⟨actions, hactions, rfl⟩ := Option.map_eq_some_iff.mp h
  unfold keptClear
  dsimp only
  unfold clearActionsToApi
  cases canClear draft with
  | false => simp
  | true =>
    have hreverts : ∀ action ∈ draft.actions.filterMap revertAction,
        sentDelivery action = false := by
      intro action haction
      obtain ⟨drafted, -, hsome⟩ := List.mem_filterMap.mp haction
      cases drafted with
      | actuator a =>
        obtain ⟨-, hsome⟩ := Option.ite_none_right_eq_some.mp hsome
        cases hsome
        rfl
      | _ => cases hsome
    have hnotice : ∀ action ∈ clearNotification (F := F) draft.clearNotify draft.clearMessage,
        sentDelivery action = false := by
      intro action haction
      unfold clearNotification at haction
      split at haction
      · cases List.mem_singleton.mp haction
        rfl
      · cases haction
    rw [if_pos rfl, if_pos rfl, List.forall_mem_append, List.forall_mem_append, List.forall_mem_map]
    constructor
    · intro hall action haction
      rw [← hall.2 action haction]
      cases action <;> rfl
    · intro hall
      refine ⟨⟨hreverts, hnotice⟩, fun action haction => ?_⟩
      rw [← hall action haction]
      cases action <;> rfl

end

/-! ## The save -/

section

variable [JsonNumber F]

/-- **A draft saved as it is**, as a new rule or over one that is there. -/
inductive SavedRule (lib : Library F) (py : Pydantic F) (js : Js F) (draft : RuleDraft F) :
    StoredRule F → Prop where
  | created {db db' : Db F} {tenantId ruleId : Uuid} {body : RuleBody F}
      {request : RuleCreateRequest F} {rule : StoredRule F} :
      draftToRequest js draft = some body → body.toCreate py = some request →
      persistRule lib db (canonicalRule tenantId ruleId request) = .ok (db', rule) →
      SavedRule lib py js draft rule
  | updated {db db' : Db F} {tenantId ruleId : Uuid} {body : RuleBody F}
      {request : RuleUpdateRequest F} {rule : StoredRule F} :
      draftToRequest js draft = some body → body.toUpdate py = some request →
      updateRule lib db tenantId ruleId request = .ok (db', rule) → SavedRule lib py js draft rule

variable {py : Pydantic F} {js : Js F} {draft : RuleDraft F}

/-- An action as it was sent, and as it is stored: its device is what pydantic reads. -/
inductive StoredAs (py : Pydantic F) : ActionBody F → Action F → Prop where
  | command {named : Option String} {id : Option Uuid} {actuator : String}
      {value : CommandValue F} : optionalUuid py named = some id →
      StoredAs py (.actuatorCommand named actuator value) (.actuatorCommand id actuator value)
  | notification {message : String} {channels : List NotificationChannel} :
      StoredAs py (.notification message channels) (.notification message channels)
  | webhook {url : String} {members : List (String × Json F)} {retry : Option (RetryConfig F)}
      {timeoutS : Option F} :
      StoredAs py (.webhook url (.obj members) retry timeoutS)
        (.webhook ⟨url, members, retry, timeoutS⟩)
  | email {recipients : List String} {subject text : String} :
      StoredAs py (.email recipients subject text) (.email recipients subject text)

theorem storedAs_of_validate {body : ActionBody F} {action : Action F}
    (h : body.validate py = some action) : StoredAs py body action := by
  unfold ActionBody.validate at h
  split at h
  · obtain ⟨-, h⟩ := Option.ite_none_right_eq_some.mp h
    obtain ⟨id, hid, rfl⟩ := Option.map_eq_some_iff.mp h
    exact .command hid
  · obtain ⟨-, h⟩ := Option.ite_none_right_eq_some.mp h
    cases h
    exact .notification
  · split at h
    · split at h
      · cases h
        exact .webhook
      · cases h
    · cases h
  · obtain ⟨-, h⟩ := Option.ite_none_right_eq_some.mp h
    cases h
    exact .email

theorem forall₂_validateActions {bodies : List (ActionBody F)} :
    ∀ {actions : List (Action F)}, validateActions py bodies = some actions →
      List.Forall₂ (StoredAs py) bodies actions := by
  induction bodies with
  | nil =>
    intro actions h
    cases h
    exact .nil
  | cons body rest ih =>
    intro actions h
    rw [validateActions] at h
    split at h
    · rename_i hhead hrest
      cases h
      exact .cons (storedAs_of_validate hhead) (ih hrest)
    · cases h

/-- **A saved rule has the actions of its request**, one for one. -/
theorem SavedRule.actions {lib : Library F} {rule : StoredRule F} (h : SavedRule lib py js draft rule) :
    ∃ body, draftToRequest js draft = some body ∧
      List.Forall₂ (StoredAs py) body.actions rule.actions ∧
      List.Forall₂ (StoredAs py) body.clearActions rule.clearActions := by
  cases h with
  | created hbody hrequest hwrite =>
    obtain ⟨rfl, -, -, -⟩ := persistRule_ok hwrite
    obtain ⟨_, -, -, -, -, -, hactions, hclear, -, -⟩ := RuleBody.toCreate_ok hrequest
    exact ⟨_, hbody, forall₂_validateActions hactions, forall₂_validateActions hclear⟩
  | updated hbody hrequest hwrite =>
    obtain ⟨_, -, rfl, -, -, -⟩ := updateRule_ok hwrite
    obtain ⟨_, _, _, _, _, -, -, -, hactions, hclear, -, -, rfl⟩ := RuleBody.fields_ok hrequest
    exact ⟨_, hbody, forall₂_validateActions hactions, forall₂_validateActions hclear⟩

end

/-! ## What goes out -/

/-- One firing and one clear of a rule, with what each finds. -/
structure Episode (F : Type) where
  rule : StoredRule F
  device : Edge → Option Target
  source : Edge → TriggerSource
  summary : Edge → String
  world : Edge → World
  outside : Outside F

section

variable (e : Episode F) (edge : Edge)

def Episode.call : Dispatch.Call F :=
  { rule := .ofStored e.rule
    device := e.device edge
    edge := edge
    source := e.source edge
    summary := e.summary edge }

/-- The actions of its edge, as the rule has them. -/
def Episode.actions : List (Action F) :=
  match edge with
  | .fire => e.rule.actions
  | .clear => e.rule.clearActions

def Episode.steps : List (Step F) := doneSteps (e.call edge) (e.world edge)

/-- What was owed and what an executor has been handed for it. -/
def Episode.delivered : List (DeferredConfig F × DeliveryConfig F) :=
  (deliveries (e.call edge) (e.world edge) e.outside).flatMap fun delivery =>
    (handedOver delivery.2).map fun config => (delivery.1.config, config)

/-- The recipients an action names. -/
def explicitRecipients (config : DeferredConfig F) : List String :=
  match config with
  | .email recipients _ _ => recipients
  | _ => []

def deliveredMail (delivery : DeferredConfig F × DeliveryConfig F) : Option (String × String) :=
  match delivery.2 with
  | .email _ subject _ => some (recipientsText (explicitRecipients delivery.1), subject)
  | .webhook _ => none

def deliveredWebhook (delivery : DeferredConfig F × DeliveryConfig F) :
    Option (String × Json F) :=
  match delivery.2 with
  | .webhook config => some (config.url, .obj config.body)
  | .email _ _ _ => none

/-- What the preview heads a notification with. -/
def heading (edge : Edge) : String :=
  match edge with
  | .fire => "Notifications"
  | .clear => "Notifications (on clear)"

/-- The notifications the rule has configured: a firing without one writes its own. -/
def Episode.notices : List (String × String) :=
  if (e.call edge).actions.any StoredAction.isNotification then
    (noticed (e.steps edge)).map fun message => (heading edge, message)
  else []

end

/-- **What is sent**, channel by channel. -/
def Episode.sent (e : Episode F) : Channels F :=
  { commands := published (e.steps .fire)
    clears := published (e.steps .clear)
    emails := (e.delivered .fire ++ e.delivered .clear).filterMap deliveredMail
    webhooks := (e.delivered .fire ++ e.delivered .clear).filterMap deliveredWebhook
    notifications := e.notices .fire ++ e.notices .clear }

/-- A command has gone to the device its action names: the triggering one, or one the look-up finds
active in the tenant. -/
def Reached (call : Dispatch.Call F) (world : World) (named : Option Uuid) : Prop :=
  ∃ id, named = some id ∧ (call.device.map Prod.fst = some id ∨
    ∃ row, world.lookup id = some row ∧ row.tenantId = call.rule.tenantId ∧ row.status = .active)

/-- The slugs the preview knows are those of the worker. -/
structure SlugsAgree (py : Pydantic F) (tenantSlug : String) (deviceSlug : Uuid → Option String)
    (e : Episode F) : Prop where
  uuids : ∀ id slug, deviceSlug id = some slug → py.parseUuid id = some id
  named : ∀ id, deviceSlug id ≠ some "?"
  device : ∀ edge target, e.device edge = some target →
    target.2.1 = tenantSlug ∧ deviceSlug target.1 = some target.2.2
  rows : ∀ edge id row, (e.world edge).lookup id = some row → row.tenantId = e.rule.tenantId →
    row.deviceId = id ∧ row.tenantSlug = tenantSlug ∧ deviceSlug id = some row.deviceSlug

/-- **The dispatcher has no use for what the preview leaves out.** -/
structure ShowsAll (draft : RuleDraft F) (e : Episode F) : Prop where
  fired : ∀ named ∈ firedDevices draft, Reached (e.call .fire) (e.world .fire) named
  cleared : ∀ named ∈ clearedDevices draft, Reached (e.call .clear) (e.world .clear) named
  undelivered : ∀ action ∈ keptClear draft, isDelivery action = false
  oneFired : (firedNotices draft).length ≤ 1
  oneCleared : (clearedNotices draft).length ≤ 1
  unmailed : ∀ channels ∈ firedNotices draft ++ clearedNotices draft,
    NotificationChannel.email ∉ channels

/-! ## Commands -/

section

variable {py : Pydantic F} {tenantSlug : String} {deviceSlug : Uuid → Option String}
variable {e : Episode F} {edge : Edge}

/-- A target is a device of the tenant under its slugs; a command that names a device goes to it. -/
theorem resolved_target (hagree : SlugsAgree py tenantSlug deviceSlug e) {named : Option Uuid}
    (hnamed : named ≠ some "") {target : Target}
    (h : resolved (e.call edge) (e.world edge) named = some target) :
    target.2.1 = tenantSlug ∧ deviceSlug target.1 = some target.2.2 ∧
      ∀ id, named = some id → target.1 = id ∧ Reached (e.call edge) (e.world edge) (some id) := by
  unfold resolved lookedUp at h
  cases named with
  | none =>
    obtain ⟨htenant, hslug⟩ := hagree.device edge target h
    exact ⟨htenant, hslug, nofun⟩
  | some id =>
    have hne : id ≠ "" := fun heq => hnamed (congrArg some heq)
    by_cases hdevice : (e.call edge).device.map Prod.fst = some id
    · have hown : (e.call edge).device = some target := by
        simpa [hdevice] using h
      obtain ⟨htenant, hslug⟩ := hagree.device edge target hown
      have hid : target.1 = id := by
        rw [hown] at hdevice
        exact Option.some.inj hdevice
      refine ⟨htenant, hslug, ?_⟩
      intro id' heq
      cases heq
      exact ⟨hid, id, rfl, .inl hdevice⟩
    · have hrow : usableTarget (e.call edge).rule.tenantId ((e.world edge).lookup id) =
          some target := by
        simpa [hne, hdevice] using h
      cases hlookup : (e.world edge).lookup id with
      | none =>
        rw [hlookup] at hrow
        cases hrow
      | some row =>
        rw [hlookup] at hrow
        obtain ⟨husable, hrow⟩ := Option.ite_none_right_eq_some.mp hrow
        cases hrow
        obtain ⟨hid, htenant, hslug⟩ := hagree.rows edge id row hlookup husable.1
        refine ⟨htenant, hid ▸ hslug, ?_⟩
        intro id' heq
        cases heq
        exact ⟨hid, id, rfl, .inr ⟨row, hlookup, husable.1, husable.2⟩⟩

/-- A device that is reached has a target. -/
theorem resolved_of_reached {id : Uuid} (hne : id ≠ "")
    (h : Reached (e.call edge) (e.world edge) (some id)) :
    ∃ target, resolved (e.call edge) (e.world edge) (some id) = some target := by
  obtain ⟨_, heq, hreached⟩ := h
  cases heq
  unfold resolved lookedUp
  by_cases hdevice : (e.call edge).device.map Prod.fst = some id
  · obtain ⟨target, htarget, -⟩ := Option.map_eq_some_iff.mp hdevice
    exact ⟨target, by simpa [hdevice] using htarget⟩
  · obtain hown | ⟨row, hlookup, htenant, hactive⟩ := hreached
    · exact absurd hown hdevice
    · refine ⟨(row.deviceId, row.tenantSlug, row.deviceSlug), ?_⟩
      simp [hne, hdevice, hlookup, usableTarget, htenant, hactive]

theorem topic_slug_inj {tenant slug slug' actuator : String}
    (h : tenant ++ "/" ++ slug ++ "/cmd/" ++ actuator = tenant ++ "/" ++ slug' ++ "/cmd/" ++ actuator) :
    slug = slug' :=
  (String.append_right_inj _).mp ((String.append_left_inj _).mp ((String.append_left_inj _).mp h))

theorem optionalUuid_same {text : String} {id : Option Uuid} (hread : py.parseUuid text = some text)
    (hid : optionalUuid py (some text) = some id) : id = some text := by
  unfold optionalUuid at hid
  dsimp only at hid
  rw [hread] at hid
  exact (Option.some.inj hid).symm

/-- **A command is sent as it is shown** when its device is reached. -/
theorem command_iff (hempty : ∀ text, py.parseUuid text ≠ some "")
    (hagree : SlugsAgree py tenantSlug deviceSlug e) {named : Option String} {id : Option Uuid}
    (hid : optionalUuid py named = some id) (actuator : String) (value : CommandValue F) :
    some (tenantSlug ++ "/" ++ (deviceSlug (named.getD "")).getD "?" ++ "/cmd/" ++ actuator, value) =
        ((resolved (e.call edge) (e.world edge) id).map fun target =>
          (target.2.1 ++ "/" ++ target.2.2 ++ "/cmd/" ++ actuator, value)) ↔
      Reached (e.call edge) (e.world edge) named := by
  have hne : id ≠ some "" := by
    cases named with
    | none =>
      cases hid
      exact nofun
    | some text =>
      obtain ⟨read, hread, rfl⟩ := Option.map_eq_some_iff.mp hid
      intro heq
      exact hempty text (hread.trans heq)
  constructor
  · intro h
    obtain ⟨target, htarget, heq⟩ := Option.map_eq_some_iff.mp h.symm
    obtain ⟨htenant, hslug, hown⟩ := resolved_target hagree hne htarget
    rw [htenant] at heq
    have hshown := topic_slug_inj (congrArg Prod.fst heq)
    -- a device the preview cannot name is shown as a question mark, and no device is called that
    cases hknown : deviceSlug (named.getD "") with
    | none =>
      rw [hknown] at hshown
      exact absurd (hslug.trans (congrArg some hshown)) (hagree.named _)
    | some slug =>
      have hread := hagree.uuids _ _ hknown
      cases named with
      | none => exact absurd hread (hempty "")
      | some text => exact (hown text (optionalUuid_same hread hid)).2
  · intro hreached
    obtain ⟨text, rfl, hfound⟩ := hreached
    have hknown : ∃ slug, deviceSlug text = some slug := by
      obtain hdevice | ⟨row, hlookup, htenant, -⟩ := hfound
      · obtain ⟨target, htarget, rfl⟩ := Option.map_eq_some_iff.mp hdevice
        exact ⟨_, (hagree.device edge target htarget).2⟩
      · exact ⟨_, (hagree.rows edge text row hlookup htenant).2.2⟩
    obtain ⟨slug, hslug⟩ := hknown
    have hread := hagree.uuids _ _ hslug
    cases optionalUuid_same hread hid
    have htext : text ≠ "" := fun heq => hne (congrArg some heq)
    obtain ⟨target, htarget⟩ := resolved_of_reached htext ⟨text, rfl, hfound⟩
    obtain ⟨htenant, htold, hown⟩ := resolved_target hagree hne htarget
    rw [(hown text rfl).1, hslug] at htold
    rw [htarget, Option.map_some, htenant, ← Option.some.inj htold, Option.getD_some, hslug]
    rfl

end

/-! ## Channel by channel -/

section

variable {py : Pydantic F} {tenantSlug : String} {deviceSlug : Uuid → Option String}
variable {e : Episode F} {edge : Edge}
variable {bodies : List (ActionBody F)} {actions : List (Action F)}

/-- The commands of an edge. -/
theorem commands_iff (hempty : ∀ text, py.parseUuid text ≠ some "")
    (hagree : SlugsAgree py tenantSlug deviceSlug e)
    {shown : ActionBody F → Option (String × CommandValue F)}
    (hcommand : ∀ named actuator value, shown (.actuatorCommand named actuator value) =
      some (tenantSlug ++ "/" ++ (deviceSlug (named.getD "")).getD "?" ++ "/cmd/" ++ actuator, value))
    (hother : ∀ body, sentDevice body = none → shown body = none)
    (hall : List.Forall₂ (StoredAs py) bodies actions) :
    bodies.filterMap shown =
        (actions.map StoredAction.known).filterMap (publishedBy (e.call edge) (e.world edge)) ↔
      ∀ named ∈ bodies.filterMap sentDevice, Reached (e.call edge) (e.world edge) named := by
  rw [List.filterMap_map, List.forall_mem_filterMap]
  refine filterMap_eq_iff_of_forall₂ ?_ ?_ hall
  · intro body action hstored hnone
    cases hstored with
    | command hid =>
      rw [hcommand] at hnone
      cases hnone
    | _ => rfl
  · intro body action hstored
    cases hstored with
    | command hid =>
      rw [hcommand]
      refine (command_iff hempty hagree hid _ _).trans ?_
      simp [sentDevice]
    | _ => exact iff_of_true (hother _ rfl) nofun

theorem call_actions (e : Episode F) (edge : Edge) :
    (e.call edge).actions = (e.actions edge).map .known := by
  cases edge <;> rfl

/-- A delivery that went well, with what was owed. -/
def handedPair (e : Episode F) (config : DeferredConfig F) : DeferredConfig F × DeliveryConfig F :=
  (config, handed e.outside e.rule.name config)

/-- With every delivery going well, what is owed is what is handed over. -/
theorem delivered_calm (hcalm : (e.world edge).Calm) (hsucceeds : e.outside.Succeeds) :
    e.delivered edge = ((e.call edge).deferred.map DeferredAction.config).map (handedPair e) := by
  unfold Episode.delivered deliveries
  rw [spawned_calm hcalm, List.flatMap_map, List.map_map, List.map_eq_flatMap]
  congr 1
  funext deferred
  dsimp only
  rw [handedOver_run hsucceeds]
  rfl

/-- The notifications of an edge, the message and the channels of each. -/
def Episode.configured (e : Episode F) (edge : Edge) : List (String × List NotificationChannel) :=
  (e.actions edge).filterMap fun action => noticeIn (.known action)

/-- The mail of a notification that is mailed. -/
def alerts (e : Episode F) (edge : Edge) : List (DeferredConfig F) :=
  match (e.configured edge).head? with
  | some (message, channels) =>
      if .email ∈ channels then [.alert message e.rule.name edge] else []
  | none => []

theorem owed_eq (e : Episode F) (edge : Edge) :
    (e.call edge).deferred.map DeferredAction.config =
      ((e.actions edge).filterMap fun action => deferredIn (.known action)) ++ alerts e edge := by
  rw [deferred_configs, call_actions, List.filterMap_map, List.filterMap_map]
  rfl

/-- What is delivered beside the emails and webhooks of the firing. -/
def besides (e : Episode F) : List (DeferredConfig F) :=
  alerts e .fire ++
    (((e.actions .clear).filterMap fun action => deferredIn (.known action)) ++ alerts e .clear)

theorem delivered_eq (hcalm : ∀ edge, (e.world edge).Calm) (hsucceeds : e.outside.Succeeds) :
    e.delivered .fire ++ e.delivered .clear =
      (((e.actions .fire).filterMap fun action => deferredIn (.known action)) ++ besides e).map
        (handedPair e) := by
  rw [delivered_calm (hcalm _) hsucceeds, delivered_calm (hcalm _) hsucceeds, owed_eq, owed_eq,
    ← List.map_append, List.append_assoc]
  rfl

/-- Whatever is delivered is an email or a webhook. -/
theorem delivered_nil_iff (e : Episode F) (configs : List (DeferredConfig F)) :
    (configs.map (handedPair e)).filterMap deliveredMail = [] ∧
      (configs.map (handedPair e)).filterMap deliveredWebhook = [] ↔ configs = [] := by
  constructor
  · intro h
    cases configs with
    | nil => rfl
    | cons config rest =>
      cases config with
      | webhook config => cases h.2
      | email recipients subject text => cases h.1
      | alert message name edge => cases h.1
  · intro h
    subst h
    exact ⟨rfl, rfl⟩

theorem besides_nil_iff (e : Episode F) : besides e = [] ↔
    (∀ action ∈ e.actions .clear, deferredIn (.known action) = none) ∧
      alerts e .fire = [] ∧ alerts e .clear = [] := by
  unfold besides
  rw [List.append_eq_nil_iff, List.append_eq_nil_iff, List.filterMap_eq_nil_iff]
  constructor
  · intro h
    exact ⟨h.2.1, h.1, h.2.2⟩
  · intro h
    exact ⟨h.2.1, h.1, h.2.2⟩

/-- A notification that is written is the first one configured. -/
theorem notices_calm (hcalm : (e.world edge).Calm) :
    e.notices edge = (e.configured edge).head?.toList.map fun notice => (heading edge, notice.1) := by
  have hconfigured : (e.call edge).actions.filterMap noticeIn = e.configured edge := by
    rw [call_actions, List.filterMap_map]
    rfl
  have hany : (e.call edge).actions.any StoredAction.isNotification =
      !(e.configured edge).isEmpty := by
    rw [← hconfigured]
    generalize (e.call edge).actions = actions
    induction actions with
    | nil => rfl
    | cons action rest ih =>
      rw [List.any_cons, List.filterMap_cons, ih]
      cases action with
      | unknown type => rfl
      | known action => cases action <;> rfl
  unfold Episode.notices Episode.steps
  rw [noticed_doneSteps hcalm, noticeOfCall_eq, hconfigured, hany]
  cases e.configured edge with
  | nil => rfl
  | cons notice rest => rfl

/-- Nothing is mailed of notifications without the email channel, where there is one at most. -/
theorem alerts_nil_iff (hone : (e.configured edge).length ≤ 1) : alerts e edge = [] ↔
    ∀ channels ∈ (e.configured edge).map Prod.snd, NotificationChannel.email ∉ channels := by
  unfold alerts
  cases hlist : e.configured edge with
  | nil => simp
  | cons notice rest =>
    have hrest : rest = [] := by
      rw [hlist, List.length_cons] at hone
      exact List.length_eq_zero_iff.mp (by omega)
    subst hrest
    obtain ⟨message, channels⟩ := notice
    by_cases hmailed : NotificationChannel.email ∈ channels <;> simp [hmailed]

/-- Two lists are their heads when neither has a second item. -/
theorem map_heads_iff {α β : Type} (f g : α → β) (l l' : List α) :
    l.map f ++ l'.map g = l.head?.toList.map f ++ l'.head?.toList.map g ↔
      l.length ≤ 1 ∧ l'.length ≤ 1 := by
  have hhead : ∀ l : List α, l.length ≤ 1 → l.head?.toList = l := by
    intro l hl
    cases l with
    | nil => rfl
    | cons a rest =>
      rw [List.length_cons] at hl
      rw [List.length_eq_zero_iff.mp (show rest.length = 0 by omega)]
      rfl
  have hlength : ∀ l : List α, l.head?.toList.length ≤ 1 ∧ l.head?.toList.length ≤ l.length := by
    intro l
    cases l <;> simp
  constructor
  · intro heq
    have hlengths := congrArg List.length heq
    simp only [List.length_append, List.length_map] at hlengths
    have hl := hlength l
    have hl' := hlength l'
    omega
  · intro h
    rw [hhead l h.1, hhead l' h.2]

/-- The notifications of a request are those of the rule. -/
theorem configured_eq {sent : List (ActionBody F)}
    (hall : List.Forall₂ (StoredAs py) sent (e.actions edge)) :
    sent.filterMap sentNotice = e.configured edge := by
  refine filterMap_eq_of_forall₂ (fun body action hstored => ?_) hall
  cases hstored <;> rfl

/-- What a clear leaves to the executors, as it was sent. -/
theorem undelivered_iff {sent : List (ActionBody F)}
    (hall : List.Forall₂ (StoredAs py) sent (e.actions edge)) :
    (∀ action ∈ sent, sentDelivery action = false) ↔
      ∀ action ∈ e.actions edge, deferredIn (.known action) = none := by
  refine forall_mem_iff_of_forall₂ (fun body action hstored => ?_) hall
  cases hstored <;> simp [sentDelivery, deferredIn]

variable [JsonNumber F]

variable {draft : RuleDraft F} {body : RuleBody F}

/-- What of a preview goes through a channel: of the actions, then of the clear actions. -/
theorem filterMap_wouldSend {α : Type} {js : Js F} {draft : RuleDraft F} {body : RuleBody F}
    (hbody : draftToRequest js draft = some body) (tenantSlug : String)
    (deviceSlug : String → Option String) (ttl : Nat) (f : Send F → Option α) :
    (wouldSend tenantSlug deviceSlug ttl js draft).filterMap f =
      body.actions.filterMap (fun action => f (actionSend tenantSlug deviceSlug ttl action)) ++
        body.clearActions.filterMap fun action =>
          (clearSend tenantSlug deviceSlug ttl action).bind f := by
  unfold wouldSend
  rw [hbody]
  dsimp only
  rw [List.filterMap_append, List.filterMap_map, List.filterMap_filterMap]
  rfl

/-- **The deliveries**: both channels are as shown when nothing is delivered besides. -/
theorem deliveries_iff {js : Js F} (tenantSlug : String) (deviceSlug : Uuid → Option String)
    (ttl : Nat) (hbody : draftToRequest js draft = some body) (hcalm : ∀ edge, (e.world edge).Calm)
    (hsucceeds : e.outside.Succeeds)
    (hall : List.Forall₂ (StoredAs py) body.actions (e.actions .fire)) :
    ((wouldSend tenantSlug deviceSlug ttl js draft).filterMap (Send.asText .email) =
        e.sent.emails ∧
      (wouldSend tenantSlug deviceSlug ttl js draft).filterMap Send.asWebhook = e.sent.webhooks) ↔
      besides e = [] := by
  have hmails : body.actions.filterMap
        (fun action => (actionSend tenantSlug deviceSlug ttl action).asText .email) =
      (((e.actions .fire).filterMap fun action => deferredIn (.known action)).map
        (handedPair e)).filterMap deliveredMail := by
    rw [List.filterMap_map, List.filterMap_filterMap]
    refine filterMap_eq_of_forall₂ (fun body action hstored => ?_) hall
    cases hstored <;> rfl
  have hwebhooks : body.actions.filterMap
        (fun action => (actionSend tenantSlug deviceSlug ttl action).asWebhook) =
      (((e.actions .fire).filterMap fun action => deferredIn (.known action)).map
        (handedPair e)).filterMap deliveredWebhook := by
    rw [List.filterMap_map, List.filterMap_filterMap]
    refine filterMap_eq_of_forall₂ (fun body action hstored => ?_) hall
    cases hstored <;> rfl
  -- the second loop shows neither
  have hnoMail : (body.clearActions.filterMap fun action =>
      (clearSend tenantSlug deviceSlug ttl action).bind (Send.asText .email)) = [] := by
    refine List.filterMap_eq_nil_iff.mpr fun action _ => ?_
    cases action <;> rfl
  have hnoWebhook : (body.clearActions.filterMap fun action =>
      (clearSend tenantSlug deviceSlug ttl action).bind Send.asWebhook) = [] := by
    refine List.filterMap_eq_nil_iff.mpr fun action _ => ?_
    cases action <;> rfl
  unfold Episode.sent
  dsimp only
  rw [filterMap_wouldSend hbody, filterMap_wouldSend hbody, hnoMail, hnoWebhook, hmails, hwebhooks,
    List.append_nil, List.append_nil, delivered_eq hcalm hsucceeds, List.map_append,
    List.filterMap_append, List.filterMap_append, List.self_eq_append_right,
    List.self_eq_append_right]
  exact delivered_nil_iff e (besides e)

/-- **The notifications** are as shown when no edge has a second one. -/
theorem notifications_iff {js : Js F} (tenantSlug : String) (deviceSlug : Uuid → Option String)
    (ttl : Nat) (hbody : draftToRequest js draft = some body) (hcalm : ∀ edge, (e.world edge).Calm)
    (hfired : List.Forall₂ (StoredAs py) body.actions (e.actions .fire))
    (hcleared : List.Forall₂ (StoredAs py) body.clearActions (e.actions .clear)) :
    (wouldSend tenantSlug deviceSlug ttl js draft).filterMap (Send.asText .notification) =
        e.sent.notifications ↔
      (e.configured .fire).length ≤ 1 ∧ (e.configured .clear).length ≤ 1 := by
  have hshown : body.actions.filterMap
        (fun action => (actionSend tenantSlug deviceSlug ttl action).asText .notification) =
      (e.configured .fire).map fun notice => (heading .fire, notice.1) := by
    rw [← configured_eq hfired, List.map_filterMap]
    congr 1
    funext action
    cases action <;> rfl
  have hclear : (body.clearActions.filterMap fun action =>
        (clearSend tenantSlug deviceSlug ttl action).bind (Send.asText .notification)) =
      (e.configured .clear).map fun notice => (heading .clear, notice.1) := by
    rw [← configured_eq hcleared, List.map_filterMap]
    congr 1
    funext action
    cases action <;> rfl
  unfold Episode.sent
  dsimp only
  rw [filterMap_wouldSend hbody, hshown, hclear, notices_calm (hcalm _), notices_calm (hcalm _)]
  exact map_heads_iff _ _ _ _

/-- **The commands** of both edges are as shown when every device is reached. -/
theorem published_iff {js : Js F} (ttl : Nat) (hbody : draftToRequest js draft = some body)
    (hempty : ∀ text, py.parseUuid text ≠ some "") (hagree : SlugsAgree py tenantSlug deviceSlug e)
    (hcalm : ∀ edge, (e.world edge).Calm)
    (hfired : List.Forall₂ (StoredAs py) body.actions (e.actions .fire))
    (hcleared : List.Forall₂ (StoredAs py) body.clearActions (e.actions .clear)) :
    ((wouldSend tenantSlug deviceSlug ttl js draft).filterMap (Send.asCommand .command) =
        e.sent.commands ↔
      ∀ named ∈ body.actions.filterMap sentDevice, Reached (e.call .fire) (e.world .fire) named) ∧
    ((wouldSend tenantSlug deviceSlug ttl js draft).filterMap (Send.asCommand .clear) =
        e.sent.clears ↔
      ∀ named ∈ body.clearActions.filterMap sentDevice,
        Reached (e.call .clear) (e.world .clear) named) := by
  unfold Episode.sent Episode.steps
  dsimp only
  rw [filterMap_wouldSend hbody, filterMap_wouldSend hbody, published_doneSteps (hcalm _),
    published_doneSteps (hcalm _), call_actions, call_actions]
  refine ⟨?_, ?_⟩
  · have hnone : (body.clearActions.filterMap fun action =>
        (clearSend tenantSlug deviceSlug ttl action).bind (Send.asCommand .command)) = [] := by
      refine List.filterMap_eq_nil_iff.mpr fun action _ => ?_
      cases action <;> rfl
    rw [hnone, List.append_nil]
    refine commands_iff hempty hagree (fun _ _ _ => rfl) ?_ hfired
    intro action hnot
    cases action with
    | actuatorCommand named actuator value => cases hnot
    | _ => rfl
  · have hnone : body.actions.filterMap
        (fun action => (actionSend tenantSlug deviceSlug ttl action).asCommand .clear) = [] := by
      refine List.filterMap_eq_nil_iff.mpr fun action _ => ?_
      cases action <;> rfl
    rw [hnone, List.nil_append]
    refine commands_iff hempty hagree (fun _ _ _ => rfl) ?_ hcleared
    intro action hnot
    cases action with
    | actuatorCommand named actuator value => cases hnot
    | _ => rfl

end

/-! ## The preview -/

/-- **The preview shows what is sent, exactly when it shows all there is.** For every draft that is
saved as it is, and every firing and clear of the saved rule in which nothing goes wrong. -/
theorem preview_exact_iff [JsonNumber F] (lib : Library F) (py : Pydantic F) (js : Js F)
    (draft : RuleDraft F) (tenantSlug : String) (deviceSlug : Uuid → Option String) (ttl : Nat)
    (e : Episode F) (hempty : ∀ text, py.parseUuid text ≠ some "")
    (hsaved : SavedRule lib py js draft e.rule) (hcalm : ∀ edge, (e.world edge).Calm)
    (hsucceeds : e.outside.Succeeds) (hagree : SlugsAgree py tenantSlug deviceSlug e) :
    shownIn (wouldSend tenantSlug deviceSlug ttl js draft) = e.sent ↔ ShowsAll draft e := by
  obtain ⟨body, hbody, hfired, hcleared⟩ := hsaved.actions
  replace hfired : List.Forall₂ (StoredAs py) body.actions (e.actions .fire) := hfired
  replace hcleared : List.Forall₂ (StoredAs py) body.clearActions (e.actions .clear) := hcleared
  obtain ⟨hfiredDevices, hclearedDevices⟩ := devices_of_request hbody
  obtain ⟨hfiredNotices, hclearedNotices⟩ := notices_of_request hbody
  rw [configured_eq hfired] at hfiredNotices
  rw [configured_eq hcleared] at hclearedNotices
  have hnotices := notifications_iff tenantSlug deviceSlug ttl hbody hcalm hfired hcleared
  have hdeliveries := deliveries_iff tenantSlug deviceSlug ttl hbody hcalm hsucceeds hfired
  rw [besides_nil_iff, ← undelivered_iff hcleared, deliveries_of_request hbody] at hdeliveries
  obtain ⟨hcommands, hclears⟩ := published_iff ttl hbody hempty hagree hcalm hfired hcleared
  rw [hfiredDevices] at hcommands
  rw [hclearedDevices] at hclears
  constructor
  · intro heq
    obtain ⟨honeFired, honeCleared⟩ := hnotices.mp (congrArg Channels.notifications heq)
    obtain ⟨hundelivered, hfiredAlerts, hclearedAlerts⟩ :=
      hdeliveries.mp ⟨congrArg Channels.emails heq, congrArg Channels.webhooks heq⟩
    refine ⟨hcommands.mp (congrArg Channels.commands heq), hclears.mp (congrArg Channels.clears heq),
      hundelivered, ?_, ?_, ?_⟩
    · rw [← hfiredNotices, List.length_map]
      exact honeFired
    · rw [← hclearedNotices, List.length_map]
      exact honeCleared
    · rw [List.forall_mem_append, ← hfiredNotices, ← hclearedNotices]
      exact ⟨(alerts_nil_iff honeFired).mp hfiredAlerts,
        (alerts_nil_iff honeCleared).mp hclearedAlerts⟩
  · intro h
    have honeFired : (e.configured .fire).length ≤ 1 := by
      have hone := h.oneFired
      rw [← hfiredNotices, List.length_map] at hone
      exact hone
    have honeCleared : (e.configured .clear).length ≤ 1 := by
      have hone := h.oneCleared
      rw [← hclearedNotices, List.length_map] at hone
      exact hone
    have hunmailed := h.unmailed
    rw [List.forall_mem_append, ← hfiredNotices, ← hclearedNotices] at hunmailed
    obtain ⟨hemails, hwebhooks⟩ := hdeliveries.mpr ⟨h.undelivered,
      (alerts_nil_iff honeFired).mpr hunmailed.1, (alerts_nil_iff honeCleared).mpr hunmailed.2⟩
    exact (Channels.mk.injEq ..).mpr ⟨hcommands.mpr h.fired, hclears.mpr h.cleared, hemails,
      hwebhooks, hnotices.mpr ⟨honeFired, honeCleared⟩⟩

/-! ## A fan, and the mail when it is off again -/

def baySlug (id : Uuid) : Option String := if id = "ours" then some "bay-1" else none

/-- A firing and a clear by the readings of that device. -/
def bayEpisode (rule : StoredRule Int) : Episode Int :=
  { rule := rule
    device := fun _ => some ("ours", "acme", "bay-1")
    source := fun _ => .metric
    summary := fun _ => "temperature goes above 30."
    world := fun _ => calmWorld
    outside := answering }

theorem bayEpisode_agrees (rule : StoredRule Int) :
    SlugsAgree Api.plainPydantic "acme" baySlug (bayEpisode rule) where
  uuids := by
    intro id slug h
    obtain ⟨hid, h⟩ := Option.ite_none_right_eq_some.mp h
    subst hid
    rfl
  named := by
    intro id h
    obtain ⟨-, h⟩ := Option.ite_none_right_eq_some.mp h
    exact absurd (Option.some.inj h) (by decide)
  device := by
    intro edge target h
    cases h
    exact ⟨rfl, rfl⟩
  rows := by
    intro edge id row h
    cases h

theorem answering_succeeds : answering.Succeeds := ⟨by decide, fun _ _ => rfl⟩

theorem plainPydantic_reads (text : String) : Api.plainPydantic.parseUuid text ≠ some "" := by
  unfold plainPydantic
  dsimp only
  split
  · exact nofun
  · rename_i hne
    exact fun heq => hne (Option.some.inj heq)

/-- A fan that turns off again, an email and a notification. -/
def bayDraft : RuleDraft Int :=
  { name := "Overheating"
    enabled := true
    trigger := ⟨.metric, "0 8 * * *", "UTC", "", .disconnected⟩
    condition := some (.contact (contactFromLeaf plainJs
      ⟨some "ours", "temperature", .compare .gt (.static 30) 1⟩))
    behaviour := .rearm
    forDuration := 10
    cooldown := 60
    clearDelay := 0
    actions :=
      [.actuator { actuatorFromApi (some "ours") "fan1" (.bool true) with revertOnClear := true },
        .email "owner@example.com" "Hot" "Above 30",
        .notification "Too hot"]
    clearNotify := true
    clearMessage := "Cool again"
    preserved := {} }

/-- The rule it is saved as. -/
def bayRule : StoredRule Int :=
  { id := "rule"
    tenantId := "tenant"
    name := "Overheating"
    description := none
    trigger := .metric
    condition := some (.leaf ⟨some "ours", "temperature", .compare .gt (.static 30) 1⟩)
    executionPolicy := { forDuration := 10, cooldown := 60 }
    actions :=
      [.actuatorCommand (some "ours") "fan1" (.bool true),
        .email ["owner@example.com"] "Hot" "Above 30",
        .notification "Too hot" [.platform]]
    clearActions :=
      [.actuatorCommand (some "ours") "fan1" (.bool false), .notification "Cool again" [.platform]]
    enabled := true }

theorem bayDraft_saved :
    SavedRule Api.plainLibrary Api.plainPydantic plainJs bayDraft bayRule := by
  have hwrite : ∃ db', persistRule Api.plainLibrary twoTenants bayRule = .ok (db', bayRule) :=
    ⟨_, rfl⟩
  obtain ⟨db', hwrite⟩ := hwrite
  exact .created rfl rfl hwrite

/-- The preview of the fan is exact. -/
theorem preview_exact_fan :
    shownIn (wouldSend "acme" baySlug 30 plainJs bayDraft) = (bayEpisode bayRule).sent := by
  refine (preview_exact_iff Api.plainLibrary Api.plainPydantic plainJs bayDraft "acme" baySlug 30
    (bayEpisode bayRule) plainPydantic_reads bayDraft_saved (fun _ => ⟨fun _ => rfl, rfl⟩)
    answering_succeeds (bayEpisode_agrees bayRule)).mpr ?_
  refine ⟨?_, ?_, nofun, by decide, by decide, by decide⟩
  · intro named hnamed
    cases List.mem_singleton.mp hnamed
    exact ⟨"ours", rfl, .inl rfl⟩
  · intro named hnamed
    cases List.mem_singleton.mp hnamed
    exact ⟨"ours", rfl, .inl rfl⟩

/-- A fan, and on clear the fan and an email. -/
def mailBody : RuleBody Int :=
  { aboveThirty [.actuatorCommand (some "ours") "fan1" (.bool true)] with
    clearActions :=
      [.actuatorCommand (some "ours") "fan1" (.bool false),
        .email ["owner@example.com"] "Cool again" "Below 30"] }

/-- The rule it is stored as. -/
def mailRule : StoredRule Int :=
  { bayRule with
    executionPolicy := {}
    actions := [.actuatorCommand (some "ours") "fan1" (.bool true)]
    clearActions :=
      [.actuatorCommand (some "ours") "fan1" (.bool false),
        .email ["owner@example.com"] "Cool again" "Below 30"] }

/-- **The email of a clear is sent and never shown**: the editor keeps it, saves the rule as it was,
and lists a command and its revert. -/
theorem clear_mail_unannounced :
    StoredFrom mailBody mailRule ∧ blockingIssues plainJs (draftFromRule plainJs mailRule) = [] ∧
    SavedRule Api.plainLibrary Api.plainPydantic plainJs (draftFromRule plainJs mailRule) mailRule ∧
    (∀ edge, ((bayEpisode mailRule).world edge).Calm) ∧ answering.Succeeds ∧
    SlugsAgree Api.plainPydantic "acme" baySlug (bayEpisode mailRule) ∧
    (bayEpisode mailRule).sent.emails = [("owner@example.com", "Cool again")] ∧
    shownIn (wouldSend "acme" baySlug 30 plainJs (draftFromRule plainJs mailRule)) ≠
      (bayEpisode mailRule).sent := by
  have hstored : StoredFrom mailBody mailRule := ⟨_, _, rfl, rfl⟩
  have hsent : (bayEpisode mailRule).sent.emails = [("owner@example.com", "Cool again")] := rfl
  refine ⟨hstored, by decide, ?_, fun _ => ⟨fun _ => rfl, rfl⟩, answering_succeeds,
    bayEpisode_agrees mailRule, hsent, ?_⟩
  · have hupdate : ∃ db', updateRule Api.plainLibrary
        { twoTenants with rules := [mailRule] } "tenant" "rule"
        { name := some "Overheating"
          trigger := some .metric
          condition := mailRule.condition
          executionPolicy := some {}
          actions := some mailRule.actions
          clearActions := some mailRule.clearActions
          enabled := some true } = .ok (db', mailRule) := ⟨_, rfl⟩
    obtain ⟨db', hupdate⟩ := hupdate
    exact .updated rfl rfl hupdate
  · intro heq
    have hnone : (shownIn (wouldSend "acme" baySlug 30 plainJs
      (draftFromRule plainJs mailRule))).emails = [] := rfl
    rw [heq, hsent] at hnone
    cases hnone

end IotSaas.Editor
