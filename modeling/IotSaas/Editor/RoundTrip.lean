import IotSaas.Api.Closure
import IotSaas.Editor.ConditionTrip

/-!
# `Editor/RoundTrip.lean` — opening a rule and saving it

`draftToRequest` of `draftFromRule`. What comes back is the rule as the editor means it
(`Resaved`): texts trimmed, an event without a hold, a reset tree only where a strategy reads one, a
mailed notification as two actions, and clear actions in the order of the actions they turn back.

The draft has no slot for a few things, and they do not come back: `ActionKept` and `ClearsKept` say
that an action, and the clear actions, have none of them.
-/

set_option autoImplicit false

namespace IotSaas.Editor

open Lib Rules Api

variable {F : Type} [JsonNumber F] {py : Pydantic F} {js : Js F}

/-! ## Actions -/

/-- **What an action is saved as.** -/
inductive SavedAs (ruleName : String) : Action F → List (ActionBody F) → Prop where
  | actuatorCommand (deviceId : Option Uuid) (actuator : String) (value : CommandValue F) :
      SavedAs ruleName (.actuatorCommand deviceId actuator value)
        [.actuatorCommand deviceId (jsTrim actuator) value]
  | email (recipients : List String) (subject body : String) :
      SavedAs ruleName (.email recipients subject body)
        [.email recipients (jsTrim subject) (jsTrim body)]
  | webhook {config : WebhookConfig F} {members : List (String × Json F)}
      (body : Json.Same SameNumber (.obj config.body) (.obj members)) :
      SavedAs ruleName (.webhook config)
        [.webhook (jsTrim config.url) (.obj members) config.retry config.timeoutS]
  | notification (message : String) {channels : List NotificationChannel}
      (platform : channels.contains .email = false) :
      SavedAs ruleName (.notification message channels)
        [.notification (jsTrim message) [.platform]]
  | mailed (message : String) {channels : List NotificationChannel}
      (mail : channels.contains .email = true) :
      SavedAs ruleName (.notification message channels)
        [.notification (jsTrim message) [.platform],
          .email [] (jsTrim ("[" ++ ruleName ++ "] alert")) (jsTrim message)]

/-- What a recipient list is split at. -/
def isSeparator (c : Char) : Bool := c = ',' || c = ';' || isJsSpace c

/-- **What comes back of an action**: it names its device, its recipients are not split, and its
webhook has the default delivery. -/
def ActionKept (action : Action F) : Prop :=
  match action with
  | .actuatorCommand deviceId _ _ => deviceId.isSome
  | .email recipients _ _ => ∀ r ∈ recipients, ∀ c ∈ r.toList, isSeparator c = false
  | .webhook config => config.retry.isNone ∧ config.timeoutS.isNone
  | .notification _ _ => True

/-- JavaScript reads an object it printed. -/
structure BodyReadsBack (js : Js F) (members : List (String × Json F)) : Prop where
  printed : jsTrim (js.stringify (.obj members)) = js.stringify (.obj members)
  shown : js.stringify (.obj members) ≠ ""
  parsed : ∃ members', js.parseJson (js.stringify (.obj members)) = some (.obj members') ∧
    Json.Same SameNumber (.obj members) (.obj members')

theorem parseRecipients_joined {recipients : List String}
    (h : ∀ r ∈ recipients, r ≠ "" ∧ ∀ c ∈ r.toList, isSeparator c = false) :
    parseRecipients (", ".intercalate recipients) = recipients := by
  have hpieces : ((", ".intercalate recipients).toList.splitOnP isSeparator).filter
      (fun piece => !piece.isEmpty) = recipients.map String.toList := by
    rw [String.toList_intercalate]
    refine filter_splitOnP_intercalate rfl rfl ?_
    intro piece hpiece
    obtain ⟨r, hr, rfl⟩ := List.mem_map.mp hpiece
    refine ⟨?_, (h r hr).2⟩
    intro hnil
    exact (h r hr).1 (String.toList_inj.mp hnil)
  have hempty : (fun piece : List Char => !piece.isEmpty) =
      (fun piece : String => decide (piece ≠ "")) ∘ String.ofList := by
    funext piece
    cases piece with
    | nil => rfl
    | cons c rest => simp
  show pieces isSeparator _ = _
  unfold pieces
  rw [List.filter_map, ← hempty, hpieces, List.map_map]
  simp

/-- **An action through the editor.** -/
theorem action_trip (js : Js F) (ruleName : String) {action : Action F}
    (hrecipients : ∀ recipients subject body, action = .email recipients subject body →
      ∀ r ∈ recipients, r ≠ "")
    (hbody : ∀ config, action = .webhook config → BodyReadsBack js config.body) :
    ∃ part, actionsToApi js (actionFromApi js ruleName action) = some part ∧
      (ActionKept action → SavedAs ruleName action part) := by
  cases action with
  | actuatorCommand deviceId actuator value =>
    have hsent : actionsToApi js (actionFromApi js ruleName
        (.actuatorCommand deviceId actuator value)) =
        some [.actuatorCommand (some (deviceText deviceId)) (jsTrim actuator) value] := by
      cases value <;> rfl
    refine ⟨_, hsent, fun hkept => ?_⟩
    obtain ⟨id, rfl⟩ := Option.isSome_iff_exists.mp hkept
    exact .actuatorCommand (some id) actuator value
  | notification message channels =>
    cases hmail : channels.contains .email with
    | true =>
      refine ⟨_, ?_, fun _ => .mailed message hmail⟩
      rw [actionFromApi, hmail]
      rfl
    | false =>
      refine ⟨_, ?_, fun _ => .notification message hmail⟩
      rw [actionFromApi, hmail]
      rfl
  | webhook config =>
    have hread := hbody config rfl
    obtain ⟨members, hparsed, hsame⟩ := hread.parsed
    have htext : webhookText (js.stringify (.obj config.body)) =
        js.stringify (.obj config.body) := by
      rw [webhookText, hread.printed, if_neg hread.shown]
    refine ⟨[.webhook (jsTrim config.url) (.obj members) none none], ?_, fun hkept => ?_⟩
    · simp [actionFromApi, actionsToApi, actionToApi, htext, hparsed]
    · obtain ⟨hretry, htimeout⟩ := hkept
      have hsaved : SavedAs ruleName (.webhook config) _ := .webhook hsame
      rwa [Option.isNone_iff_eq_none.mp hretry, Option.isNone_iff_eq_none.mp htimeout] at hsaved
  | email recipients subject body =>
    refine ⟨[.email (parseRecipients (", ".intercalate recipients)) (jsTrim subject) (jsTrim body)],
      rfl, fun hkept => ?_⟩
    rw [parseRecipients_joined fun r hr =>
      ⟨hrecipients recipients subject body rfl r hr, hkept r hr⟩]
    exact .email recipients subject body

omit [JsonNumber F] in
theorem actionsToApi_append {first second : List (ActionDraft F)} {a b : List (ActionBody F)}
    (ha : actionsToApi js first = some a) (hb : actionsToApi js second = some b) :
    actionsToApi js (first ++ second) = some (a ++ b) := by
  induction first generalizing a with
  | nil =>
    cases ha
    exact hb
  | cons action rest ih =>
    rw [actionsToApi] at ha
    split at ha
    · rename_i body bodies hbody hbodies
      cases ha
      rw [List.cons_append, actionsToApi, hbody, ih hbodies]
      rfl
    · cases ha

/-- **The actions through the editor**, in their order. -/
theorem actions_trip (js : Js F) (ruleName : String) : ∀ {actions : List (Action F)},
    (∀ recipients subject body, Action.email recipients subject body ∈ actions →
      ∀ r ∈ recipients, r ≠ "") →
    (∀ config, Action.webhook config ∈ actions → BodyReadsBack js config.body) →
    ∃ parts, List.Forall₂ (fun action part => ActionKept action → SavedAs ruleName action part)
        actions parts ∧
      actionsToApi js (actions.flatMap (actionFromApi js ruleName)) = some parts.flatten
  | [], _, _ => ⟨[], .nil, rfl⟩
  | action :: rest, hrecipients, hbodies => by
      obtain ⟨part, hpart, hsaved⟩ := action_trip js ruleName
        (fun r s b heq => hrecipients r s b (heq ▸ List.mem_cons_self))
        fun config heq => hbodies config (heq ▸ List.mem_cons_self)
      obtain ⟨parts, hsaveds, hparts⟩ := actions_trip js ruleName
        (fun r s b hmem => hrecipients r s b (List.mem_cons_of_mem _ hmem))
        fun config hmem => hbodies config (List.mem_cons_of_mem _ hmem)
      exact ⟨part :: parts, .cons hsaved hsaveds, actionsToApi_append hpart hparts⟩

/-! ## Clear actions -/

def kindOf (value : CommandValue F) : ValueKind :=
  match value with
  | .bool _ => .boolean
  | .float _ => .number
  | .str _ => .text

/-- The kind of the value a command sends to this actuator. -/
def commandKind (device actuator : String) (action : Action F) : Option ValueKind :=
  match action with
  | .actuatorCommand deviceId a value =>
      if deviceText deviceId = device ∧ a = actuator then some (kindOf value) else none
  | _ => none

/-- The text of a notification that is not mailed. -/
def unmailed (action : Action F) : Option String :=
  match action with
  | .notification message channels => if channels.contains .email then none else some message
  | _ => none

/-- **What a clear action is saved as**: passed through, or what the editor makes of it. -/
inductive ClearedAs : Action F → ActionBody F → Prop where
  | passed (action : Action F) : ClearedAs action (actionToBody action)
  | turnedBack (deviceId : Option Uuid) (actuator : String) (value : CommandValue F) :
      ClearedAs (.actuatorCommand deviceId actuator value)
        (.actuatorCommand deviceId (jsTrim actuator) value)
  | notification (message : String) {channels : List NotificationChannel}
      (platform : channels.contains .email = false) :
      ClearedAs (.notification message channels) (.notification (jsTrim message) [.platform])

/-- The kind of an action that a clear command to this actuator would turn back. -/
def openKind (device actuator : String) (action : ActionDraft F) : Option ValueKind :=
  match action with
  | .actuator a =>
      if a.revertOnClear = false ∧ a.actuator = actuator ∧ a.deviceId = device then
        some a.valueKind
      else none
  | _ => none

/-- The clear actions a fold holds so far. -/
def cleared (fold : ClearFold F) : List (ActionBody F) :=
  fold.actions.filterMap revertAction ++ clearNotification fold.clearNotify fold.clearMessage ++
    fold.preserved.map actionToBody

/-- **What the fold needs of the clear actions to come**: each that turns an action back has a value
of its kind, and the notification has a text. -/
structure Ready (fold : ClearFold F) (coming : List (Action F)) : Prop where
  kinds : ∀ device actuator, ∀ pair ∈ (fold.actions.filterMap (openKind device actuator)).zip
    (coming.filterMap (commandKind device actuator)), pair.1 = pair.2
  message : fold.clearNotify = false → ∀ message ∈ coming.findSome? unmailed, jsTrim message ≠ ""
  devices : ∀ a, ActionDraft.actuator a ∈ fold.actions → a.deviceId ≠ ""

variable {deviceId : Option Uuid} {actuator : String} {value : CommandValue F}

omit [JsonNumber F] in
theorem adoptClear_some {actions actions' : List (ActionDraft F)}
    (h : adoptClear deviceId actuator value actions = some actions') :
    ∃ before a after, actions = before ++ .actuator a :: after ∧
      before.filterMap (openKind (deviceText deviceId) actuator) = [] ∧
      (a.revertOnClear = false ∧ a.actuator = actuator ∧ a.deviceId = deviceText deviceId) ∧
      actions' = before ++ .actuator (turnBack a value) :: after := by
  induction actions generalizing actions' with
  | nil => cases h
  | cons action rest ih =>
    -- an action that is skipped goes in front of what is found behind it
    have hskip : openKind (deviceText deviceId) actuator action = none →
        (adoptClear deviceId actuator value rest).map (action :: ·) = some actions' →
        ∃ before a after, action :: rest = before ++ .actuator a :: after ∧
          before.filterMap (openKind (deviceText deviceId) actuator) = [] ∧
          (a.revertOnClear = false ∧ a.actuator = actuator ∧
            a.deviceId = deviceText deviceId) ∧
          actions' = before ++ .actuator (turnBack a value) :: after := by
      intro hkind hmap
      obtain ⟨rest', hrest, rfl⟩ := Option.map_eq_some_iff.mp hmap
      obtain ⟨before, a, after, rfl, hbefore, hmatch, rfl⟩ := ih hrest
      exact ⟨action :: before, a, after, rfl, by rw [List.filterMap_cons_none hkind, hbefore],
        hmatch, rfl⟩
    cases action with
    | actuator a =>
      rw [adoptClear] at h
      split at h
      · rename_i hmatch
        cases h
        exact ⟨[], a, rest, rfl, rfl, hmatch, rfl⟩
      · rename_i hmatch
        exact hskip (by rw [openKind, if_neg hmatch]) h
    | email recipients subject body => exact hskip rfl h
    | webhook url body => exact hskip rfl h
    | notification message => exact hskip rfl h

variable {a : ActuatorActionDraft F}

omit [JsonNumber F] in
theorem revertAction_turnBack (h : a.valueKind = kindOf value) :
    revertAction (.actuator (turnBack a value)) =
      some (.actuatorCommand (some a.deviceId) (jsTrim a.actuator) value) := by
  cases value with
  | bool b => simp [revertAction, turnBack, actuatorClearValue, h, kindOf]
  | float f => simp [revertAction, turnBack, actuatorClearValue, h, kindOf]
  | str s => simp [revertAction, turnBack, actuatorClearValue, h, kindOf]

omit [JsonNumber F] in
theorem turnBack_deviceId (a : ActuatorActionDraft F) (value : CommandValue F) :
    (turnBack a value).deviceId = a.deviceId := by
  cases value <;> rfl

omit [JsonNumber F] in
theorem adoptClear_none {actions : List (ActionDraft F)}
    (h : adoptClear deviceId actuator value actions = none) :
    actions.filterMap (openKind (deviceText deviceId) actuator) = [] := by
  induction actions with
  | nil => rfl
  | cons action rest ih =>
    cases action with
    | actuator a =>
      rw [adoptClear] at h
      split at h
      · cases h
      · rename_i hmatch
        rw [List.filterMap_cons_none (by rw [openKind, if_neg hmatch])]
        exact ih (Option.map_eq_none_iff.mp h)
    | email recipients subject body => exact ih (Option.map_eq_none_iff.mp h)
    | webhook url body => exact ih (Option.map_eq_none_iff.mp h)
    | notification message => exact ih (Option.map_eq_none_iff.mp h)

omit [JsonNumber F] in
theorem cleared_pass (fold : ClearFold F) (action : Action F) :
    (cleared { fold with preserved := fold.preserved ++ [action] }).Perm
      (actionToBody action :: cleared fold) := by
  unfold cleared
  rw [List.map_append, ← List.append_assoc]
  exact List.perm_append_singleton _ _

variable {fold : ClearFold F} {coming : List (Action F)}

omit [JsonNumber F] in
/-- A clear action that is passed through leaves the rest to come. -/
theorem Ready.pass {action : Action F}
    (h : Ready fold (action :: coming))
    (hkinds : ∀ device actuator, ∀ pair ∈ (fold.actions.filterMap (openKind device actuator)).zip
      (coming.filterMap (commandKind device actuator)), pair.1 = pair.2)
    (hmessage : fold.clearNotify = false →
      (action :: coming).findSome? unmailed = coming.findSome? unmailed) :
    Ready { fold with preserved := fold.preserved ++ [action] } coming := by
  refine ⟨hkinds, ?_, h.devices⟩
  intro hnone message hmem
  exact h.message hnone message (by rwa [hmessage hnone])

variable {before after : List (ActionDraft F)}

omit [JsonNumber F] in
/-- The kinds that are open after a clear command has found its action. -/
theorem openKinds_turnBack {device actuator : String} :
    (before ++ .actuator (turnBack a value) :: after).filterMap (openKind device actuator) =
      before.filterMap (openKind device actuator) ++
        after.filterMap (openKind device actuator) := by
  have hclosed : openKind device actuator (.actuator (turnBack a value)) = none := by
    cases value <;> simp [openKind, turnBack]
  rw [List.filterMap_append, List.filterMap_cons_none hclosed]

omit [JsonNumber F] in
theorem filterMap_commandKind (deviceId : Option Uuid) (actuator : String) (value : CommandValue F)
    (coming : List (Action F)) (device name : String) :
    (Action.actuatorCommand deviceId actuator value :: coming).filterMap (commandKind device name) =
      if deviceText deviceId = device ∧ actuator = name then
        kindOf value :: coming.filterMap (commandKind device name)
      else coming.filterMap (commandKind device name) := by
  split
  · rename_i htarget
    rw [List.filterMap_cons_some (by rw [commandKind, if_pos htarget])]
  · rename_i htarget
    rw [List.filterMap_cons_none (by rw [commandKind, if_neg htarget])]

omit [JsonNumber F] in
/-- The notification the editor has a field for. -/
theorem Ready.notify {message : String} {channels : List NotificationChannel}
    (h : Ready fold (.notification message channels :: coming)) (hnotify : fold.clearNotify = false)
    (hplatform : channels.contains .email = false) :
    (cleared { fold with clearNotify := true, clearMessage := message }).Perm
        (.notification (jsTrim message) [.platform] :: cleared fold) ∧
      Ready { fold with clearNotify := true, clearMessage := message } coming := by
  refine ⟨?_, h.kinds, ?_, h.devices⟩
  · have hmessage : jsTrim message ≠ "" := by
      refine h.message hnotify message ?_
      rw [List.findSome?_cons, unmailed, hplatform]
      rfl
    have hnew : clearNotification true message =
        [(.notification (jsTrim message) [.platform] : ActionBody F)] := by
      rw [clearNotification, if_pos ⟨rfl, hmessage⟩]
    have hold : clearNotification false fold.clearMessage = ([] : List (ActionBody F)) := rfl
    unfold cleared
    rw [hnotify, hnew, hold, List.append_nil, List.append_assoc]
    exact List.perm_middle
  · intro hfalse
    cases hfalse

omit [JsonNumber F] in
/-- The kinds a command and the first action open to it are of. -/
theorem Ready.head (h : Ready fold (.actuatorCommand deviceId actuator value :: coming))
    (hactions : fold.actions = before ++ .actuator a :: after)
    (hbefore : before.filterMap (openKind (deviceText deviceId) actuator) = [])
    (hopen : openKind (deviceText deviceId) actuator (.actuator a) = some a.valueKind) :
    a.valueKind = kindOf value ∧
      ∀ pair ∈ (after.filterMap (openKind (deviceText deviceId) actuator)).zip
        (coming.filterMap (commandKind (deviceText deviceId) actuator)), pair.1 = pair.2 := by
  have hkinds := h.kinds (deviceText deviceId) actuator
  rw [filterMap_commandKind, if_pos ⟨rfl, rfl⟩, hactions, List.filterMap_append, hbefore,
    List.filterMap_cons_some hopen, List.nil_append, List.zip_cons_cons,
    List.forall_mem_cons] at hkinds
  exact hkinds

omit [JsonNumber F] in
/-- A command that turns an action back. -/
theorem Ready.turnedBack
    (h : Ready fold (.actuatorCommand deviceId actuator value :: coming))
    (hactions : fold.actions = before ++ .actuator a :: after)
    (hbefore : before.filterMap (openKind (deviceText deviceId) actuator) = [])
    (hmatch : a.revertOnClear = false ∧ a.actuator = actuator ∧
      a.deviceId = deviceText deviceId) :
    (cleared { fold with actions := before ++ .actuator (turnBack a value) :: after }).Perm
        (.actuatorCommand deviceId (jsTrim actuator) value :: cleared fold) ∧
      Ready { fold with actions := before ++ .actuator (turnBack a value) :: after } coming := by
  have hhead : openKind (deviceText deviceId) actuator (.actuator a) = some a.valueKind := by
    rw [openKind, if_pos hmatch]
  obtain ⟨hkind, hrest⟩ := h.head hactions hbefore hhead
  obtain ⟨hopen, hactuator, hdevice⟩ := hmatch
  refine ⟨?_, ?_, h.message, ?_⟩
  · have hold : revertAction (.actuator a) = none := by
      rw [revertAction, if_neg (by simp [hopen])]
    have hid : deviceId = some a.deviceId := by
      have hne := h.devices a (by simp [hactions])
      cases deviceId with
      | none => exact absurd hdevice hne
      | some id => rw [hdevice]; rfl
    unfold cleared
    rw [hactions, List.filterMap_append, List.filterMap_append,
      List.filterMap_cons_some (revertAction_turnBack hkind), List.filterMap_cons_none hold,
      ← hid, hactuator]
    simp only [List.append_assoc, List.cons_append]
    exact List.perm_middle
  · intro device name pair hpair
    rw [openKinds_turnBack] at hpair
    by_cases htarget : deviceText deviceId = device ∧ actuator = name
    · obtain ⟨rfl, rfl⟩ := htarget
      rw [hbefore, List.nil_append] at hpair
      exact hrest pair hpair
    · have hother : openKind device name (.actuator a) = none := by
        rw [openKind, if_neg]
        rintro ⟨-, hname, hid⟩
        exact htarget ⟨by rw [← hdevice, hid], by rw [← hactuator, hname]⟩
      have hkinds := h.kinds device name
      rw [hactions, List.filterMap_append, List.filterMap_cons_none hother, filterMap_commandKind,
        if_neg htarget] at hkinds
      exact hkinds pair hpair
  · intro x hx
    rcases List.mem_append.mp hx with hx | hx
    · exact h.devices x (by simp [hactions, hx])
    · rcases List.mem_cons.mp hx with hx | hx
      · cases hx
        rw [turnBack_deviceId]
        exact h.devices a (by simp [hactions])
      · exact h.devices x (by simp [hactions, hx])

omit [JsonNumber F] in
/-- **One turn of the fold** loses nothing and is ready for the next. -/
theorem foldClear_step {action : Action F} (h : Ready fold (action :: coming)) :
    ∃ body, ClearedAs action body ∧
      (cleared (foldClear fold action)).Perm (body :: cleared fold) ∧
      Ready (foldClear fold action) coming := by
  cases action with
  | webhook config =>
    exact ⟨_, .passed _, cleared_pass fold _, h.pass h.kinds fun _ => rfl⟩
  | email recipients subject body =>
    exact ⟨_, .passed _, cleared_pass fold _, h.pass h.kinds fun _ => rfl⟩
  | notification message channels =>
    unfold foldClear
    dsimp only
    split
    · rename_i htaken
      exact ⟨_, .notification message htaken.2, h.notify htaken.1 htaken.2⟩
    · rename_i hkept
      refine ⟨_, .passed _, cleared_pass fold _, h.pass h.kinds fun hnotify => ?_⟩
      cases hmail : channels.contains .email with
      | true => rw [List.findSome?_cons, unmailed, hmail, if_pos rfl]
      | false => exact absurd ⟨hnotify, hmail⟩ hkept
  | actuatorCommand deviceId actuator value =>
    unfold foldClear
    dsimp only
    split
    · rename_i actions hadopted
      obtain ⟨before, a, after, hactions, hbefore, hmatch, rfl⟩ := adoptClear_some hadopted
      exact ⟨_, .turnedBack deviceId actuator value, h.turnedBack hactions hbefore hmatch⟩
    · rename_i hnone
      refine ⟨_, .passed _, cleared_pass fold _, h.pass ?_ fun _ => rfl⟩
      intro device name pair hpair
      by_cases htarget : deviceText deviceId = device ∧ actuator = name
      · -- no action is open to this command
        obtain ⟨rfl, rfl⟩ := htarget
        rw [adoptClear_none hnone] at hpair
        cases hpair
      · have hkinds := h.kinds device name
        rw [filterMap_commandKind, if_neg htarget] at hkinds
        exact hkinds pair hpair

omit [JsonNumber F] in
/-- **The whole fold** loses nothing. -/
theorem foldClear_run : ∀ {actions : List (Action F)} {fold : ClearFold F}, Ready fold actions →
    ∃ bodies, List.Forall₂ ClearedAs actions bodies ∧
      (cleared (actions.foldl foldClear fold)).Perm (bodies ++ cleared fold)
  | [], fold, _ => ⟨[], .nil, .refl _⟩
  | action :: coming, fold, h => by
      obtain ⟨body, hbody, hstep, hready⟩ := foldClear_step h
      obtain ⟨bodies, hbodies, hrun⟩ := foldClear_run hready
      refine ⟨body :: bodies, .cons hbody hbodies, ?_⟩
      exact (hrun.trans (hstep.append_left bodies)).trans List.perm_middle

omit [JsonNumber F] in
theorem actionsToApi_replace {x y : ActionDraft F} (h : actionToApi js x = actionToApi js y)
    (before after : List (ActionDraft F)) :
    actionsToApi js (before ++ x :: after) = actionsToApi js (before ++ y :: after) := by
  induction before with
  | nil => rw [List.nil_append, List.nil_append, actionsToApi, actionsToApi, h]
  | cons action rest ih => rw [List.cons_append, List.cons_append, actionsToApi, actionsToApi, ih]

omit [JsonNumber F] in
/-- Turning an action back does not change what it does on firing. -/
theorem foldClear_actions (fold : ClearFold F) (action : Action F) :
    actionsToApi js (foldClear fold action).actions = actionsToApi js fold.actions := by
  cases action with
  | webhook config => rfl
  | email recipients subject body => rfl
  | notification message channels =>
    unfold foldClear
    dsimp only
    split <;> rfl
  | actuatorCommand deviceId actuator value =>
    unfold foldClear
    dsimp only
    split
    · rename_i actions hadopted
      obtain ⟨before, a, after, hactions, -, -, rfl⟩ := adoptClear_some hadopted
      rw [hactions]
      refine actionsToApi_replace ?_ before after
      cases value <;> rfl
    · rfl

omit [JsonNumber F] in
theorem foldl_foldClear_actions (actions : List (Action F)) (fold : ClearFold F) :
    actionsToApi js (actions.foldl foldClear fold).actions = actionsToApi js fold.actions := by
  induction actions generalizing fold with
  | nil => rfl
  | cons action rest ih => rw [List.foldl_cons, ih, foldClear_actions]

/-! ### Before the fold -/

/-- What the fold starts from. -/
def opened (js : Js F) (rule : StoredRule F) : ClearFold F :=
  { actions := rule.actions.flatMap (actionFromApi js rule.name) }

theorem opened_kind (ruleName : String) (device actuator : String) (action : Action F) :
    (actionFromApi js ruleName action).filterMap (openKind device actuator) =
      (commandKind device actuator action).toList := by
  cases action with
  | webhook config => rfl
  | email recipients subject body => rfl
  | notification message channels =>
    unfold actionFromApi
    dsimp only
    split <;> rfl
  | actuatorCommand deviceId a value =>
    have hkind : (actuatorFromApi deviceId a value).valueKind = kindOf value := by
      cases value <;> rfl
    have hopen : openKind device actuator (.actuator (actuatorFromApi deviceId a value)) =
        commandKind device actuator (.actuatorCommand deviceId a value) := by
      rw [openKind, commandKind, hkind]
      refine if_congr ?_ rfl rfl
      show (false = false ∧ a = actuator ∧ deviceText deviceId = device) ↔ _
      rw [eq_self, true_and]
      exact And.comm
    rw [actionFromApi, ← hopen]
    cases h : openKind device actuator (.actuator (actuatorFromApi deviceId a value)) with
    | none => rw [List.filterMap_cons_none h]; rfl
    | some kind => rw [List.filterMap_cons_some h]; rfl

theorem opened_kinds (rule : StoredRule F) (device actuator : String) :
    (opened js rule).actions.filterMap (openKind device actuator) =
      rule.actions.filterMap (commandKind device actuator) := by
  unfold opened
  dsimp only
  induction rule.actions with
  | nil => rfl
  | cons action rest ih =>
    rw [List.flatMap_cons, List.filterMap_append, opened_kind, ih]
    cases h : commandKind device actuator action with
    | none => rw [List.filterMap_cons_none h]; rfl
    | some kind => rw [List.filterMap_cons_some h]; rfl

/-- An action as it is opened: its device is the command's, and it does not revert. -/
theorem mem_opened {rule : StoredRule F} (h : ActionDraft.actuator a ∈ (opened js rule).actions) :
    a.revertOnClear = false ∧ ∃ deviceId actuator value,
      Action.actuatorCommand deviceId actuator value ∈ rule.actions ∧
        a.deviceId = deviceText deviceId := by
  obtain ⟨action, haction, hmem⟩ := List.mem_flatMap.mp h
  cases action with
  | actuatorCommand deviceId actuator value =>
    cases List.mem_singleton.mp hmem
    exact ⟨rfl, deviceId, actuator, value, haction, rfl⟩
  | webhook config => cases List.mem_singleton.mp hmem
  | email recipients subject body => cases List.mem_singleton.mp hmem
  | notification message channels =>
    unfold actionFromApi at hmem
    dsimp only at hmem
    split at hmem <;> simp at hmem

theorem cleared_opened (rule : StoredRule F) : cleared (opened js rule) = [] := by
  have hnone : (opened js rule).actions.filterMap revertAction = [] := by
    refine List.filterMap_eq_nil_iff.mpr ?_
    intro action haction
    cases action with
    | actuator a => rw [revertAction, if_neg (by simp [(mem_opened haction).1])]
    | email recipients subject body => rfl
    | webhook url body => rfl
    | notification message => rfl
  unfold cleared
  rw [hnone]
  rfl

/-! ### The order -/

/-- What a command is sent to. -/
def commandTarget (action : Action F) : Option (String × String) :=
  match action with
  | .actuatorCommand deviceId actuator _ => some (deviceText deviceId, jsTrim actuator)
  | _ => none

def bodyTarget (action : ActionBody F) : Option (String × String) :=
  match action with
  | .actuatorCommand deviceId actuator _ => some (deviceText deviceId, actuator)
  | _ => none

def draftTarget (action : ActionDraft F) : Option (String × String) :=
  match action with
  | .actuator a => some (a.deviceId, jsTrim a.actuator)
  | _ => none

omit [JsonNumber F] in
/-- An action is turned back where it is. -/
theorem bodyTarget_revertAction {action : ActionDraft F} {body : ActionBody F}
    (h : revertAction action = some body) :
    draftTarget action = bodyTarget body ∧ (bodyTarget body).isSome := by
  cases action with
  | actuator a =>
    rw [revertAction] at h
    split at h
    · cases h
      exact ⟨rfl, rfl⟩
    · cases h
  | email recipients subject body => cases h
  | webhook url body => cases h
  | notification message => cases h

omit [JsonNumber F] in
/-- **The actions turned back** come in the order of the actions. -/
theorem reverted_sublist (actions : List (ActionDraft F)) :
    ((actions.filterMap revertAction).map bodyTarget).Sublist
      ((actions.filterMap draftTarget).map some) := by
  induction actions with
  | nil => exact .slnil
  | cons action rest ih =>
    cases hrevert : revertAction action with
    | none =>
      rw [List.filterMap_cons_none hrevert]
      cases htarget : draftTarget action with
      | none => rwa [List.filterMap_cons_none htarget]
      | some target =>
        rw [List.filterMap_cons_some htarget, List.map_cons]
        exact ih.cons _
    | some body =>
      obtain ⟨htarget, hsome⟩ := bodyTarget_revertAction hrevert
      obtain ⟨target, hbody⟩ := Option.isSome_iff_exists.mp hsome
      rw [List.filterMap_cons_some hrevert, List.filterMap_cons_some (htarget.trans hbody),
        List.map_cons, List.map_cons, hbody]
      exact ih.cons_cons _

omit [JsonNumber F] in
/-- One turn moves no action, and passes a clear action through at the end if at all. -/
theorem foldClear_order (fold : ClearFold F) (action : Action F) :
    (foldClear fold action).actions.filterMap draftTarget =
        fold.actions.filterMap draftTarget ∧
      ((foldClear fold action).preserved = fold.preserved ∨
        (foldClear fold action).preserved = fold.preserved ++ [action]) := by
  cases action with
  | webhook config => exact ⟨rfl, .inr rfl⟩
  | email recipients subject body => exact ⟨rfl, .inr rfl⟩
  | notification message channels =>
    unfold foldClear
    dsimp only
    split
    · exact ⟨rfl, .inl rfl⟩
    · exact ⟨rfl, .inr rfl⟩
  | actuatorCommand deviceId actuator value =>
    unfold foldClear
    dsimp only
    split
    · rename_i actions hadopted
      obtain ⟨before, a, after, hactions, -, -, rfl⟩ := adoptClear_some hadopted
      refine ⟨?_, .inl rfl⟩
      have hturned : draftTarget (.actuator (turnBack a value)) = draftTarget (.actuator a) := by
        cases value <;> rfl
      dsimp only
      rw [hactions, List.filterMap_append, List.filterMap_append, List.filterMap_cons,
        List.filterMap_cons, hturned]
    · exact ⟨rfl, .inr rfl⟩

omit [JsonNumber F] in
/-- **The whole fold** moves no action, and passes clear actions through in their order. -/
theorem foldl_foldClear_order : ∀ (actions : List (Action F)) (fold : ClearFold F),
    (actions.foldl foldClear fold).actions.filterMap draftTarget =
        fold.actions.filterMap draftTarget ∧
      ∃ passed, (actions.foldl foldClear fold).preserved = fold.preserved ++ passed ∧
        passed.Sublist actions
  | [], fold => ⟨rfl, [], by simp, .slnil⟩
  | action :: coming, fold => by
      obtain ⟨htargets, hpassed⟩ := foldClear_order fold action
      obtain ⟨hrun, passed, hpreserved, hsub⟩ :=
        foldl_foldClear_order coming (foldClear fold action)
      refine ⟨hrun.trans htargets, ?_⟩
      rw [List.foldl_cons]
      rcases hpassed with hsame | hone
      · exact ⟨passed, by rw [hpreserved, hsame], hsub.cons _⟩
      · exact ⟨action :: passed, by rw [hpreserved, hone, List.append_assoc]; rfl,
          hsub.cons_cons _⟩

theorem opened_targets (rule : StoredRule F) :
    (opened js rule).actions.filterMap draftTarget = rule.actions.filterMap commandTarget := by
  unfold opened
  dsimp only
  induction rule.actions with
  | nil => rfl
  | cons action rest ih =>
    rw [List.flatMap_cons, List.filterMap_append, ih]
    cases action with
    | actuatorCommand deviceId actuator value => rfl
    | webhook config => rfl
    | email recipients subject body => rfl
    | notification message channels =>
      unfold actionFromApi
      dsimp only
      split <;> rfl

/-! ## The rule -/

/-- What the libraries are relied on for: a blank text is no time zone, and none a UUID. -/
structure BlankLaws (lib : Library F) (py : Pydantic F) : Prop where
  zone : ∀ timezone, lib.isZone timezone = true → jsTrim timezone ≠ ""
  uuid : py.parseUuid "" = none

/-- **A rule the API can return**: its condition and its actions are valid as they are printed
(`RuleResponse` reads the condition once more on its way out), and it has passed the service's
checks. -/
structure Returned (lib : Library F) (py : Pydantic F) (rule : StoredRule F) : Prop where
  condition : ∀ tree ∈ rule.condition, ReadBack py tree
  actions : ∀ action ∈ rule.actions, (actionToBody action).validate py = some action
  named : assertLeavesHaveDevice rule.condition = .ok ()
  trigger : validateTrigger lib rule.trigger = .ok ()
  clearActions : validateClearActions rule.trigger rule.clearActions = .ok ()

/-- **JavaScript reads back** what the draft holds as a text: the numbers of the sets and the
bodies of the webhooks. -/
structure ReadsBack (js : Js F) (rule : StoredRule F) : Prop where
  sets : ∀ leaf ∈ conditionLeaves rule.condition, SetReadsBack js leaf
  bodies : ∀ config, Action.webhook config ∈ rule.actions → BodyReadsBack js config.body

/-- **The draft has a slot for the clear actions**: a strategy the editor offers to clear with, a
device for every command that may be turned back, a value of its kind to turn it back to, and a text
in the notification. -/
structure ClearsKept (rule : StoredRule F) : Prop where
  strategy : rule.clearActions ≠ [] → rule.executionPolicy.strategy = .edge
  devices : ∀ deviceId actuator value,
    Action.actuatorCommand deviceId actuator value ∈ rule.actions → deviceId.isSome
  kinds : ∀ device actuator, ∀ pair ∈ (rule.actions.filterMap (commandKind device actuator)).zip
    (rule.clearActions.filterMap (commandKind device actuator)), pair.1 = pair.2
  message : ∀ message ∈ rule.clearActions.findSome? unmailed, jsTrim message ≠ ""

def savedTrigger (trigger : Trigger) : TriggerBody :=
  match trigger with
  | .metric => .metric
  | .schedule cron timezone => .schedule (jsTrim cron) (jsTrim timezone)
  | .manual => .manual
  | .deviceStatus deviceId transition => .deviceStatus deviceId transition

/-- **The policy of a rule that is saved**: readings keep it, an event has neither a strategy nor a
hold, only `edge` has a clear delay, and only `latch` and `reset_condition` a reset tree. -/
def savedPolicy (trigger : Trigger) (policy : Api.ExecutionPolicy F) : PolicyBody F :=
  let strategy := if trigger = .metric then policy.strategy else .edge
  { strategy := strategy
    forDuration := JsonNumber.ofNat (if trigger = .metric then policy.forDuration else 0)
    cooldown := JsonNumber.ofNat policy.cooldown
    clearForDuration := JsonNumber.ofNat
      (if trigger = .metric ∧ policy.strategy = .edge then policy.clearForDuration else 0)
    resetCondition :=
      if strategy = .latch ∨ strategy = .resetCondition then policy.resetCondition.map nodeToBody
      else none }

/-- **The same clear actions**: each is there once, first the commands that turn actions back, in
the order of the actions, then the notification, then what is passed through, in its order. -/
structure SameClears (rule : StoredRule F) (sent : List (ActionBody F)) : Prop where
  same : ∃ bodies, List.Forall₂ ClearedAs rule.clearActions bodies ∧ sent.Perm bodies
  order : ∃ (turned note : List (ActionBody F)) (passed : List (Action F)),
    sent = turned ++ note ++ passed.map actionToBody ∧
    (turned.map bodyTarget).Sublist ((rule.actions.filterMap commandTarget).map some) ∧
    (∀ body ∈ note, ∃ message, body = .notification message [.platform]) ∧
    passed.Sublist rule.clearActions

/-- **The same rule**, as far as the editor means it and the draft has a slot for it. -/
structure Resaved (py : Pydantic F) (rule : StoredRule F) (body : RuleBody F) : Prop where
  trigger : body.trigger = savedTrigger rule.trigger
  condition : SameCondition py rule.condition body.condition
  executionPolicy : body.executionPolicy = savedPolicy rule.trigger rule.executionPolicy
  actions : ∃ parts, body.actions = parts.flatten ∧
    List.Forall₂ (fun action part => ActionKept action → SavedAs rule.name action part)
      rule.actions parts
  clearActions : ClearsKept rule → SameClears rule body.clearActions
  enabled : body.enabled = rule.enabled

omit [JsonNumber F] in
theorem trigger_trip {lib : Library F} (blank : BlankLaws lib py) {trigger : Trigger}
    (h : validateTrigger lib trigger = .ok ()) :
    triggerToApi (whenFromTrigger trigger) = savedTrigger trigger := by
  cases trigger with
  | metric => rfl
  | manual => rfl
  | deviceStatus deviceId transition => rfl
  | schedule cron timezone =>
    have hzone : lib.isZone timezone = true := by
      by_contra hzone
      simp only [validateTrigger, hzone] at h
      split at h <;> cases h
    simp [triggerToApi, whenFromTrigger, savedTrigger, blank.zone timezone hzone]

theorem policy_trip (rule : StoredRule F) :
    policyToApi (draftFromRule js rule) = savedPolicy rule.trigger rule.executionPolicy := by
  obtain ⟨id, tenantId, name, description, trigger, condition, policy, actions, clearActions,
    enabled⟩ := rule
  obtain ⟨strategy, forDuration, cooldown, resetCondition, clearForDuration⟩ := policy
  cases trigger <;> cases strategy <;> rfl

/-- A rule clears in the editor where its readings trigger it at an edge. -/
theorem canClear_draftFromRule (rule : StoredRule F) :
    canClear (draftFromRule js rule) = true ↔
      rule.trigger = .metric ∧ rule.executionPolicy.strategy = .edge := by
  obtain ⟨id, tenantId, name, description, trigger, condition, policy, actions, clearActions,
    enabled⟩ := rule
  obtain ⟨strategy, forDuration, cooldown, resetCondition, clearForDuration⟩ := policy
  cases trigger <;> cases strategy <;>
    simp [canClear, isReadingRule, draftFromRule, whenFromTrigger]

/-- The fold is ready for the clear actions of a rule. -/
theorem opened_ready (js : Js F) {lib : Library F} (blank : BlankLaws lib py) {rule : StoredRule F}
    (hreturned : Returned lib py rule) (hkept : ClearsKept rule) :
    Ready (opened js rule) rule.clearActions where
  kinds := by
    intro device actuator
    rw [opened_kinds]
    exact hkept.kinds device actuator
  message := fun _ => hkept.message
  devices := by
    intro a ha hblank
    obtain ⟨-, deviceId, actuator, value, hmem, hdevice⟩ := mem_opened ha
    obtain ⟨id, rfl⟩ := Option.isSome_iff_exists.mp (hkept.devices _ _ _ hmem)
    have hid : id = "" := hdevice.symm.trans hblank
    -- a named device is a UUID, so it is not blank
    have hvalid := hreturned.actions _ hmem
    simp only [actionToBody, ActionBody.validate, optionalUuid, hid, blank.uuid] at hvalid
    split at hvalid <;> cases hvalid

/-- **The clear actions through the editor.** -/
theorem clearActions_trip {lib : Library F} (blank : BlankLaws lib py) {rule : StoredRule F}
    (hreturned : Returned lib py rule) (hkept : ClearsKept rule) :
    SameClears rule (clearActionsToApi (draftFromRule js rule)) := by
  unfold clearActionsToApi
  split
  · obtain ⟨bodies, hbodies, hperm⟩ := foldClear_run (opened_ready js blank hreturned hkept)
    obtain ⟨htargets, passed, hpassed, hsub⟩ :=
      foldl_foldClear_order rule.clearActions (opened js rule)
    have hreverted := reverted_sublist
      (rule.clearActions.foldl foldClear (opened js rule)).actions
    rw [htargets, opened_targets] at hreverted
    rw [cleared_opened, List.append_nil] at hperm
    refine ⟨⟨bodies, hbodies, hperm⟩, (draftFromRule js rule).actions.filterMap revertAction,
      clearNotification (draftFromRule js rule).clearNotify (draftFromRule js rule).clearMessage,
      passed, ?_, hreverted, ?_, hsub⟩
    · show _ ++ _ ++
        (rule.clearActions.foldl foldClear (opened js rule)).preserved.map actionToBody = _
      rw [hpassed]
      rfl
    · intro body hbody
      unfold clearNotification at hbody
      split at hbody
      · exact ⟨_, List.mem_singleton.mp hbody⟩
      · cases hbody
  · rename_i hcannot
    have hnone : rule.clearActions = [] := by
      by_contra hsome
      have hmetric : rule.trigger = .metric := by
        by_contra htrigger
        have hvalid := hreturned.clearActions
        rw [validateClearActions, if_pos ⟨by simpa using hsome, htrigger⟩] at hvalid
        cases hvalid
      exact hcannot ((canClear_draftFromRule rule).mpr ⟨hmetric, hkept.strategy hsome⟩)
    refine ⟨⟨[], by rw [hnone]; exact .nil, .refl _⟩, [], [], [], rfl, ?_, ?_, ?_⟩
    · exact List.nil_sublist _
    · intro body hbody
      cases hbody
    · exact List.nil_sublist _

/-- **Opening and saving keeps the rule.** For every rule the API can return, the save does not
throw, and it sends the same rule. -/
theorem reopened {lib : Library F} (laws : NumberLaws py) (blank : BlankLaws lib py)
    {rule : StoredRule F} (hreturned : Returned lib py rule) (hread : ReadsBack js rule) :
    ∃ body, draftToRequest js (draftFromRule js rule) = some body ∧ Resaved py rule body := by
  have hrecipients : ∀ recipients subject body,
      Action.email recipients subject body ∈ rule.actions → ∀ r ∈ recipients, r ≠ "" := by
    intro recipients subject body hmem r hr hblank
    have hvalid := hreturned.actions _ hmem
    simp only [actionToBody, ActionBody.validate] at hvalid
    split at hvalid
    · rename_i haccepted
      simp only [Bool.and_eq_true, List.all_eq_true] at haccepted
      have haddress := haccepted.1.1.2 r hr
      rw [hblank] at haddress
      cases haddress
    · cases hvalid
  have hnamed := assertLeavesHaveDevice_ok hreturned.named
  obtain ⟨parts, hparts, hactions⟩ := actions_trip js rule.name hrecipients hread.bodies
  have hsent : actionsToApi js (draftFromRule js rule).actions = some parts.flatten := by
    rw [← hactions]
    exact foldl_foldClear_actions rule.clearActions (opened js rule)
  refine ⟨_, by rw [draftToRequest, hsent]; rfl, ?_⟩
  refine ⟨trigger_trip blank hreturned.trigger, ?_, policy_trip rule, ⟨parts, ?_, hparts⟩,
    clearActions_trip blank hreturned, rfl⟩
  · exact condition_trip laws hreturned.condition hnamed hread.sets
  · exact List.append_nil parts.flatten

/-! ## A heater and a pump -/

/-- One zone is enough. -/
def oneZone : Library F := { wholeLibrary with isZone := fun timezone => timezone = "UTC" }

omit [JsonNumber F] in
theorem oneZone_blank (parse : F → Option Int) :
    BlankLaws oneZone ⟨fun text => if text = "" then none else some text, parse⟩ where
  zone := by
    intro timezone h
    rw [of_decide_eq_true h]
    decide
  uuid := rfl

/-- A set, a webhook, a mailed notification, and both kinds of clear action in the other order. -/
def heaterRule : StoredRule Rat :=
  { id := "rule"
    tenantId := "tenant"
    name := "Heater"
    description := none
    trigger := .metric
    condition := some (.group .and [
      .leaf ⟨some "ours", "temperature", .set .isIn [20]⟩,
      .leaf ⟨some "ours", "humidity", .compare .gt (.static 50) 1⟩])
    executionPolicy := { forDuration := 10, cooldown := 60, clearForDuration := 5 }
    actions := [
      .actuatorCommand (some "ours") "heater" (.bool true),
      .webhook ⟨"https://example.test/heater", [], none, none⟩,
      .notification "on" [.platform, .email]]
    clearActions := [
      .notification "off" [.platform],
      .actuatorCommand (some "ours") "heater" (.bool false)]
    enabled := true }

/-- Nothing of the heater is lost. -/
theorem heater_kept :
    (∀ action ∈ heaterRule.actions, ActionKept action) ∧ ClearsKept heaterRule := by
  refine ⟨?_, fun _ => rfl, ?_, ?_, ?_⟩
  · intro action haction
    simp only [heaterRule, List.mem_cons, List.not_mem_nil, or_false] at haction
    rcases haction with rfl | rfl | rfl
    · rfl
    · exact ⟨rfl, rfl⟩
    · trivial
  · intro deviceId actuator value hmem
    simp only [heaterRule, List.mem_cons, List.not_mem_nil, or_false, reduceCtorEq,
      Action.actuatorCommand.injEq] at hmem
    rw [hmem.1]
    rfl
  · intro device actuator pair hpair
    by_cases htarget : "ours" = device ∧ "heater" = actuator
    · obtain ⟨rfl, rfl⟩ := htarget
      cases List.mem_singleton.mp hpair
      rfl
    · simp [heaterRule, List.filterMap_cons, commandKind, deviceText, htarget] at hpair
  · intro message hmessage
    cases hmessage
    decide

/-- The heater comes back. -/
theorem reopened_heater :
    (∀ action ∈ heaterRule.actions, ActionKept action) ∧ ClearsKept heaterRule ∧
    ∃ body, draftToRequest (frostJs 20) (draftFromRule (frostJs 20) heaterRule) = some body ∧
      Resaved rationalPydantic heaterRule body := by
  refine ⟨heater_kept.1, heater_kept.2, reopened rational_laws (oneZone_blank _)
    ⟨?_, ?_, rfl, rfl, rfl⟩ ⟨?_, ?_⟩⟩
  · intro tree htree
    cases htree
    rfl
  · intro action haction
    simp only [heaterRule, List.mem_cons, List.not_mem_nil, or_false] at haction
    rcases haction with rfl | rfl | rfl <;> rfl
  · intro leaf hleaf operator values htest x hx
    have hx : x = 20 := by
      simp only [heaterRule, conditionLeaves, nodeLeaves, nodesLeaves, List.mem_append,
        List.mem_singleton, List.not_mem_nil, or_false] at hleaf
      rcases hleaf with rfl | rfl
      · cases htest
        exact List.mem_singleton.mp hx
      · cases htest
    have hplain : ∀ c ∈ ['2', '0'], c ≠ ',' ∧ isJsSpace c = false :=
      List.forall_mem_cons.mpr ⟨by decide, List.forall_mem_singleton.mpr (by decide)⟩
    rw [hx]
    exact ⟨⟨20, rfl, fun z => rfl⟩, by decide, hplain⟩
  · intro config hconfig
    simp only [heaterRule, List.mem_cons, List.not_mem_nil, or_false, reduceCtorEq, false_or,
      Action.webhook.injEq] at hconfig
    subst hconfig
    exact ⟨by decide, by decide, [], rfl, .obj .nil .nil⟩

/-- Every morning, with a hold nothing waits for and a strategy of readings. -/
def heldPump : StoredRule Rat :=
  { id := "rule"
    tenantId := "tenant"
    name := "Pump"
    description := none
    trigger := .schedule "0 8 * * *" "UTC"
    condition := none
    executionPolicy := { strategy := .continuous, forDuration := 10, cooldown := 60 }
    actions := [.actuatorCommand (some "ours") "pump " (.bool true)]
    clearActions := []
    enabled := true }

/-- A fan and a pump, turned back the pump first. -/
def fanAndPump : StoredRule Rat :=
  { heaterRule with
    actions := [
      .actuatorCommand (some "ours") "fan" (.bool true),
      .actuatorCommand (some "ours") "pump" (.bool true)]
    clearActions := [
      .actuatorCommand (some "ours") "pump" (.bool false),
      .actuatorCommand (some "ours") "fan" (.bool false)] }

/-- **Two rules that come back changed**: the one has lost its strategy, its hold and a space, the
other its order. -/
theorem saved_changed :
    (Returned oneZone rationalPydantic heldPump ∧
      ∃ body, draftToRequest (frostJs 20) (draftFromRule (frostJs 20) heldPump) = some body ∧
        body.executionPolicy.strategy ≠ heldPump.executionPolicy.strategy ∧
        body.executionPolicy.forDuration ≠ JsonNumber.ofNat heldPump.executionPolicy.forDuration ∧
        body.actions ≠ heldPump.actions.map actionToBody) ∧
    (Returned oneZone rationalPydantic fanAndPump ∧
      ∃ body, draftToRequest (frostJs 20) (draftFromRule (frostJs 20) fanAndPump) = some body ∧
        body.clearActions = [
          .actuatorCommand (some "ours") "fan" (.bool false),
          .actuatorCommand (some "ours") "pump" (.bool false)] ∧
        body.clearActions ≠ fanAndPump.clearActions.map actionToBody) := by
  refine ⟨⟨⟨?_, ?_, rfl, rfl, rfl⟩, _, rfl, by decide, by decide, ?_⟩,
    ⟨?_, ?_, rfl, rfl, rfl⟩, _, rfl, rfl, ?_⟩
  · intro tree htree
    cases htree
  · intro action haction
    cases List.mem_singleton.mp haction
    rfl
  · intro hsame
    injection hsame with haction
    injection haction with _ hactuator
    revert hactuator
    decide
  · intro tree htree
    cases htree
    rfl
  · intro action haction
    simp only [fanAndPump, List.mem_cons, List.not_mem_nil, or_false] at haction
    rcases haction with rfl | rfl <;> rfl
  · intro hsame
    injection hsame with haction
    injection haction with _ hactuator
    revert hactuator
    decide

end IotSaas.Editor
