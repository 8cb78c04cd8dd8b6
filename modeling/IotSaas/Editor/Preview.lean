import IotSaas.Editor.Accepts

/-!
# `Editor/Preview.lean` — what a draft would send

`wouldSend` of `lib/rule-preview.ts`: the messages the workbench lists under a draft. They are made
from the request the draft would be saved with, action by action and then clear action by clear
action, without a look at what the worker makes of the rule. A payload is kept as what is printed.
-/

set_option autoImplicit false

namespace IotSaas.Editor

open Lib Rules Api

variable {F : Type} [JsonNumber F]

inductive SendKind where
  | command | clear | email | webhook | notification
  deriving DecidableEq

/-- A payload before it is printed: `{value, ttl}`, a body, or a text. -/
inductive Payload (F : Type) where
  | command (value : CommandValue F) (ttl : Nat)
  | json (body : Json F)
  | text (text : String)

/-- `Send`. -/
structure Send (F : Type) where
  kind : SendKind
  target : String
  payload : Payload F

/-- The recipients as they are shown. -/
def recipientsText (recipients : List String) : String :=
  if recipients.isEmpty then "the workspace's alert recipients" else ", ".intercalate recipients

section

variable (tenantSlug : String) (deviceSlug : String → Option String) (ttl : Nat)

/-- `command`. -/
def commandSend (kind : SendKind) (deviceId : Option String) (actuator : String)
    (value : CommandValue F) : Send F :=
  let slug := (deviceSlug (deviceId.getD "")).getD "?"
  { kind := kind
    target := tenantSlug ++ "/" ++ slug ++ "/cmd/" ++ actuator
    payload := .command value ttl }

/-- An action of the first loop. -/
def actionSend (action : ActionBody F) : Send F :=
  match action with
  | .actuatorCommand deviceId actuator value =>
      commandSend tenantSlug deviceSlug ttl .command deviceId actuator value
  | .email recipients subject _ => ⟨.email, recipientsText recipients, .text subject⟩
  | .webhook url body _ _ =>
      let body := match body with
        | .null => .obj []
        | body => body
      ⟨.webhook, url, .json body⟩
  | .notification message _ => ⟨.notification, "Notifications", .text message⟩

/-- A clear action of the second loop, which knows two types only. -/
def clearSend (action : ActionBody F) : Option (Send F) :=
  match action with
  | .actuatorCommand deviceId actuator value =>
      some (commandSend tenantSlug deviceSlug ttl .clear deviceId actuator value)
  | .notification message _ => some ⟨.notification, "Notifications (on clear)", .text message⟩
  | .email _ _ _ | .webhook _ _ _ _ => none

/-- `wouldSend`. -/
def wouldSend (js : Js F) (draft : RuleDraft F) : List (Send F) :=
  match draftToRequest js draft with
  | none => []
  | some body =>
      body.actions.map (actionSend tenantSlug deviceSlug ttl) ++
        body.clearActions.filterMap (clearSend tenantSlug deviceSlug ttl)

end

/-! ## Channel by channel -/

/-- Messages by the channel they go through: commands as topic and value, emails as recipients and
subject, webhooks as URL and body, notifications as heading and message. -/
structure Channels (F : Type) where
  commands : List (String × CommandValue F)
  clears : List (String × CommandValue F)
  emails : List (String × String)
  webhooks : List (String × Json F)
  notifications : List (String × String)

def Send.asCommand (kind : SendKind) (send : Send F) : Option (String × CommandValue F) :=
  match send.payload with
  | .command value _ => if send.kind = kind then some (send.target, value) else none
  | _ => none

def Send.asText (kind : SendKind) (send : Send F) : Option (String × String) :=
  match send.payload with
  | .text text => if send.kind = kind then some (send.target, text) else none
  | _ => none

def Send.asWebhook (send : Send F) : Option (String × Json F) :=
  match send.payload with
  | .json body => if send.kind = .webhook then some (send.target, body) else none
  | _ => none

/-- What is shown, channel by channel. -/
def shownIn (sends : List (Send F)) : Channels F :=
  { commands := sends.filterMap (Send.asCommand .command)
    clears := sends.filterMap (Send.asCommand .clear)
    emails := sends.filterMap (Send.asText .email)
    webhooks := sends.filterMap Send.asWebhook
    notifications := sends.filterMap (Send.asText .notification) }

end IotSaas.Editor
