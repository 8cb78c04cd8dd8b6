import IotSaas.Lib.Mqtt
import IotSaas.Lib.Reach
import IotSaas.Rules.Model

/-!
# `Commands/DesiredState.lean` — what an actuator is told, and what it does last

`dispatch_command` publishes twice: the command, then the same value as the retained desired state.
The board subscribes to both topics of each actuator, one after the other, on every connection, and
applies whatever arrives. Any number of dispatches run at once (the worker has two connections), and
the board may lose its connection or its power at any point.

The messages a connected board gets are those accepted while it is subscribed and the retained one
at the subscription. A command is accepted before its own state, so as long as no dispatch stands
between its two publishes, the last message of an actuator to be accepted is a state message with
the retained value (`Settling`). It only has to be the last one to be handled.

That takes an order across two topics. A broker owes the order of each topic and no more, and that
is not enough: two commands that come after both states leave the output at the last command,
whatever is retained (`desired_state_strays`). What is needed is that no state message overtakes a
command accepted before it (`NoOvertaking`), an assumption on the run; nothing else has to be in
order, neither commands that overtake states nor anything of another actuator.
-/

set_option autoImplicit false

namespace IotSaas.Commands

open Lib Mqtt Rules

/-- The JSON of both messages; a state message has only its value. -/
structure Document (V : Type) where
  value : V
  issuedAt : Option Int := none
  ttl : Option Int := none
  commandId : Option Uuid := none

/-- A board and the keys of the actuators bound on it. -/
structure Device where
  tenantSlug : String
  deviceSlug : String
  actuators : List String

namespace Device

def topicPrefix (d : Device) : String := d.tenantSlug ++ "/" ++ d.deviceSlug ++ "/"

def configTopic (d : Device) : String := d.topicPrefix ++ "config"

def cmdTopic (d : Device) (actuator : String) : String := d.topicPrefix ++ ("cmd/" ++ actuator)

def stateTopic (d : Device) (actuator : String) : String := d.topicPrefix ++ ("state/" ++ actuator)

variable {d : Device} {a b : String}

theorem cmdTopic_inj : d.cmdTopic a = d.cmdTopic b ↔ a = b := by
  refine ⟨fun h => ?_, fun h => h ▸ rfl⟩
  exact (String.append_right_inj "cmd/").mp ((String.append_right_inj d.topicPrefix).mp h)

theorem stateTopic_inj : d.stateTopic a = d.stateTopic b ↔ a = b := by
  refine ⟨fun h => ?_, fun h => h ▸ rfl⟩
  exact (String.append_right_inj "state/").mp ((String.append_right_inj d.topicPrefix).mp h)

theorem cmdTopic_ne_stateTopic : d.cmdTopic a ≠ d.stateTopic b := by
  intro h
  have htail := congrArg String.toList ((String.append_right_inj d.topicPrefix).mp h)
  simp [String.toList_append] at htail

theorem configTopic_ne_cmdTopic : d.configTopic ≠ d.cmdTopic a := by
  intro h
  have htail := congrArg String.toList ((String.append_right_inj d.topicPrefix).mp h)
  simp [String.toList_append] at htail

theorem configTopic_ne_stateTopic : d.configTopic ≠ d.stateTopic a := by
  intro h
  have htail := congrArg String.toList ((String.append_right_inj d.topicPrefix).mp h)
  simp [String.toList_append] at htail

end Device

/-! ## The platform -/

structure Publish (V : Type) where
  message : Message (Document V)
  retain : Bool

/-- `dispatch_command`, as far as the broker sees it: the next publish is made when the one before
has been accepted. -/
def dispatchCommand {V : Type} (d : Device) (actuator : String) (value : V) (commandId : Uuid)
    (issuedAt ttl : Int) : List (Publish V) :=
  [⟨⟨d.cmdTopic actuator,
      { value := value, issuedAt := some issuedAt, ttl := some ttl, commandId := some commandId }⟩,
      false⟩,
    ⟨⟨d.stateTopic actuator, { value := value }⟩, true⟩]

/-! ## The board -/

structure Board (V : Type) where
  /-- The value each output applied last; nothing since boot. -/
  applied : Dict String V := .empty
  acked : List Uuid := []

variable {V : Type} (d : Device) (accepts : String → V → Bool)

/-- `OutputDriver::apply` of the actuator's driver, which may refuse a value. -/
def apply (key : String) (value : V) (board : Board V) : Option (Board V) :=
  if accepts key value then some { board with applied := board.applied.set key value } else none

/-- `handleCommand`: applied, then acknowledged by its id. -/
def handleCommand (key : String) (doc : Document V) (board : Board V) : Board V :=
  match apply accepts key doc.value board with
  | none => board
  | some board =>
      match doc.commandId with
      | none => board
      | some commandId =>
          if commandId = "" then board else { board with acked := board.acked ++ [commandId] }

/-- `handleState`: applied, never acknowledged. -/
def handleState (key : String) (doc : Document V) (board : Board V) : Board V :=
  (apply accepts key doc.value board).getD board

/-- The loop over the actuators in `ioHandleMessage`. -/
def handleActuators : List String → Board V → Message (Document V) → Board V
  | [], board, _ => board
  | key :: rest, board, m =>
      if d.cmdTopic key = m.topic then handleCommand accepts key m.payload board
      else if d.stateTopic key = m.topic then handleState accepts key m.payload board
      else handleActuators rest board m

/-- `ioHandleMessage`; a config message changes how metrics are published and no output. -/
def ioHandleMessage (board : Board V) (m : Message (Document V)) : Board V :=
  if d.configTopic = m.topic then board else handleActuators d accepts d.actuators board m

/-- `ioSubscribe`: the topics, in its order. -/
def ioSubscribe : List String :=
  d.configTopic :: d.actuators.flatMap fun key => [d.cmdTopic key, d.stateTopic key]

/-! ## Platform, broker and board together -/

structure State (V : Type) where
  /-- What each `dispatch_command` call has still to publish. -/
  dispatches : List (List (Publish V)) := []
  broker : Broker (Document V) := {}
  /-- Connected, and the subscriptions still to be made. -/
  link : Option (List String) := none
  board : Board V := {}

inductive Event (V : Type) where
  | dispatch (actuator : String) (value : V) (commandId : Uuid) (issuedAt ttl : Int)
  /-- The broker accepts the next publish of one of the dispatches. -/
  | publish (i : Nat)
  | connect
  | subscribe
  /-- The broker delivers the next message of a topic, and the board handles it. -/
  | handle (topic : String)
  | disconnect
  | reboot

def step (s : State V) : Event V → Option (State V)
  | .dispatch actuator value commandId issuedAt ttl =>
      some { s with
        dispatches := s.dispatches ++ [dispatchCommand d actuator value commandId issuedAt ttl] }
  | .publish i =>
      match s.dispatches[i]? with
      | some (p :: rest) =>
          some { s with
            dispatches := s.dispatches.set i rest
            broker := s.broker.accept p.message p.retain }
      | _ => none
  | .connect =>
      match s.link with
      | none => some { s with link := some (ioSubscribe d) }
      | some _ => none
  | .subscribe =>
      match s.link with
      | some (topic :: rest) =>
          some { s with link := some rest, broker := s.broker.subscribe topic }
      | _ => none
  | .handle topic =>
      (s.broker.deliver topic).map fun (m, broker) =>
        { s with broker, board := ioHandleMessage d accepts s.board m }
  | .disconnect =>
      match s.link with
      | some _ => some { s with link := none, broker := s.broker.drop }
      | none => none
  | .reboot => some { s with link := none, broker := s.broker.drop, board := {} }

/-- Commands carry values their output accepts. -/
def Accepted (_ : State V) : Event V → Prop
  | .dispatch actuator value _ _ _ => accepts actuator value = true
  | _ => True

/-- **A state message overtakes no command**: when one comes, no command accepted before it for the
same actuator is still to come. -/
def NoOvertaking (key : String) (s : State V) : Event V → Prop
  | .handle topic => topic = d.stateTopic key →
      ∀ m ∈ s.broker.ahead topic, m.topic ≠ d.cmdTopic key
  | _ => True

instance (key : String) (s : State V) (e : Event V) : Decidable (NoOvertaking d key s e) :=
  match e with
  | .handle topic => inferInstanceAs (Decidable (topic = d.stateTopic key →
      ∀ m ∈ s.broker.ahead topic, m.topic ≠ d.cmdTopic key))
  | .dispatch .. | .publish _ | .connect | .subscribe | .disconnect | .reboot =>
      inferInstanceAs (Decidable True)

instance (s : State V) (e : Event V) : Decidable (Accepted accepts s e) :=
  match e with
  | .dispatch actuator value _ _ _ => inferInstanceAs (Decidable (accepts actuator value = true))
  | .handle _ | .publish _ | .connect | .subscribe | .disconnect | .reboot =>
      inferInstanceAs (Decidable True)

/-- No new command, and no loss of power. -/
def Reconnecting (_ : State V) : Event V → Prop
  | .dispatch .. => False
  | .reboot => False
  | _ => True

/-- Before the first dispatch: whatever earlier runs have left retained. -/
structure Start (s : State V) : Prop where
  dispatches : s.dispatches = []
  link : s.link = none
  subscriptions : s.broker.subscriptions = []
  queue : s.broker.queue = []
  cmd : ∀ key, s.broker.retained.get (d.cmdTopic key) = none
  state : ∀ key doc, s.broker.retained.get (d.stateTopic key) = some doc →
    accepts key doc.value = true

/-- No dispatch in flight, the board connected and done with everything delivered to it. -/
structure Quiescent (s : State V) : Prop where
  dispatched : ∀ rest ∈ s.dispatches, rest = []
  connected : s.link = some []
  handled : s.broker.queue = []

/-! ## What a message does to one output -/

/-- The topics of an actuator, both. -/
def OfActuator (d : Device) (key topic : String) : Prop :=
  topic = d.cmdTopic key ∨ topic = d.stateTopic key

section

variable {d accepts} {key : String} {board : Board V} {m : Message (Document V)}

theorem handleCommand_applied (key' : String) (doc : Document V) (board : Board V) :
    (handleCommand accepts key' doc board).applied =
      if accepts key' doc.value then board.applied.set key' doc.value else board.applied := by
  unfold handleCommand apply
  by_cases h : accepts key' doc.value = true
  · rw [if_pos h, if_pos h]
    dsimp only
    split
    · rfl
    · split <;> rfl
  · rw [if_neg h, if_neg h]

theorem handleState_applied (key' : String) (doc : Document V) (board : Board V) :
    (handleState accepts key' doc board).applied =
      if accepts key' doc.value then board.applied.set key' doc.value else board.applied := by
  unfold handleState apply
  by_cases h : accepts key' doc.value = true
  · rw [if_pos h, if_pos h, Option.getD_some]
  · rw [if_neg h, if_neg h, Option.getD_none]

theorem applied_of_actuator (hkey : key ∈ d.actuators) (hm : OfActuator d key m.topic)
    (haccepts : accepts key m.payload.value = true) :
    (ioHandleMessage d accepts board m).applied.get key = some m.payload.value := by
  have hconfig : d.configTopic ≠ m.topic := by
    rcases hm with hm | hm <;> rw [hm]
    · exact Device.configTopic_ne_cmdTopic
    · exact Device.configTopic_ne_stateTopic
  rw [ioHandleMessage, if_neg hconfig]
  revert hkey
  induction d.actuators with
  | nil =>
    intro hkey
    cases hkey
  | cons head rest ih =>
    intro hkey
    rw [handleActuators]
    by_cases hhead : head = key
    · subst hhead
      rcases hm with hm | hm <;> rw [hm]
      · rw [if_pos rfl, handleCommand_applied, if_pos haccepts, Dict.get_set_self]
      · rw [if_neg Device.cmdTopic_ne_stateTopic, if_pos rfl, handleState_applied,
          if_pos haccepts, Dict.get_set_self]
    · have hcmd : d.cmdTopic head ≠ m.topic := by
        rcases hm with hm | hm <;> rw [hm]
        · exact fun h => hhead (Device.cmdTopic_inj.mp h)
        · exact Device.cmdTopic_ne_stateTopic
      have hstate : d.stateTopic head ≠ m.topic := by
        rcases hm with hm | hm <;> rw [hm]
        · exact fun h => Device.cmdTopic_ne_stateTopic h.symm
        · exact fun h => hhead (Device.stateTopic_inj.mp h)
      rw [if_neg hcmd, if_neg hstate]
      exact ih ((List.mem_cons.mp hkey).resolve_left fun h => hhead h.symm)

theorem applied_of_other (hm : ¬ OfActuator d key m.topic) :
    (ioHandleMessage d accepts board m).applied.get key = board.applied.get key := by
  rw [ioHandleMessage]
  split
  · rfl
  · induction d.actuators with
    | nil => rfl
    | cons head rest ih =>
      rw [handleActuators]
      split
      · rename_i hcmd
        have hne : key ≠ head := fun h => hm (.inl (h ▸ hcmd.symm))
        rw [handleCommand_applied]
        split
        · rw [Dict.get_set_ne _ _ hne]
        · rfl
      · split
        · rename_i hstate
          have hne : key ≠ head := fun h => hm (.inr (h ▸ hstate.symm))
          rw [handleState_applied]
          split
          · rw [Dict.get_set_ne _ _ hne]
          · rfl
        · exact ih

end

/-! ## The invariant -/

/-- How far a dispatch can be. -/
inductive Progress : List (Publish V) → Prop
  | begun {actuator : String} {value : V} {commandId : Uuid} {issuedAt ttl : Int}
      (haccepts : accepts actuator value = true) :
      Progress (dispatchCommand d actuator value commandId issuedAt ttl)
  | half {actuator : String} {value : V} (haccepts : accepts actuator value = true) :
      Progress [⟨⟨d.stateTopic actuator, { value := value }⟩, true⟩]
  | done : Progress []

/-- Some dispatch has published its command and not yet its state. -/
def Lagging (key : String) (s : State V) : Prop :=
  ∃ p : Publish V, [p] ∈ s.dispatches ∧ p.message.topic = d.stateTopic key

/-- The output is at the value, or its last message in the queue will bring it there. -/
inductive Settling (key : String) (value : V) (queue : List (Message (Document V)))
    (board : Board V) : Prop
  | handled (hfree : ∀ m ∈ queue, ¬ OfActuator d key m.topic)
      (happlied : board.applied.get key = some value)
  | sent (before after : List (Message (Document V))) {m : Message (Document V)}
      (hqueue : queue = before ++ m :: after) (htopic : m.topic = d.stateTopic key)
      (hvalue : m.payload.value = value) (hfree : ∀ x ∈ after, ¬ OfActuator d key x.topic)

structure Tracked (key : String) (s : State V) : Prop where
  progress : ∀ rest ∈ s.dispatches, Progress d accepts rest
  cmd : s.broker.retained.get (d.cmdTopic key) = none
  state : ∀ doc, s.broker.retained.get (d.stateTopic key) = some doc →
    accepts key doc.value = true
  linked : ∀ rest, s.link = some rest → ∀ topic ∈ ioSubscribe d,
    topic ∈ rest ∨ topic ∈ s.broker.subscriptions
  unlinked : s.link = none → s.broker.subscriptions = []
  converging : d.stateTopic key ∈ s.broker.subscriptions → Lagging d key s ∨
    ∀ doc, s.broker.retained.get (d.stateTopic key) = some doc →
      Settling d key doc.value s.broker.queue s.board

section

variable {d accepts} {key : String} {s s' : State V}

theorem Start.tracked (h : Start d accepts s) (key : String) : Tracked d accepts key s where
  progress := by
    rw [h.dispatches]
    intro rest hrest
    cases hrest
  cmd := h.cmd key
  state := h.state key
  linked := by
    rw [h.link]
    intro rest hrest
    cases hrest
  unlinked _ := h.subscriptions
  converging := by
    rw [h.subscriptions]
    intro hmem
    cases hmem

/-- A lagging dispatch stays one while another one moves. -/
theorem Lagging.set {i : Nat} {rest : List (Publish V)} {b : Broker (Document V)}
    {old : List (Publish V)} (h : Lagging d key s) (hi : s.dispatches[i]? = some old)
    (hold : ∀ p : Publish V, old = [p] → p.message.topic ≠ d.stateTopic key) :
    Lagging d key { s with dispatches := s.dispatches.set i rest, broker := b } := by
  obtain ⟨p, hmem, htopic⟩ := h
  obtain ⟨j, hj⟩ := List.mem_iff_getElem?.mp hmem
  refine ⟨p, List.mem_iff_getElem?.mpr ⟨j, ?_⟩, htopic⟩
  have hij : i ≠ j := by
    rintro rfl
    rw [hi] at hj
    exact hold p (Option.some.inj hj) htopic
  rw [List.getElem?_set_ne hij]
  exact hj

theorem progress_set {i : Nat} {rest : List (Publish V)}
    (h : ∀ rest ∈ s.dispatches, Progress d accepts rest) (hrest : Progress d accepts rest) :
    ∀ other ∈ s.dispatches.set i rest, Progress d accepts other := by
  intro other hother
  rcases List.mem_or_eq_of_mem_set hother with hmem | rfl
  · exact h other hmem
  · exact hrest

section

variable {value : V} {queue new : List (Message (Document V))} {m : Message (Document V)}
  {board : Board V}

/-- The last of an actuator's messages is a state message with the value. -/
theorem Settling.append_state (doc : Document V) :
    Settling d key doc.value (queue ++ [⟨d.stateTopic key, doc⟩]) board :=
  .sent queue [] rfl rfl rfl fun _ hx => by cases hx

/-- Messages of something else join the queue. -/
theorem Settling.append (h : Settling d key value queue board)
    (hnew : ∀ m ∈ new, ¬ OfActuator d key m.topic) : Settling d key value (queue ++ new) board := by
  cases h with
  | handled hfree happlied =>
    refine .handled (fun m hm => ?_) happlied
    exact (List.mem_append.mp hm).elim (hfree m) (hnew m)
  | sent before after hqueue htopic hvalue hfree =>
    refine .sent before (after ++ new) ?_ htopic hvalue fun x hx => ?_
    · rw [hqueue, List.append_assoc, List.cons_append]
    · exact (List.mem_append.mp hx).elim (hfree x) (hnew x)

theorem Settling.accept {b : Broker (Document V)} (h : Settling d key value b.queue board)
    (hm : ¬ OfActuator d key m.topic) (retain : Bool) :
    Settling d key value (b.accept m retain).queue board := by
  rw [Broker.accept]
  dsimp only
  split
  · exact h.append fun x hx => List.mem_singleton.mp hx ▸ hm
  · exact h

/-- A message is taken out. If it comes before the last one of the actuator, or after it, that one
is still to come. If it is the last one itself, it has overtaken no command, nor any state message,
being the first of its topic; so nothing of the actuator is left. -/
theorem Settling.handle {b : Broker (Document V)} {rest : List (Message (Document V))}
    (h : Settling d key value b.queue board) (hkey : key ∈ d.actuators)
    (haccepts : accepts key value = true)
    (order : m.topic = d.stateTopic key → ∀ x ∈ b.ahead m.topic, x.topic ≠ d.cmdTopic key)
    (hqueue : b.queue = b.ahead m.topic ++ m :: rest) :
    Settling d key value (b.ahead m.topic ++ rest) (ioHandleMessage d accepts board m) := by
  cases h with
  | handled hfree happlied =>
    refine .handled (fun x hx => hfree x ?_) ?_
    · rw [hqueue]
      rcases List.mem_append.mp hx with hx | hx
      · exact List.mem_append_left _ hx
      · exact List.mem_append_right _ (List.mem_cons_of_mem _ hx)
    · rw [applied_of_other (hfree m (by rw [hqueue]; simp)), happlied]
  | sent before after hlast htopic hvalue hfree =>
    rw [hlast] at hqueue
    rcases Broker.places hqueue with
      ⟨between, hbefore, hrest⟩ | ⟨hahead, rfl, rfl⟩ | ⟨between, hahead, hafter⟩
    · refine .sent (b.ahead m.topic ++ between) after ?_ htopic hvalue hfree
      rw [hrest, List.append_assoc]
    · refine .handled (fun x hx => ?_) ?_
      · rcases List.mem_append.mp hx with hx | hx
        · rintro (hcmd | hstate)
          · exact order htopic x hx hcmd
          · exact Broker.topic_ne_of_ahead hx (hstate.trans htopic.symm)
        · exact hfree x hx
      · subst hvalue
        exact applied_of_actuator hkey (.inr htopic) haccepts
    · refine .sent before (between ++ rest) ?_ htopic hvalue fun x hx => hfree x ?_
      · rw [hahead, List.append_assoc, List.cons_append]
      · rw [hafter]
        rcases List.mem_append.mp hx with hx | hx
        · exact List.mem_append_left _ hx
        · exact List.mem_append_right _ (List.mem_cons_of_mem _ hx)

end

/-- The command is accepted: its own state is still to come. -/
theorem tracked_cmd {i : Nat} {actuator : String} {value : V} {commandId : Uuid}
    {issuedAt ttl : Int} (hkey : key ∈ d.actuators) (h : Tracked d accepts key s)
    (haccepts : accepts actuator value = true)
    (hi : s.dispatches[i]? = some (dispatchCommand d actuator value commandId issuedAt ttl)) :
    Tracked d accepts key { s with
      dispatches := s.dispatches.set i [⟨⟨d.stateTopic actuator, { value := value }⟩, true⟩]
      broker := s.broker.accept ⟨d.cmdTopic actuator,
        { value := value, issuedAt := some issuedAt, ttl := some ttl
          commandId := some commandId }⟩ false } where
  progress := progress_set h.progress (.half haccepts)
  cmd := h.cmd
  state := h.state
  linked := h.linked
  unlinked := h.unlinked
  converging := by
    intro hsub
    by_cases hactuator : actuator = key
    · subst hactuator
      have hlt := (List.getElem?_eq_some_iff.mp hi).1
      exact .inl ⟨_, List.mem_set hlt _, rfl⟩
    · rcases h.converging hsub with hlag | hfin
      · refine .inl (hlag.set hi ?_)
        intro p hp
        cases hp
      · refine .inr fun doc hdoc => ?_
        have hother : ¬ OfActuator d key (d.cmdTopic actuator) := by
          rintro (h | h)
          · exact hactuator (Device.cmdTopic_inj.mp h)
          · exact Device.cmdTopic_ne_stateTopic h
        exact (hfin doc hdoc).accept hother _

/-- The state is accepted: what is retained is what a subscribed board gets last. -/
theorem tracked_state {i : Nat} {actuator : String} {value : V} (hkey : key ∈ d.actuators)
    (h : Tracked d accepts key s) (haccepts : accepts actuator value = true)
    (hi : s.dispatches[i]? = some [⟨⟨d.stateTopic actuator, { value := value }⟩, true⟩]) :
    Tracked d accepts key { s with
      dispatches := s.dispatches.set i []
      broker := s.broker.accept ⟨d.stateTopic actuator, { value := value }⟩ true } where
  progress := progress_set h.progress .done
  cmd := by
    have hne : d.cmdTopic key ≠ d.stateTopic actuator := Device.cmdTopic_ne_stateTopic
    rw [Broker.accept, if_pos rfl, Dict.get_set_ne _ _ hne]
    exact h.cmd
  state := by
    intro doc hdoc
    rw [Broker.accept, if_pos rfl, Dict.get_set] at hdoc
    split at hdoc
    · rename_i heq
      obtain rfl := Device.stateTopic_inj.mp heq
      cases hdoc
      exact haccepts
    · exact h.state doc hdoc
  linked := h.linked
  unlinked := h.unlinked
  converging := by
    intro hsub
    by_cases hactuator : actuator = key
    · subst hactuator
      refine .inr fun doc hdoc => ?_
      rw [Broker.accept, if_pos rfl, Dict.get_set_self] at hdoc
      cases hdoc
      rw [Broker.accept_subscriptions] at hsub
      rw [Broker.accept]
      dsimp only
      rw [if_pos hsub]
      exact Settling.append_state { value := value }
    · have hne : d.stateTopic key ≠ d.stateTopic actuator :=
        fun h => hactuator (Device.stateTopic_inj.mp h).symm
      have hother : ¬ OfActuator d key (d.stateTopic actuator) := by
        rintro (h | h)
        · exact Device.cmdTopic_ne_stateTopic h.symm
        · exact hne h.symm
      rcases h.converging hsub with hlag | hfin
      · refine .inl (hlag.set hi ?_)
        intro p hp
        cases hp
        exact hne.symm
      · refine .inr fun doc hdoc => ?_
        rw [Broker.accept, if_pos rfl, Dict.get_set_ne _ _ hne] at hdoc
        exact (hfin doc hdoc).accept hother _

/-- A subscription is made: to the state topic, and the retained value is on its way. -/
theorem tracked_subscribe {topic : String} {rest : List String} (h : Tracked d accepts key s)
    (hlink : s.link = some (topic :: rest)) :
    Tracked d accepts key
      { s with link := some rest, broker := s.broker.subscribe topic } where
  progress := h.progress
  cmd := h.cmd
  state := h.state
  linked := by
    intro rest' hrest' t ht
    cases hrest'
    rcases h.linked _ hlink t ht with hmem | hmem
    · rcases List.mem_cons.mp hmem with rfl | hmem
      · exact .inr List.mem_cons_self
      · exact .inl hmem
    · exact .inr (List.mem_cons_of_mem _ hmem)
  unlinked hnone := by cases hnone
  converging := by
    intro hsub
    by_cases htopic : topic = d.stateTopic key
    · subst htopic
      refine .inr fun doc hdoc => ?_
      rw [Broker.subscribe_retained] at hdoc
      rw [Broker.subscribe, hdoc]
      exact .append_state doc
    · rw [Broker.subscribe_subscriptions] at hsub
      rcases h.converging ((List.mem_cons.mp hsub).resolve_left fun h => htopic h.symm) with
        hlag | hfin
      · exact .inl hlag
      · refine .inr fun doc hdoc => ?_
        rw [Broker.subscribe]
        cases hret : s.broker.retained.get topic with
        | none => exact hfin doc hdoc
        | some payload =>
          refine (hfin doc hdoc).append fun x hx => ?_
          obtain rfl := List.mem_singleton.mp hx
          rintro (hcmd | hstate)
          · rw [show topic = d.cmdTopic key from hcmd, h.cmd] at hret
            cases hret
          · exact htopic hstate

/-- Without its connection the board has nothing on its way. -/
theorem tracked_dropped (h : Tracked d accepts key s) (board : Board V) :
    Tracked d accepts key { s with link := none, broker := s.broker.drop, board := board } where
  progress := h.progress
  cmd := h.cmd
  state := h.state
  linked rest hrest := by cases hrest
  unlinked _ := rfl
  converging hsub := by cases hsub

/-- A message is handled. -/
theorem tracked_handle {topic : String} {m : Message (Document V)} {broker : Broker (Document V)}
    (hkey : key ∈ d.actuators) (h : Tracked d accepts key s)
    (order : NoOvertaking d key s (.handle topic))
    (hdeliver : s.broker.deliver topic = some (m, broker)) :
    Tracked d accepts key
      { s with broker := broker, board := ioHandleMessage d accepts s.board m } := by
  obtain ⟨rest, hqueue, rfl, rfl⟩ := Broker.deliver_eq_some hdeliver
  refine ⟨h.progress, h.cmd, h.state, h.linked, h.unlinked, fun hsub => ?_⟩
  refine (h.converging hsub).imp id fun hfin doc hdoc => ?_
  exact (hfin doc hdoc).handle hkey (h.state doc hdoc) order hqueue

theorem tracked_step (hkey : key ∈ d.actuators) {e : Event V} (h : Tracked d accepts key s)
    (ok : Accepted accepts s e) (order : NoOvertaking d key s e) (hs : step d accepts s e = some s') :
    Tracked d accepts key s' := by
  unfold step at hs
  cases e with
  | dispatch actuator value commandId issuedAt ttl =>
    cases hs
    refine ⟨fun rest hrest => ?_, h.cmd, h.state, h.linked, h.unlinked, fun hsub => ?_⟩
    · rcases List.mem_append.mp hrest with hmem | hnew
      · exact h.progress rest hmem
      · obtain rfl := List.mem_singleton.mp hnew
        exact .begun ok
    -- What is still to be published stays so, among more.
    · refine (h.converging hsub).imp ?_ id
      rintro ⟨p, hmem, htopic⟩
      exact ⟨p, List.mem_append_left _ hmem, htopic⟩
  | publish i =>
    dsimp only at hs
    split at hs
    · rename_i p rest hi
      cases hs
      have hprogress := h.progress _ (List.mem_of_getElem? hi)
      generalize hold : p :: rest = old at hprogress
      rw [hold] at hi
      cases hprogress with
      | begun haccepts =>
        cases hold
        -- The command goes out first, the retained state after it.
        exact tracked_cmd hkey h haccepts hi
      | half haccepts =>
        cases hold
        exact tracked_state hkey h haccepts hi
      | done => cases hold
    · cases hs
  | connect =>
    dsimp only at hs
    split at hs
    · cases hs
      -- A new session has every topic still to subscribe to.
      refine ⟨h.progress, h.cmd, h.state, fun rest hrest t ht => ?_, fun hnone => ?_,
        h.converging⟩
      · cases hrest
        exact .inl ht
      · cases hnone
    · cases hs
  | subscribe =>
    dsimp only at hs
    split at hs
    · rename_i topic rest hlink
      cases hs
      exact tracked_subscribe h hlink
    · cases hs
  | handle topic =>
    obtain ⟨⟨m, broker⟩, hdeliver, rfl⟩ := Option.map_eq_some_iff.mp hs
    exact tracked_handle hkey h order hdeliver
  | disconnect =>
    dsimp only at hs
    split at hs
    · cases hs
      exact tracked_dropped h s.board
    · cases hs
  | reboot =>
    cases hs
    exact tracked_dropped h {}

/-! ## Afterwards -/

/-- Nothing is left to publish, and everything retained, applied or on its way is one value. -/
structure Agreed (d : Device) (key : String) (value : V) (s : State V) : Prop where
  dispatched : ∀ rest ∈ s.dispatches, rest = []
  cmd : s.broker.retained.get (d.cmdTopic key) = none
  state : ∀ doc, s.broker.retained.get (d.stateTopic key) = some doc → doc.value = value
  queued : ∀ m ∈ s.broker.queue, OfActuator d key m.topic → m.payload.value = value
  applied : s.board.applied.get key = some value

theorem agreed_step {value : V} (hkey : key ∈ d.actuators) (haccepts : accepts key value = true)
    {e : Event V} (h : Agreed d key value s) (ok : Reconnecting s e)
    (hs : step d accepts s e = some s') : Agreed d key value s' := by
  unfold step at hs
  cases e with
  | dispatch actuator value commandId issuedAt ttl => exact ok.elim
  | reboot => exact ok.elim
  | publish i =>
    dsimp only at hs
    split at hs
    · rename_i p rest hi
      cases h.dispatched _ (List.mem_of_getElem? hi)
    · cases hs
  | connect =>
    dsimp only at hs
    split at hs
    · cases hs
      exact ⟨h.dispatched, h.cmd, h.state, h.queued, h.applied⟩
    · cases hs
  | subscribe =>
    dsimp only at hs
    split at hs
    · rename_i topic rest hlink
      cases hs
      refine ⟨h.dispatched, h.cmd, h.state, fun m hm hof => ?_, h.applied⟩
      -- The broker answers with what it retains: no command, and the agreed state.
      unfold Broker.subscribe at hm
      cases hret : s.broker.retained.get topic with
      | none =>
        rw [hret] at hm
        exact h.queued m hm hof
      | some payload =>
        rw [hret] at hm
        rcases List.mem_append.mp hm with hm | hm
        · exact h.queued m hm hof
        · obtain rfl := List.mem_singleton.mp hm
          rcases hof with hcmd | hstate
          · rw [show topic = d.cmdTopic key from hcmd, h.cmd] at hret
            cases hret
          · exact h.state payload (by rw [← hret, ← show topic = d.stateTopic key from hstate])
    · cases hs
  | handle topic =>
    obtain ⟨⟨m, broker⟩, hdeliver, rfl⟩ := Option.map_eq_some_iff.mp hs
    obtain ⟨rest, hqueue, rfl, -⟩ := Broker.deliver_eq_some hdeliver
    refine ⟨h.dispatched, h.cmd, h.state, fun m' hm' => h.queued m' ?_, ?_⟩
    · rw [hqueue]
      rcases List.mem_append.mp hm' with hbefore | hafter
      · exact List.mem_append_left _ hbefore
      · exact List.mem_append_right _ (List.mem_cons_of_mem _ hafter)
    · by_cases hof : OfActuator d key m.topic
      · have hvalue := h.queued m (by rw [hqueue]; simp) hof
        rw [applied_of_actuator hkey hof (hvalue ▸ haccepts), hvalue]
      · rw [applied_of_other hof]
        exact h.applied
  | disconnect =>
    dsimp only at hs
    split at hs
    · cases hs
      refine ⟨h.dispatched, h.cmd, h.state, fun m hm => ?_, h.applied⟩
      cases hm
    · cases hs

/-- **An actuator ends at its desired state**, where its state messages overtake no command. Over any
dispatches and any loss and return of the board: once no dispatch is in flight and the
board is connected and has handled what it was sent, it has applied last what is retained. From
there on no order matters: whatever happens to the connection, and in whichever order the broker
then delivers, the output stays at that value. -/
theorem desired_state_converges {s₀ : State V} (hstart : Start d accepts s₀)
    (h : Reaches (step d accepts) (fun s e => Accepted accepts s e ∧ NoOvertaking d key s e) s₀ s)
    (hquiescent : Quiescent s)
    (hkey : key ∈ d.actuators) {doc : Document V}
    (hretained : s.broker.retained.get (d.stateTopic key) = some doc) :
    s.board.applied.get key = some doc.value ∧
      ∀ s', Reaches (step d accepts) Reconnecting s s' →
        s'.board.applied.get key = some doc.value := by
  have htracked : Tracked d accepts key s :=
    h.invariant (hstart.tracked key) fun _ _ _ ih ok hs => tracked_step hkey ih ok.1 ok.2 hs
  have happlied : s.board.applied.get key = some doc.value := by
    have hsubscribed : d.stateTopic key ∈ s.broker.subscriptions := by
      have hmem : d.stateTopic key ∈ ioSubscribe d :=
        List.mem_cons_of_mem _ (List.mem_flatMap.mpr ⟨key, hkey, by simp⟩)
      exact (htracked.linked [] hquiescent.connected _ hmem).resolve_left List.not_mem_nil
    rcases htracked.converging hsubscribed with ⟨p, hmem, _⟩ | hfin
    · cases hquiescent.dispatched _ hmem
    · cases hfin doc hretained with
      | handled _ happlied => exact happlied
      | sent _ _ hqueue =>
        rw [hquiescent.handled] at hqueue
        exact absurd hqueue.symm (by simp)
  refine ⟨happlied, fun s' hreaches => ?_⟩
  have hagreed : Agreed d key doc.value s := by
    refine ⟨hquiescent.dispatched, htracked.cmd, fun doc' hdoc' => ?_, fun m hm => ?_, happlied⟩
    · rw [hretained] at hdoc'
      cases hdoc'
      rfl
    · rw [hquiescent.handled] at hm
      cases hm
  exact (hreaches.invariant hagreed fun _ _ _ ih ok hs =>
    agreed_step hkey (htracked.state doc hretained) ih ok hs).applied

end

def pumpBoard : Device := ⟨"acme", "well", ["pump"]⟩

def cmdPump : String := "acme/well/cmd/pump"

def statePump : String := "acme/well/state/pump"

/-- Two dispatches at once while the board connects, the second one's command between its two
subscriptions. It comes before the state accepted earlier, and no state before a command. -/
def pumpRun : List (Event Bool) :=
  [.dispatch "pump" true "c1" 0 60, .connect, .subscribe, .subscribe, .subscribe, .publish 0,
    .dispatch "pump" false "c2" 0 60, .publish 0, .publish 1, .handle cmdPump, .handle cmdPump,
    .publish 1, .handle statePump, .handle statePump]

theorem desired_state_converges_pump : ∃ s : State Bool,
    Reaches (step pumpBoard fun _ _ => true)
      (fun s e => Accepted (fun _ _ => true) s e ∧ NoOvertaking pumpBoard "pump" s e) {} s ∧
    Quiescent s ∧ s.board.applied.get "pump" = some false := by
  have hfin : (run (guarded (step pumpBoard fun _ _ => true) fun s e =>
      Accepted (fun _ _ => true) s e ∧ NoOvertaking pumpBoard "pump" s e) {} pumpRun).map
      (fun s => (s.dispatches.all List.isEmpty, s.link, s.broker.queue.length,
        (s.broker.retained.get (pumpBoard.stateTopic "pump")).map Document.value)) =
      some (true, some [], 0, some false) := by decide +kernel
  obtain ⟨s, hs, hparts⟩ := Option.map_eq_some_iff.mp hfin
  simp only [Prod.mk.injEq] at hparts
  obtain ⟨hall, hlink, hqueue, hretained⟩ := hparts
  obtain ⟨doc, hdoc, hvalue⟩ := Option.map_eq_some_iff.mp hretained
  have hstart : Start pumpBoard (fun _ _ => true) ({} : State Bool) :=
    ⟨rfl, rfl, rfl, rfl, fun _ => rfl, fun _ _ h => by cases h⟩
  have hquiescent : Quiescent s :=
    ⟨fun rest hrest => List.isEmpty_iff.mp (List.all_eq_true.mp hall rest hrest), hlink,
      List.eq_nil_of_length_eq_zero hqueue⟩
  have hreaches := Reaches.of_run_guarded hs
  have hkey : "pump" ∈ pumpBoard.actuators := List.mem_singleton_self _
  refine ⟨s, hreaches, hquiescent, ?_⟩
  rw [(desired_state_converges hstart hreaches hquiescent hkey hdoc).1, hvalue]

/-- The commands come after the states: the board ends at the command of one dispatch, with the
state of the other one retained. -/
def strayRun : List (Event Bool) :=
  [.connect, .subscribe, .subscribe, .subscribe, .dispatch "pump" true "c1" 0 60,
    .dispatch "pump" false "c2" 0 60, .publish 0, .publish 1, .publish 1, .publish 0,
    .handle statePump, .handle statePump, .handle cmdPump, .handle cmdPump]

/-- **The order of each topic is not enough**: a quiet board at another value than the retained
one. -/
theorem desired_state_strays : ∃ s : State Bool,
    Start pumpBoard (fun _ _ => true) ({} : State Bool) ∧
    Reaches (step pumpBoard fun _ _ => true) (Accepted fun _ _ => true) {} s ∧ Quiescent s ∧
    (s.broker.retained.get (pumpBoard.stateTopic "pump")).map Document.value = some true ∧
    s.board.applied.get "pump" = some false := by
  have hfin : (run (step pumpBoard fun _ _ => true) {} strayRun).map
      (fun s => (s.dispatches.all List.isEmpty, s.link, s.broker.queue.length,
        (s.broker.retained.get (pumpBoard.stateTopic "pump")).map Document.value,
        s.board.applied.get "pump")) =
      some (true, some [], 0, some true, some false) := by decide +kernel
  obtain ⟨s, hs, hparts⟩ := Option.map_eq_some_iff.mp hfin
  simp only [Prod.mk.injEq] at hparts
  obtain ⟨hall, hlink, hqueue, hretained, happlied⟩ := hparts
  refine ⟨s, ⟨rfl, rfl, rfl, rfl, fun _ => rfl, fun _ _ h => by cases h⟩, ?_, ⟨?_, hlink, ?_⟩,
    hretained, happlied⟩
  · exact .of_run_of_forall hs fun e _ s => by cases e <;> first | rfl | trivial
  · exact fun rest hrest => List.isEmpty_iff.mp (List.all_eq_true.mp hall rest hrest)
  · exact List.eq_nil_of_length_eq_zero hqueue

end IotSaas.Commands
