import IotSaas.Lib.Dict

/-!
# `Lib/Mqtt.lean` — topics, filters, and a broker as one client sees it

Topic names and filters are strings whose levels are separated by `/`; in a filter a level may be
`+` (any one level) and the last one `#` (the rest, the parent level included).

A `Broker` is what decides which messages reach one client with a clean session: the retained
messages, the topics the client is subscribed to, and the messages sent to it and not yet handled.
A message accepted on a subscribed topic joins the queue; a subscription sends the retained message
of its topic; a lost connection takes subscriptions and queue with it.

MQTT orders the messages of one topic and says nothing across topics. So the queue is in the order
of acceptance, but a delivery names a topic and takes the first message there (`deliver`); those
`ahead` of it, all on other topics, stay. A client that needs more than the order of each topic says
so as a condition on what is `ahead` when a message comes.
-/

set_option autoImplicit false

namespace IotSaas.Lib.Mqtt

/-! ## Topics -/

/-- The levels of a topic name or of a filter. -/
def levels (topic : String) : List String := (topic.toList.splitOn '/').map String.ofList

/-- A level, a slash, and the rest. -/
theorem levels_cons {level : String} (h : '/' ∉ level.toList) (rest : String) :
    levels (level ++ ("/" ++ rest)) = level :: levels rest := by
  have hclean : ∀ c ∈ level.toList, (c == '/') = false :=
    fun c hc => beq_false_of_ne fun heq => h (heq ▸ hc)
  have hchars : (level ++ ("/" ++ rest)).toList = level.toList ++ '/' :: rest.toList := by
    simp [String.toList_append]
  unfold levels
  rw [hchars, List.splitOn_eq_splitOnP, List.splitOnP_append_cons_of_forall_mem hclean '/' (by simp),
    List.map_cons, String.ofList_toList, ← List.splitOn_eq_splitOnP]

/-- A filter against a topic name, level by level. -/
def matchLevels : List String → List String → Bool
  | ["#"], _ => true
  | f :: fs, t :: ts => (decide (f = "+") || decide (f = t)) && matchLevels fs ts
  | [], [] => true
  | _, _ => false

/-- A filter that begins with a wildcard leaves the topics of the broker alone. -/
def topicMatches (filter topic : String) : Bool :=
  let reserved := topic.toList.head? = some '$'
  let wild := (levels filter).head? = some "+" || (levels filter).head? = some "#"
  !(reserved && wild) && matchLevels (levels filter) (levels topic)

/-- Neither wildcard. -/
def Literal (level : String) : Prop := level ≠ "+" ∧ level ≠ "#"

theorem matchLevels_cons {f : String} {fs topic : List String} (hf : Literal f)
    (h : matchLevels (f :: fs) topic = true) :
    ∃ ts, topic = f :: ts ∧ matchLevels fs ts = true := by
  cases topic with
  | nil =>
    cases fs with
    | nil =>
      unfold matchLevels at h
      split at h
      · rename_i heq
        cases heq
        exact absurd rfl hf.2
      all_goals simp_all
    | cons g gs => simp [matchLevels] at h
  | cons t ts =>
    unfold matchLevels at h
    split at h
    · rename_i heq
      cases heq
      exact absurd rfl hf.2
    · rename_i hcons htopic
      cases hcons
      cases htopic
      simp only [Bool.and_eq_true, Bool.or_eq_true, decide_eq_true_eq] at h
      rcases h with ⟨hp | rfl, hrest⟩
      · exact absurd hp hf.1
      · exact ⟨ts, rfl, hrest⟩
    · rename_i heq _
      cases heq
    · cases h

/-- **Literal levels are matched literally:** a topic matched by a filter that begins with them
begins with them too. -/
theorem matchLevels_append {ls fs topic : List String} (hls : ∀ l ∈ ls, Literal l)
    (h : matchLevels (ls ++ fs) topic = true) :
    ∃ ts, topic = ls ++ ts ∧ matchLevels fs ts = true := by
  induction ls generalizing topic with
  | nil => exact ⟨topic, rfl, h⟩
  | cons l ls ih =>
    obtain ⟨ts, rfl, hrest⟩ := matchLevels_cons (hls l List.mem_cons_self) h
    obtain ⟨ts', rfl, hfs⟩ := ih (fun m hm => hls m (List.mem_cons_of_mem _ hm)) hrest
    exact ⟨ts', rfl, hfs⟩

/-! ## The broker -/

structure Message (P : Type) where
  topic : String
  payload : P

structure Broker (P : Type) where
  retained : Dict String P := .empty
  subscriptions : List String := []
  queue : List (Message P) := []

namespace Broker

variable {P : Type}

/-- A publish is accepted. -/
def accept (b : Broker P) (m : Message P) (retain : Bool) : Broker P :=
  { b with
    retained := if retain then b.retained.set m.topic m.payload else b.retained
    queue := if m.topic ∈ b.subscriptions then b.queue ++ [m] else b.queue }

/-- A subscription to one topic name: what is retained there is sent. -/
def subscribe (b : Broker P) (topic : String) : Broker P :=
  { b with
    subscriptions := topic :: b.subscriptions
    queue :=
      match b.retained.get topic with
      | none => b.queue
      | some payload => b.queue ++ [⟨topic, payload⟩] }

/-- What was sent before the next message on a topic. -/
def ahead (b : Broker P) (topic : String) : List (Message P) :=
  b.queue.takeWhile fun m => decide (m.topic ≠ topic)

/-- The client is sent the next message on a topic. -/
def deliver (b : Broker P) (topic : String) : Option (Message P × Broker P) :=
  match b.queue.dropWhile fun m => decide (m.topic ≠ topic) with
  | [] => none
  | m :: rest => some (m, { b with queue := b.ahead topic ++ rest })

/-- The connection is lost. -/
def drop (b : Broker P) : Broker P := { b with subscriptions := [], queue := [] }

@[simp] theorem accept_subscriptions (b : Broker P) (m : Message P) (retain : Bool) :
    (b.accept m retain).subscriptions = b.subscriptions := rfl

@[simp] theorem subscribe_retained (b : Broker P) (topic : String) :
    (b.subscribe topic).retained = b.retained := rfl

@[simp] theorem subscribe_subscriptions (b : Broker P) (topic : String) :
    (b.subscribe topic).subscriptions = topic :: b.subscriptions := rfl

theorem topic_ne_of_ahead {b : Broker P} {topic : String} {m : Message P}
    (h : m ∈ b.ahead topic) : m.topic ≠ topic :=
  of_decide_eq_true (List.all_eq_true.mp List.all_takeWhile m h)

/-- A delivery takes one message out, the first of its topic. -/
theorem deliver_eq_some {b b' : Broker P} {topic : String} {m : Message P}
    (h : b.deliver topic = some (m, b')) : ∃ rest,
      b.queue = b.ahead topic ++ m :: rest ∧ b' = { b with queue := b.ahead topic ++ rest } ∧
        m.topic = topic := by
  unfold deliver at h
  have hsplit := List.takeWhile_append_dropWhile (p := fun m => decide (m.topic ≠ topic))
    (l := b.queue)
  split at h
  · cases h
  · rename_i first rest hdrop
    cases h
    rw [hdrop] at hsplit
    refine ⟨rest, hsplit.symm, rfl, ?_⟩
    have hhead := List.head?_dropWhile_not (fun m : Message P => decide (m.topic ≠ topic)) b.queue
    rw [hdrop] at hhead
    simpa using hhead

/-- Two places in one queue: the second one before the first, the same, or after it. -/
theorem places {α : Type} {before after before' after' : List α} {x y : α}
    (h : before ++ x :: after = before' ++ y :: after') :
    (∃ between, before = before' ++ y :: between ∧ after' = between ++ x :: after) ∨
      (before = before' ∧ x = y ∧ after = after') ∨
      ∃ between, before' = before ++ x :: between ∧ after = between ++ y :: after' := by
  rcases List.append_eq_append_iff.mp h with
    ⟨_ | ⟨next, between⟩, hbefore', hafter⟩ | ⟨_ | ⟨next, between⟩, hbefore, hafter'⟩
  · obtain ⟨rfl, rfl⟩ := List.cons.inj hafter
    exact .inr (.inl ⟨by rw [hbefore', List.append_nil], rfl, rfl⟩)
  · obtain ⟨rfl, rfl⟩ := List.cons.inj hafter
    exact .inr (.inr ⟨between, hbefore', rfl⟩)
  · obtain ⟨rfl, rfl⟩ := List.cons.inj hafter'
    exact .inr (.inl ⟨by rw [hbefore, List.append_nil], rfl, rfl⟩)
  · obtain ⟨rfl, rfl⟩ := List.cons.inj hafter'
    exact .inl ⟨between, hbefore, rfl⟩

end Broker

/-! ## Packets -/

/-- The bytes a remaining length takes. -/
def lengthBytes (n : Nat) : Nat :=
  if n < 128 then 1 else if n < 16384 then 2 else if n < 2097152 then 3 else 4

/-- The bytes of a `PUBLISH` above QoS 0: header, length, topic, packet identifier, payload. -/
def publishBytes (topic payload : String) : Nat :=
  let remaining := 2 + topic.utf8ByteSize + 2 + payload.utf8ByteSize
  1 + lengthBytes remaining + remaining

theorem publishBytes_le_1024 (topic payload : String) :
    publishBytes topic payload ≤ 1024 ↔ topic.utf8ByteSize + payload.utf8ByteSize ≤ 1017 := by
  unfold publishBytes lengthBytes
  dsimp only
  split_ifs <;> omega

end IotSaas.Lib.Mqtt
