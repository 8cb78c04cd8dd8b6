import IotSaas.Lib.JsCollections
import Mathlib.Data.String.Basic
import Mathlib.Order.Basic

/-!
# `Charts/LiveBuffer.lean` — live points on their way to the charts

`LiveBuffer` of `frontend/src/lib/live-buffer.ts`, while the page is visible. A frame that is pushed
lands in maps; a flush hands the newest readings to one handler and every point to the charts that
draw its series.

A flush runs callbacks, and a callback may push, subscribe, unsubscribe or clear before it returns.
So a flush is taken callback by callback: `Event.flush` begins one, each `Event.next` goes on to the
next callback, and what happens in between is what the callback does. A flush does not begin within a
flush: `flush` is known to `schedule` only, which runs it from a timer.

What callers do and what is delivered is kept in a log. A point carries a number that tells it from
others, as an object's identity does.
-/

set_option autoImplicit false

namespace IotSaas.Charts

open Lib

/-! ## Data -/

/-- The id of a device, which is a UUID; of this only matters that NUL is no part of it. -/
structure DeviceId where
  text : String
  noNul : '\x00' ∉ text.toList
  deriving DecidableEq

/-- A series that can be drawn. -/
abbrev SeriesId := DeviceId × String

/-- `seriesKey`. -/
def seriesKey (series : SeriesId) : String := series.1.text ++ "\x00" ++ series.2

/-- `LivePoint`. -/
structure LivePoint (T V : Type*) where
  id : Nat
  t : T
  v : V

/-- `LatestReading`. -/
structure LatestReading (T V : Type*) where
  metric : String
  value : V
  t : T

/-- `LatestBatch`. -/
abbrev LatestBatch (T V : Type*) := List (DeviceId × List (LatestReading T V))

/-- What happens to a buffer, and what it does. -/
inductive Entry (T V : Type*) where
  | pushed (series : SeriesId) (point : LivePoint T V)
  | subscribed (listener : Nat) (series : SeriesId)
  | unsubscribed (listener : Nat) (series : SeriesId)
  | cleared
  | scheduled
  | flushed
  | batch (batch : LatestBatch T V)
  | delivered (listener : Nat) (key : String) (points : List (LivePoint T V))
  | ended

/-- What the function that `subscribeSeries` returns has kept: the set it found, and the listener in
it. -/
structure Subscription where
  set : Nat
  series : SeriesId
  listener : Nat

/-- The series whose listeners a flush goes through: its points, the set of its listeners, and where
the loop stands in it. -/
structure Round (T V : Type*) where
  key : String
  points : List (LivePoint T V)
  set : Nat
  index : Nat

/-- The points of each series. -/
abbrev Pile (T V : Type*) := List (String × List (LivePoint T V))

/-- A flush that is under way. -/
structure Delivery (T V : Type*) where
  current : Option (Round T V) := none
  rest : Pile T V

/-- The fields of a `LiveBuffer`, the sets it has made (each with the key it was made for), what
`subscribeSeries` has returned, and the flush under way. -/
structure LiveBuffer (T V : Type*) where
  latest : JsMap DeviceId (JsMap String (LatestReading T V)) := .empty
  series : JsMap String (List (LivePoint T V)) := .empty
  listeners : JsMap String Nat := .empty
  sets : List (String × JsSet Nat) := []
  subscriptions : List Subscription := []
  scheduled : Bool := false
  onLatest : Bool := false
  delivery : Option (Delivery T V) := none
  pushes : Nat := 0
  log : List (Entry T V) := []

namespace LiveBuffer

variable {T V : Type*} [LinearOrder T]

def note (e : Entry T V) (s : LiveBuffer T V) : LiveBuffer T V := { s with log := s.log ++ [e] }

/-! ## Calls -/

/-- Whether a reading takes the place of the current one. -/
def isNewer (current : Option (LatestReading T V)) (t : T) : Bool :=
  match current with
  | none => true
  | some current => decide (current.t ≤ t)

/-- What `push` makes of `latest`. -/
def pushLatest (latest : JsMap DeviceId (JsMap String (LatestReading T V))) (series : SeriesId)
    (value : V) (t : T) : JsMap DeviceId (JsMap String (LatestReading T V)) :=
  let perDevice := (latest.get series.1).getD .empty
  latest.set series.1
    (if isNewer (perDevice.get series.2) t then
      perDevice.set series.2 { metric := series.2, value, t }
    else perDevice)

/-- What `push` keeps of a frame. -/
def record (series : SeriesId) (value : V) (t : T) (s : LiveBuffer T V) : LiveBuffer T V :=
  let point : LivePoint T V := ⟨s.pushes, t, value⟩
  let key := seriesKey series
  { s with
    latest := pushLatest s.latest series value t
    series :=
      if (s.listeners.get key).isSome then
        s.series.set key ((s.series.get key).getD [] ++ [point])
      else s.series
    pushes := s.pushes + 1 }.note (.pushed series point)

/-- The end of `push`. -/
def schedule (s : LiveBuffer T V) : LiveBuffer T V :=
  if s.scheduled then s else { s with scheduled := true }.note .scheduled

/-- `push`. -/
def push (isHidden : Bool) (series : SeriesId) (value : V) (t : T) (s : LiveBuffer T V) :
    LiveBuffer T V :=
  if isHidden then s else (s.record series value t).schedule

/-- The set at an address. -/
def setAt (s : LiveBuffer T V) (set : Nat) : JsSet Nat := (s.sets[set]?.map Prod.snd).getD .empty

/-- The set at an address is changed. -/
def changeSet (set : Nat) (change : JsSet Nat → JsSet Nat) (s : LiveBuffer T V) : LiveBuffer T V :=
  { s with sets := s.sets.modify set fun (key, listeners) => (key, change listeners) }

/-- The address of a key's set, which is made if there is none. -/
def findSet (key : String) (s : LiveBuffer T V) : Nat × LiveBuffer T V :=
  match s.listeners.get key with
  | some set => (set, s)
  | none => (s.sets.length,
      { s with
        listeners := s.listeners.set key s.sets.length
        sets := s.sets ++ [(key, .empty)] })

/-- `subscribeSeries`; what it returns is the last of `subscriptions`. -/
def subscribeSeries (series : SeriesId) (listener : Nat) (s : LiveBuffer T V) : LiveBuffer T V :=
  let (set, s) := s.findSet (seriesKey series)
  let s := s.changeSet set fun listeners => listeners.add listener
  let returned : Subscription := { set, series, listener }
  { s with subscriptions := s.subscriptions ++ [returned] }.note (.subscribed listener series)

/-- What `subscribeSeries` returns. -/
def unsubscribe (subscription : Subscription) (s : LiveBuffer T V) : LiveBuffer T V :=
  let s := s.changeSet subscription.set fun listeners => listeners.delete subscription.listener
  let key := seriesKey subscription.series
  let s : LiveBuffer T V :=
    if (s.setAt subscription.set).size = 0 then
      { s with listeners := s.listeners.erase key, series := s.series.erase key }
    else s
  s.note (.unsubscribed subscription.listener subscription.series)

/-- `clear`. -/
def clear (s : LiveBuffer T V) : LiveBuffer T V :=
  { s with latest := .empty, series := .empty }.note .cleared

/-! ## A flush -/

/-- `[...perMetric.values()]` of each device. -/
def batchOf (latest : JsMap DeviceId (JsMap String (LatestReading T V))) : LatestBatch T V :=
  latest.items.map fun (deviceId, perMetric) => (deviceId, perMetric.items.map Prod.snd)

/-- What `flush` takes over. -/
def take (s : LiveBuffer T V) : LiveBuffer T V :=
  { s with
    scheduled := false
    latest := .empty
    series := .empty
    delivery := some { rest := s.series.items } }.note .flushed

/-- The handler of `setLatestHandler` is called. -/
def handLatest (latest : JsMap DeviceId (JsMap String (LatestReading T V)))
    (s : LiveBuffer T V) : LiveBuffer T V :=
  if latest.items ≠ [] ∧ s.onLatest = true then s.note (.batch (batchOf latest)) else s

/-- `flush`, up to the first series. -/
def flush (isHidden : Bool) (s : LiveBuffer T V) : LiveBuffer T V :=
  if isHidden then { s with scheduled := false }.clear else s.take.handLatest s.latest

/-- The next listener of a round. -/
def meet (s : LiveBuffer T V) (round : Round T V) : Option (Nat × Round T V) :=
  ((s.setAt round.set).next round.index).map fun (listener, index) =>
    (listener, { round with index })

/-- The first listener of the series that follow. -/
def advance (s : LiveBuffer T V) : Pile T V → Option (Nat × Round T V × Pile T V)
  | [] => none
  | (key, points) :: rest =>
      match (s.listeners.get key).bind fun set => s.meet ⟨key, points, set, 0⟩ with
      | some (listener, round) => some (listener, round, rest)
      | none => advance s rest

/-- The next callback of a flush, or its end. -/
def next (delivery : Delivery T V) (s : LiveBuffer T V) : LiveBuffer T V :=
  match delivery.current.bind s.meet with
  | some (listener, round) =>
      { s with delivery := some { delivery with current := some round } }.note
        (.delivered listener round.key round.points)
  | none =>
      match s.advance delivery.rest with
      | some (listener, round, rest) =>
          { s with delivery := some { current := some round, rest } }.note
            (.delivered listener round.key round.points)
      | none => { s with delivery := none }.note .ended

end LiveBuffer

/-! ## Runs -/

inductive Event (T V : Type*) where
  | push (series : SeriesId) (value : V) (t : T)
  | subscribe (listener : Nat) (series : SeriesId)
  /-- The function is called that `subscribeSeries` returned the `n`th time. -/
  | unsubscribe (n : Nat)
  | clear
  | setLatestHandler (present : Bool)
  | flush
  | next

namespace LiveBuffer

variable {T V : Type*} [LinearOrder T]

/-- The buffer after an event, of a page that is visible. -/
def react (s : LiveBuffer T V) : Event T V → LiveBuffer T V
  | .push series value t => s.push false series value t
  | .subscribe listener series => s.subscribeSeries series listener
  | .unsubscribe n =>
      match s.subscriptions[n]? with
      | none => s
      | some subscription => s.unsubscribe subscription
  | .clear => s.clear
  | .setLatestHandler present => { s with onLatest := present }
  | .flush => if s.delivery.isSome then s else s.flush false
  | .next =>
      match s.delivery with
      | none => s
      | some delivery => s.next delivery

/-- The buffer after a run. -/
def after (events : List (Event T V)) : LiveBuffer T V := events.foldl react {}

end LiveBuffer

end IotSaas.Charts
