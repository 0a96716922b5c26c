import Mathlib.Data.List.Basic

namespace Drovery

-- A publish that the client has accepted, and whether this happened while it was disconnected. Its
-- callback is still to be fired.
structure InflightPublish where
  id      : Nat
  offline : Bool
  deriving DecidableEq

-- The service and its client, which tells whether it is connected, with the publishes in flight from
-- the latest to the earliest.
structure MqttService where
  connected     : Bool := false
  offlineQueued : Nat  := 0
  published     : Nat  := 0
  inflight      : List InflightPublish := []

namespace MqttService

-- The publishes that the client has buffered while it was disconnected.
def buffered (s : MqttService) : Nat :=
  s.inflight.countP (·.offline)

def dequeue (offline : Bool) (s : MqttService) : MqttService :=
  if offline ∧ 0 < s.offlineQueued then { s with offlineQueued := s.offlineQueued - 1 } else s

-- The serialization of the payload, or the client, may throw.
def publish (max : Nat) (throws : Bool) (s : MqttService) : MqttService :=
  let offline := !s.connected
  if offline ∧ max ≤ s.offlineQueued then
    s
  else
    let s := if offline then { s with offlineQueued := s.offlineQueued + 1 } else s
    if throws then
      s.dequeue offline
    else
      { s with
        published := s.published + 1
        inflight  := { id := s.published, offline } :: s.inflight }

-- The handler of the event with which the client reports that it is connected.
def onConnect (s : MqttService) : MqttService :=
  { s with offlineQueued := 0 }

-- The callback of the given publish, which is only fired once.
def onPublished (id : Nat) (s : MqttService) : MqttService :=
  match s.inflight.find? (·.id = id) with
  | none   => s
  | some p => { s with inflight := s.inflight.eraseP (·.id = id) }.dequeue p.offline

-- The client is connected as soon as the broker has acknowledged it, whereas the event follows later.
inductive Event
  | publish (throws : Bool)
  | connack
  | connect
  | close
  | published (id : Nat)

def exec (max : Nat) (s : MqttService) : Event → MqttService
  | .publish throws => s.publish max throws
  | .connack        => { s with connected := true }
  | .connect        => s.onConnect
  | .close          => { s with connected := false }
  | .published id   => s.onPublished id

def run (max : Nat) (s : MqttService) (events : List Event) : MqttService :=
  events.foldl (exec max) s

-- The levels of a topic, which may be empty.
def levels (topic : String) : List String :=
  (topic.toList.splitOn '/').map String.ofList

-- The loop over the indices of the filter `f`. Past the end of the topic `t` there is no level.
def matchLevels (f t : List String) : List Nat → Bool
  | []      => f.length = t.length
  | i :: is =>
    if f[i]? = some "#" then
      true
    else if f[i]? = some "+" then
      if t[i]? = none then false else matchLevels f t is
    else if f[i]? ≠ t[i]? then
      false
    else
      matchLevels f t is

def topicMatches (filter topic : String) : Bool :=
  let f := levels filter
  let t := levels topic
  matchLevels f t (.range f.length)

end MqttService

end Drovery
