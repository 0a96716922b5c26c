import Mathlib.Data.Rat.Init
import Drovery.Data.Table
import Drovery.Objects.Uuid
import Drovery.Services.Simulation

namespace Drovery

-- Coordinates are numbers of any kind. Only their arithmetic is used, and `num` for the literals.
structure DeliveryCoords (α : Type) where
  fromLat : α
  fromLng : α
  toLat   : α
  toLng   : α

structure PartialCoords (α : Type) where
  fromLat : Option α
  fromLng : Option α
  toLat   : Option α
  toLng   : Option α

structure SimStage where
  status  : DeliveryStatus
  delayMs : Time

def simStages : List SimStage := [
    { status := .confirmed,        delayMs := 10000 },
    { status := .droneAssigned,    delayMs := 25000 },
    { status := .pickupInProgress, delayMs := 45000 },
    { status := .inTransit,        delayMs := 70000 },
    { status := .awaitingHandoff,  delayMs := 120000 }
  ]

def positionUpdateMs : Time := 5000

structure PositionTick (α : Type) where
  delay : Time
  lat   : α
  lng   : α

-- A phase of the flight, during which the drone moves along a straight line.
structure FlightWindow (α : Type) where
  startMs : Time
  endMs   : Time
  source  : α × α
  target  : α × α

section

variable {α : Type} [Add α] [Sub α] [Mul α] (num : ℚ → α)

def defaultCoords : DeliveryCoords α where
  fromLat := num (-6903 / 1000)
  fromLng := num (107615 / 1000)
  toLat   := num (-6922 / 1000)
  toLng   := num (107607 / 1000)

def resolveDeliveryCoords (coords : Option (PartialCoords α)) : DeliveryCoords α where
  fromLat := (coords.bind (·.fromLat)).getD (defaultCoords num).fromLat
  fromLng := (coords.bind (·.fromLng)).getD (defaultCoords num).fromLng
  toLat   := (coords.bind (·.toLat)).getD (defaultCoords num).toLat
  toLng   := (coords.bind (·.toLng)).getD (defaultCoords num).toLng

def flightWindows (coords : DeliveryCoords α) : List (FlightWindow α) := [{
    startMs := 25000
    endMs   := 45000
    source  := (coords.fromLat + num (5 / 1000), coords.fromLng + num (5 / 1000))
    target  := (coords.fromLat, coords.fromLng)
  }, {
    startMs := 70000
    endMs   := 120000
    source  := (coords.fromLat, coords.fromLng)
    target  := (coords.toLat, coords.toLng)
  }]

-- The ticks strictly between the start and the end of a window.
def FlightWindow.ticks (w : FlightWindow α) : List (PositionTick α) :=
  let steps := (w.endMs - w.startMs) / positionUpdateMs
  (List.range' 1 (steps - 1)).map fun i : Nat =>
    let progress := num ((i : ℚ) / (steps : ℚ))
    { delay := w.startMs + i * positionUpdateMs
      lat   := w.source.1 + (w.target.1 - w.source.1) * progress
      lng   := w.source.2 + (w.target.2 - w.source.2) * progress }

def buildPositionTicks (coords : DeliveryCoords α) : List (PositionTick α) :=
  (flightWindows num coords).flatMap (·.ticks num)

def positionTickCount : Nat :=
  (buildPositionTicks num (defaultCoords num)).length

end

inductive JobData (α : Type)
  | kickoff (coords : DeliveryCoords α) (preflightAttempt : Option Nat)
  | stage (coords : DeliveryCoords α) (stageIndex : Nat)
  | position (lat lng : α)

-- A job that is being processed is active. A job that has been processed is kept for a while.
inductive JobState
  | pending
  | active
  | finished
  deriving DecidableEq

structure Job (α : Type) where
  deliveryId : Uuid
  data       : JobData α
  delay      : Time
  state      : JobState := .pending

-- The jobs by their ids.
abbrev SimQueue (α : Type) := Table String (Job α)

namespace SimQueue

variable {α : Type}

-- A job whose id is already known is not added again.
def add (q : SimQueue α) (jobId : String) (job : Job α) : SimQueue α :=
  (q.insert jobId job).getD q

def addBulk (q : SimQueue α) (jobs : List (String × Job α)) : SimQueue α :=
  jobs.foldl (fun q (jobId, job) => q.add jobId job) q

-- An active job is locked by its worker.
def remove (q : SimQueue α) (jobId : String) : SimQueue α :=
  q.deleteMany fun id job => id = jobId ∧ job.state ≠ .active

end SimQueue

namespace SimulationService

variable {α : Type} [Add α] [Sub α] [Mul α] (num : ℚ → α)

def startSimulation (D : Uuid) (coords : Option (PartialCoords α)) (q : SimQueue α) : SimQueue α :=
  let c := resolveDeliveryCoords num coords
  let stageJobs := simStages.zipIdx.map fun (stage, i) =>
    (D.text ++ ":stage:" ++ toString i,
      { deliveryId := D, data := .stage c i, delay := stage.delayMs : Job α })
  let positionJobs := (buildPositionTicks num c).zipIdx.map fun (tick, j) =>
    (D.text ++ ":pos:" ++ toString j,
      { deliveryId := D, data := .position tick.lat tick.lng, delay := tick.delay : Job α })
  q.addBulk (stageJobs ++ positionJobs)

def scheduleKickoff (D : Uuid) (coords : Option (PartialCoords α)) (scheduledFor now : Time)
    (q : SimQueue α) : SimQueue α :=
  q.add (D.text ++ "-kickoff") {
    deliveryId := D
    data       := .kickoff (resolveDeliveryCoords num coords) none
    delay      := scheduledFor - now
  }

def preflightRetryDelayMs : Time := 15 * 60000

def deferKickoff (D : Uuid) (coords : DeliveryCoords α) (attempt : Nat) (q : SimQueue α) :
    SimQueue α :=
  q.add (D.text ++ "-kickoff-r" ++ toString attempt) {
    deliveryId := D
    data       := .kickoff coords (some attempt)
    delay      := preflightRetryDelayMs
  }

def stoppedIds (D : Uuid) : List String :=
  [D.text ++ "-kickoff"] ++
    (List.range simStages.length).map (fun i => D.text ++ ":stage:" ++ toString i) ++
    (List.range (positionTickCount num)).map fun j => D.text ++ ":pos:" ++ toString j

def stopSimulation (D : Uuid) (q : SimQueue α) : SimQueue α :=
  (stoppedIds num D).foldl (·.remove) q

end SimulationService

-- What happens to the queue. The workers, and the queue itself, move jobs to other states and drop
-- them.
inductive SimOp (α : Type)
  | startSimulation (D : Uuid) (coords : Option (PartialCoords α))
  | scheduleKickoff (D : Uuid) (coords : Option (PartialCoords α)) (scheduledFor now : Time)
  | deferKickoff (D : Uuid) (coords : DeliveryCoords α) (attempt : Nat)
  | stopSimulation (D : Uuid)
  | move (jobId : String) (state : JobState)
  | drop (jobId : String)

section

open SimulationService

variable {α : Type} [Add α] [Sub α] [Mul α] (num : ℚ → α)

def SimOp.exec (q : SimQueue α) : SimOp α → SimQueue α
  | .startSimulation D coords                  => SimulationService.startSimulation num D coords q
  | .scheduleKickoff D coords scheduledFor now =>
    SimulationService.scheduleKickoff num D coords scheduledFor now q
  | .deferKickoff D coords attempt             => SimulationService.deferKickoff D coords attempt q
  | .stopSimulation D                          => SimulationService.stopSimulation num D q
  | .move jobId state                          => q.modify jobId ({ · with state })
  | .drop jobId                                => q.erase jobId

-- The queue after a history, which begins with an empty queue.
def SimQueue.after (ops : List (SimOp α)) : SimQueue α :=
  ops.foldl (SimOp.exec num) .empty

end

end Drovery
