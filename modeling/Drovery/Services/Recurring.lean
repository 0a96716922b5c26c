import Mathlib.Data.List.Sort
import Drovery.Concurrency.Method
import Drovery.Objects.Recurrence

namespace Drovery.Recurring

open Concurrency

abbrev ScheduleId := Nat

def scanIntervalMs : Int := 60000
def lookaheadMs : Int := 6 * 60 * 60 * 1000
def missedGraceMs : Int := 2 * scanIntervalMs
def scanBatch : Nat := 200
def maxCursorAdvances : Nat := 400

-- What every delivery of a schedule has in common.
structure Template where
  fromAddress   : String
  toAddress     : String
  receiver      : String
  packages      : String
  packageSize   : String
  packageWeight : ℚ
  packageTypes  : List String

structure RecurringDelivery extends RecurrenceRule, Template where
  userId             : UserId
  active             : Bool
  -- The next occurrence for which there is no delivery yet (if there is one left).
  nextRunAt          : Option Instant
  lastMaterializedAt : Option Instant
  lastDeliveryId     : Option DeliveryId

-- The delivery that is ordered for an occurrence.
structure CreateDeliveryDto extends Template where
  pickupDate : String
  pickupTime : String

structure CreateRecurringDeliveryDto extends Template where
  freq       : RecurrenceFreq
  daysOfWeek : Option (List Int)
  timeOfDay  : String
  startDate  : Option Instant
  endDate    : Option Instant

def maxWeightKg : String → Option ℚ
  | "Small"  => some (1 / 2)
  | "Medium" => some (3 / 2)
  | "Large"  => some 3
  | "XL"     => some 5
  | _        => none

def assertWeightWithinCap (packageSize : String) (packageWeight : ℚ) : Except AppError Unit :=
  if (maxWeightKg packageSize).any (· < packageWeight) then
    .error <| .badRequest "error.delivery.package.weight_exceeds_cap"
  else
    .ok ()

def twoDigits (n : Int) : String :=
  if n < 10 then "0" ++ toString n else toString n

-- The calendar date of an instant, in the form `YYYY-MM-DD`.
def serviceDate (instant : Instant) (tz : TimeZone) : String :=
  let date := tzCalendarDate instant tz
  toString date.year ++ "-" ++ twoDigits date.month ++ "-" ++ twoDigits date.day

def toCreateDto (s : RecurringDelivery) (occurrence : Instant) (tz : TimeZone) :
    CreateDeliveryDto where
  toTemplate := s.toTemplate
  pickupDate := serviceDate occurrence tz
  pickupTime := s.timeOfDay

structure Store where
  clock     : Time
  schedules : Table ScheduleId RecurringDelivery

inductive Stmt
  | dateNow
  | passTime (ms : Nat)
  | findDue (horizon : Instant)
  -- The cursor is moved only if it still is at `cursor`. The write does not depend on whether the
  -- occurrence has been missed.
  | claim (S : ScheduleId) (cursor : Instant) (missed : Bool) (advanceTo : Option Instant)
  -- The creation of the delivery for an occurrence, which may fail.
  | createDelivery (S : ScheduleId) (U : UserId) (occurrence : Instant) (dto : CreateDeliveryDto)
    (result : Except AppError DeliveryId)
  | recordMaterialized (S : ScheduleId) (now : Instant) (D : DeliveryId)
  | insert (S : ScheduleId) (row : RecurringDelivery)
  | find (U : UserId) (S : ScheduleId)
  | pause (U : UserId) (S : ScheduleId)
  | resume (U : UserId) (S : ScheduleId) (next : Instant)
  | delete (U : UserId) (S : ScheduleId)

namespace RecurringDelivery

def due (horizon : Instant) (s : RecurringDelivery) : Bool :=
  s.active ∧ s.nextRunAt.any (· ≤ horizon)

def isAt (cursor : Instant) (s : RecurringDelivery) : Bool :=
  s.active ∧ s.nextRunAt = some cursor

end RecurringDelivery

namespace Store

variable (db : Store)

-- The schedules that are due, in the order of their cursors.
def findDue (horizon : Instant) : List (ScheduleId × RecurringDelivery) :=
  db.schedules.findMany (fun _ s => s.due horizon)
    |>.insertionSort (fun s₁ s₂ => s₁.snd.nextRunAt.getD 0 ≤ s₂.snd.nextRunAt.getD 0)
    |>.take scanBatch

-- An update of the schedule `S`, provided that it satisfies the guard.
def updateMany (S : ScheduleId) (guard : RecurringDelivery → Bool)
    (f : RecurringDelivery → RecurringDelivery) : Nat × Store :=
  ((db.schedules.cas S guard f).fst, { db with schedules := (db.schedules.cas S guard f).snd })

def insert (S : ScheduleId) (row : RecurringDelivery) : Except AppError Unit × Store :=
  match db.schedules.insert S row with
  | none           => (.error <| .p2002 .recurringDeliveryId, db)
  | some schedules => (.ok (), { db with schedules })

def delete (U : UserId) (S : ScheduleId) : Nat × Store :=
  if (db.schedules.find? S).any (·.userId = U) then
    (1, { db with schedules := db.schedules.erase S })
  else
    (0, db)

end Store

namespace Stmt

@[reducible]
def Res : Stmt → Type
  | dateNow              => Time
  | passTime _           => Unit
  | findDue _            => List (ScheduleId × RecurringDelivery)
  | claim ..             => Nat
  | createDelivery ..    => Except AppError DeliveryId
  | recordMaterialized .. => Nat
  | insert ..            => Except AppError Unit
  | find ..              => Option RecurringDelivery
  | pause ..             => Nat
  | resume ..            => Nat
  | delete ..            => Nat

def exec : (x : Stmt) → Store → x.Res × Store
  | dateNow, db => (db.clock, db)
  | passTime ms, db => ((), { db with clock := db.clock + ms })
  | findDue horizon, db => (db.findDue horizon, db)
  | claim S cursor _ advanceTo, db =>
    db.updateMany S (·.isAt cursor) fun s => { s with nextRunAt := advanceTo }
  | createDelivery _ _ _ _ result, db => (result, db)
  | recordMaterialized S now D, db =>
    db.updateMany S (fun _ => true) fun s =>
      { s with lastMaterializedAt := some now, lastDeliveryId := some D }
  | insert S row, db => db.insert S row
  | find U S, db => ((db.schedules.find? S).filter (·.userId = U), db)
  | pause U S, db => db.updateMany S (·.userId = U) fun s => { s with active := false }
  | resume U S next, db =>
    db.updateMany S (·.userId = U) fun s => { s with active := true, nextRunAt := some next }
  | delete U S, db => db.delete U S

@[reducible]
def sig : Signature where
  Stmt := Stmt
  Res  := Res

end Stmt

abbrev App := Method Stmt.sig AppError

abbrev App.stmt (x : Stmt) : App x.Res :=
  @Method.stmt Stmt.sig AppError x

abbrev App.tx {α : Type} (x : Stmt) (f : x.Res → Except AppError α) : App α :=
  @Method.tx Stmt.sig AppError α x f

open Recurring.App (stmt tx)

-- The results of the deliveries that a scan tries to create.
abbrev Creations := ScheduleId → Instant → Except AppError DeliveryId

namespace RecurringMaterializer

-- A failed creation does not affect the schedule.
def createInstance (tz : TimeZone) (S : ScheduleId) (schedule : RecurringDelivery)
    (occurrence now : Instant) (creations : Creations) : App Unit :=
  Method.safe do
    let dto := toCreateDto schedule occurrence tz
    let D ← tx (.createDelivery S schedule.userId occurrence dto (creations S occurrence)) id
    stmt <| .recordMaterialized S now D

-- Works off the occurrences up to the horizon, at most `n` of them. The cursor is moved before the
-- delivery is created.
def advance (tz : TimeZone) (S : ScheduleId) (schedule : RecurringDelivery) (now horizon : Instant)
    (creations : Creations) : (n : Nat) → (cursor : Option Instant) → App Unit
  | 0,     _           => pure ()
  | _ + 1, none        => pure ()
  | n + 1, some cursor =>
    if horizon < cursor then
      pure ()
    else do
      let missed : Bool := cursor < now - missedGraceMs
      -- After a missed occurrence, only those in the future matter.
      let advanceTo :=
        computeNextOccurrence schedule.toRecurrenceRule (if missed then now else cursor) tz
      let count ← stmt <| .claim S cursor missed advanceTo
      if count = 0 then
        pure ()
      else if missed then
        advance tz S schedule now horizon creations n advanceTo
      else do
        createInstance tz S schedule cursor now creations
        advance tz S schedule now horizon creations n advanceTo

def materializeSchedule (tz : TimeZone) (S : ScheduleId) (schedule : RecurringDelivery)
    (now horizon : Instant) (creations : Creations) : App Unit :=
  advance tz S schedule now horizon creations maxCursorAdvances schedule.nextRunAt

-- One bad schedule does not affect the others.
def materializeAll (tz : TimeZone) (now horizon : Instant) (creations : Creations) :
    List (ScheduleId × RecurringDelivery) → App Unit
  | []                    => pure ()
  | (S, schedule) :: rest => do
    (materializeSchedule tz S schedule now horizon creations).safe
    materializeAll tz now horizon creations rest

def scanAndMaterialize (tz : TimeZone) (creations : Creations) : App Unit := do
  let now ← stmt .dateNow
  let horizon := now + lookaheadMs
  let due ← stmt <| .findDue horizon
  materializeAll tz now horizon creations due

end RecurringMaterializer

namespace RecurringDeliveriesService

-- A schedule starts right away unless its start is given.
def startDate (dto : CreateRecurringDeliveryDto) : App Instant :=
  match dto.startDate with
  | some startDate => pure startDate
  | none           => do pure <| Int.ofNat (← stmt .dateNow)

-- The rule of a new schedule. The weekdays only matter for weekly rules.
def checkRule (dto : CreateRecurringDeliveryDto) (startDate : Instant) :
    Except AppError RecurrenceRule :=
  let daysOfWeek := match dto.freq with
    | .daily  => []
    | .weekly => (dto.daysOfWeek.getD []).dedup.insertionSort (· ≤ ·)
  if dto.endDate.any (· < startDate) then
    .error <| .badRequest "error.recurring.end_before_start"
  else if dto.freq = .weekly ∧ daysOfWeek = [] then
    .error <| .badRequest "error.recurring.weekly_needs_days"
  else
    .ok { freq := dto.freq, daysOfWeek, timeOfDay := dto.timeOfDay, startDate, endDate := dto.endDate }

def create (tz : TimeZone) (S : ScheduleId) (U : UserId) (dto : CreateRecurringDeliveryDto) :
    App Unit := do
  Method.check <| assertWeightWithinCap dto.packageSize dto.packageWeight
  let startDate ← startDate dto
  let rule ← Method.check <| checkRule dto startDate
  let now ← stmt .dateNow
  match computeNextOccurrence rule now tz with
  | none           => throw <| .badRequest "error.recurring.no_future_occurrence"
  | some nextRunAt =>
    tx (.insert S {
      toRecurrenceRule   := rule
      toTemplate         := dto.toTemplate
      userId             := U
      active             := true
      nextRunAt          := some nextRunAt
      lastMaterializedAt := none
      lastDeliveryId     := none
    }) id

def findOne (U : UserId) (S : ScheduleId) : App RecurringDelivery := do
  match ← stmt <| .find U S with
  | none     => throw <| .notFound "error.recurring.not_found"
  | some row => pure row

def pause (U : UserId) (S : ScheduleId) : App Unit := do
  let count ← stmt <| .pause U S
  if count = 0 then
    throw <| .notFound "error.recurring.not_found"
  let _ ← findOne U S

-- The cursor is computed anew, so that a long pause is not made up for.
def resume (tz : TimeZone) (U : UserId) (S : ScheduleId) : App Unit := do
  let row ← findOne U S
  let now ← stmt .dateNow
  match computeNextOccurrence row.toRecurrenceRule now tz with
  | none      => throw <| .badRequest "error.recurring.already_ended"
  | some next =>
    let _ ← stmt <| .resume U S next
    let _ ← findOne U S

def remove (U : UserId) (S : ScheduleId) : App Unit := do
  let count ← stmt <| .delete U S
  if count = 0 then
    throw <| .notFound "error.recurring.not_found"

end RecurringDeliveriesService

inductive Call
  | scanAndMaterialize (creations : Creations)
  | create (U : UserId) (dto : CreateRecurringDeliveryDto)
  | pause (U : UserId) (S : ScheduleId)
  | resume (U : UserId) (S : ScheduleId)
  | remove (U : UserId) (S : ScheduleId)
  | passTime (ms : Nat)

-- The time zone of the service, and the ids of new schedules.
structure Params where
  tz             : TimeZone
  uuid           : Nat → ScheduleId
  uuid_injective : Function.Injective uuid

def Call.prog (P : Params) (t : Nat) : Call → Prog Stmt.sig Unit
  | scanAndMaterialize creations =>
    (RecurringMaterializer.scanAndMaterialize P.tz creations).toCall
  | create U dto                 =>
    (RecurringDeliveriesService.create P.tz (P.uuid t) U dto).toCall
  | pause U S                    => (RecurringDeliveriesService.pause U S).toCall
  | resume U S                   => (RecurringDeliveriesService.resume P.tz U S).toCall
  | remove U S                   => (RecurringDeliveriesService.remove U S).toCall
  | passTime ms                  => (stmt <| .passTime ms).toCall

-- The recurring deliveries, with any number of workers that scan the schedules.
def system (P : Params) : System Stmt.sig Store Call where
  exec := Stmt.exec
  prog := Call.prog P

end Drovery.Recurring
