import Drovery.Concurrency.Sequential
import Drovery.Concurrency.Session
import Drovery.Data.JsString
import Drovery.Objects.Columns
import Drovery.Services.Support
import Drovery.Services.Termination

namespace Drovery.Admin

open Concurrency Session
open Support (TicketId SupportTicket SupportTicketStatus SupportChatMessage)

-- The database as the administration sees it. The latest messages and audit entries come first.
structure Store where
  platform  : Drovery.Store
  airframes : Table DroneId Airframe
  zones     : Table ZoneId AirspaceZone
  users     : Table UserId Role
  tickets   : Serial SupportTicket
  messages  : List SupportChatMessage
  audit     : List AuditEntry

abbrev App := Session Store AppError

-- Runs a part of the platform that takes care of its own failures.
def run {α : Type} (p : Drovery.App α) : App α :=
  reliably fun db =>
    ((Method.eval Stmt.exec p db.platform).fst,
      { db with platform := (Method.eval Stmt.exec p db.platform).snd })

-- Replaces the violation of a unique index by an error of the service.
def onUniqueViolation {α : Type} (p : App α) (e : AppError) : App α :=
  tryCatch p fun e' => if e'.isUniqueViolation then throw e else throw e'

namespace AdminAuditService

def recordWithinTx (entry : AuditEntry) : App Unit :=
  write fun db => .ok { db with audit := entry :: db.audit }

end AdminAuditService

open AdminAuditService (recordWithinTx)

-- What the administration hands over to other services, to be run within their transactions.
abbrev AuditWithinTx (α : Type) := α → App Unit

namespace DeliveriesService

def find (D : DeliveryId) : App (Option Delivery) :=
  read (·.platform.deliveries.find? D)

def readStatus (D : DeliveryId) : App (Option DeliveryStatus) := do
  return (← find D).map (·.status)

def transition (D : DeliveryId) (tr : Transition) : App Nat :=
  cas fun db =>
    let (count, platform) := Stmt.exec (.delivery <| .transition none D tr) db.platform
    (count, { db with platform })

-- Whether the cancellation has fired, and what becomes of the aircraft.
def forceCancelTx (D : DeliveryId) (auditWithinTx : AuditWithinTx (Option DeliveryStatus)) :
    App (Option ReleaseOutcome) :=
  transaction do
    let firedFrom ← readStatus D
    let count ← transition D .forceCancelOnGround
    if 0 < count then
      auditWithinTx firedFrom
      return some .returnToFleet
    let firedFrom ← readStatus D
    let count ← transition D .forceCancelAirborne
    if 0 < count then
      auditWithinTx firedFrom
      return some .groundForInspection
    return none

def adminForceCancel (D : DeliveryId) (auditWithinTx : AuditWithinTx (Option DeliveryStatus))
    (faults : CleanupFaults) : App Unit := do
  match ← forceCancelTx D auditWithinTx with
  | some outcome =>
    run <| Drovery.DeliveriesService.cleanupAfterTermination D true (.released outcome) faults
    let _ ← find D
  | none         =>
    match ← find D with
    | none   => throw <| .notFound "error.delivery.not_found"
    | some _ => throw <| .conflict "error.delivery.cancel.race_bad_status"

def failFrom (D : DeliveryId) (allowed : List DeliveryStatus) (reason : DeliveryFailureReason) :
    App Nat :=
  if allowed = [] then pure 0 else transition D (.fail allowed reason)

-- Whether the failure has fired, and if so, whether the aircraft was in the air.
def failTx (D : DeliveryId) (reason : DeliveryFailureReason) (allowed : List DeliveryStatus)
    (auditWithinTx : AuditWithinTx (Option DeliveryStatus)) : App (Option Bool) :=
  transaction do
    let firedFrom ← readStatus D
    let matched ← failFrom D (allowed.filter (· ∉ DeliveryStatus.failableStatuses)) reason
    if 0 < matched then
      auditWithinTx firedFrom
      return some false
    let matched ← failFrom D (allowed.filter (· ∈ DeliveryStatus.failableStatuses)) reason
    if 0 < matched then
      auditWithinTx firedFrom
      return some true
    return none

def failExceptional (D : DeliveryId) (reason : DeliveryFailureReason)
    (auditWithinTx : AuditWithinTx (Option DeliveryStatus)) (faults : CleanupFaults) :
    App Bool := do
  match ← failTx D reason DeliveryStatus.failableStatuses auditWithinTx with
  | none          => return false
  | some airborne =>
    run <| Drovery.DeliveriesService.finishFailure D reason airborne faults
    return true

def adminFail (D : DeliveryId) (reason : DeliveryFailureReason)
    (auditWithinTx : AuditWithinTx (Option DeliveryStatus)) (faults : CleanupFaults) :
    App Unit := do
  let applied ← failExceptional D reason auditWithinTx faults
  if applied then
    let _ ← find D
  else
    match ← find D with
    | none   => throw <| .notFound "error.delivery.not_found"
    | some _ => throw <| .conflict "error.delivery.fail.bad_status"

end DeliveriesService

namespace DroneCommandService

def create (C : CommandId) (row : DroneCommand) : App Unit :=
  write fun db =>
    match CommandStmt.execCreate db.platform.commands C row with
    | (.error e, _)      => .error e
    | (.ok (), commands) => .ok { db with platform := { db.platform with commands } }

def issueTx (C : CommandId) (row : DroneCommand) (auditWithinTx : AuditWithinTx DroneCommand) :
    App Unit :=
  onUniqueViolation
    (transaction do
      create C row
      auditWithinTx row)
    (.conflict "error.command.already_pending")

def issue (C : CommandId) (adminId : Option UserId) (D : DeliveryId) (type : DroneCommandType)
    (reason : Option DeliveryFailureReason) (now : Time)
    (auditWithinTx : AuditWithinTx DroneCommand) : App Unit := do
  match ← DeliveriesService.find D with
  | none          => throw <| .notFound "error.delivery.not_found"
  | some delivery =>
    if delivery.trackingSource ≠ .live then
      throw <| .unprocessable "error.command.live_only"
    match delivery.assignedDroneId with
    | none   => throw <| .conflict "error.command.no_drone"
    | some X =>
      if delivery.status ∉ type.legalStatuses then
        throw <| .conflict "error.command.illegal_for_status"
      let total ← read fun db => db.platform.commands.count fun _ c => c.deliveryId = D
      if maxCommandsPerDelivery ≤ total then
        throw <| .conflict "error.command.limit_reached"
      issueTx C {
        deliveryId        := D
        droneId           := X
        type              := type
        reason            := reason.getD type.defaultReason
        status            := .pending
        issuedByUserId    := adminId
        appliedTransition := false
        resultNote        := none
        expiresAt         := now + commandTtlMs
        fetchedAt         := none
        ackedAt           := none
        createdAt         := now
      } auditWithinTx

end DroneCommandService

-- What an operator may register about a drone, and what may be changed about it later on.
structure CreateDroneDto where
  serial          : String
  model           : String
  firmwareVersion : Option String
  maxPayloadKg    : ℚ
  rangeKm         : ℚ
  homeBaseLat     : ℚ
  homeBaseLng     : ℚ

structure UpdateDroneDto extends Drovery.UpdateDroneDto where
  firmwareVersion : Option (Option String) := none

structure CreatePromoDto where
  code           : String
  discountType   : PromoDiscountType
  discountValue  : ℚ
  minOrderTotal  : Option ℚ
  maxDiscount    : Option ℚ
  startsAt       : Option Time
  endsAt         : Option Time
  maxRedemptions : Option Int

namespace CreateDroneDto

def airframe (dto : CreateDroneDto) : Airframe where
  serial          := dto.serial
  model           := dto.model
  firmwareVersion := dto.firmwareVersion
  ingestKeyHash   := none

def drone (dto : CreateDroneDto) : Drone where
  status           := .available
  airworthy        := true
  maxPayloadKg     := dto.maxPayloadKg
  rangeKm          := dto.rangeKm
  batteryPercent   := 100
  homeBaseLat      := dto.homeBaseLat
  homeBaseLng      := dto.homeBaseLng
  currentPosition  := none
  maintenanceDueAt := none
  activeDeliveryId := none

end CreateDroneDto

def UpdateDroneDto.apply (dto : UpdateDroneDto) (airframe : Airframe) : Airframe :=
  { airframe with firmwareVersion := dto.firmwareVersion.getD airframe.firmwareVersion }

-- The checks of the request itself. A check of an optional field is skipped if the field is missing.
structure CreatePromoDto.Valid (dto : CreatePromoDto) : Prop where
  code           : dto.code ≠ "" ∧ dto.code.length ≤ 64
  discountValue  : 0 < dto.discountValue
  minOrderTotal  : ∀ t ∈ dto.minOrderTotal, 0 ≤ t
  maxDiscount    : ∀ m ∈ dto.maxDiscount, 0 < m
  maxRedemptions : ∀ n ∈ dto.maxRedemptions, 1 ≤ n

-- A check is also skipped if its field is null, which clears an optional column.
structure ValidUpdate (dto : Drovery.UpdatePromoDto) : Prop where
  discountValue  : ∀ v ∈ dto.discountValue, 0 < v
  minOrderTotal  : ∀ t ∈ dto.minOrderTotal, 0 ≤ t
  maxDiscount    : ∀ m ∈ dto.maxDiscount.join, 0 < m
  maxRedemptions : ∀ n ∈ dto.maxRedemptions.join, 1 ≤ n

-- Codes are stored in upper case.
def CreatePromoDto.promo (dto : CreatePromoDto) : PromoCode where
  code           := JsString.toUpperCase <| .ofList <| JsString.trim dto.code.toList
  discountType   := dto.discountType
  discountValue  := dto.discountValue
  minOrderTotal  := dto.minOrderTotal.getD 0
  maxDiscount    := dto.maxDiscount
  startsAt       := dto.startsAt
  endsAt         := dto.endsAt
  active         := true
  maxRedemptions := dto.maxRedemptions
  timesRedeemed  := 0
  perUserLimit   := 1

namespace Store

variable (db : Store)

def findDrone (X : DroneId) : Option (Airframe × Drone) := do
  return (← db.airframes.find? X, ← db.platform.fleet.find? X)

-- The serial of a drone is unique.
def createDrone (X : DroneId) (airframe : Airframe) (drone : Drone) : Except AppError Store :=
  if 0 < db.airframes.count fun _ a => a.serial = airframe.serial then
    .error <| .p2002 .droneSerial
  else
    match db.airframes.insert X airframe, db.platform.fleet.insert X drone with
    | some airframes, some fleet => .ok { db with airframes, platform := { db.platform with fleet } }
    | _, _                       => .error <| .p2002 .droneSerial

-- An update of a single row fails if there is no such row, and otherwise returns the new row.
def updateDrone (X : DroneId) (dto : UpdateDroneDto) : Except AppError (Airframe × Drone) × Store :=
  match db.findDrone X with
  | none                   => (.error .recordNotFound, db)
  | some (airframe, drone) =>
    (.ok (dto.apply airframe, drone.update dto.toUpdateDroneDto), { db with
      airframes := db.airframes.modify X dto.apply
      platform  :=
        { db.platform with fleet := db.platform.fleet.modify X (·.update dto.toUpdateDroneDto) }
    })

def setPromos (promos : Promos) : Store :=
  { db with platform := { db.platform with promos } }

-- The code of a promotion is unique.
def createPromo (P : PromoId) (promo : PromoCode) : Except AppError Store :=
  let codes := db.platform.promos.codes
  if 0 < codes.count fun _ c => c.code = promo.code then
    .error <| .p2002 .promoCode
  else
    match codes.insert P promo with
    | none       => .error <| .p2002 .promoCode
    | some codes => .ok <| db.setPromos { db.platform.promos with codes }

def updatePromo (P : PromoId) (dto : UpdatePromoDto) : Nat × Store :=
  let (count, promos) := (PromoStmt.update P dto).exec db.platform.clock db.platform.promos
  (count, db.setPromos promos)

def createZone (Z : ZoneId) (zone : AirspaceZone) : Except AppError Store :=
  match db.zones.insert Z zone with
  | none       => .error <| .p2002 .airspaceZoneId
  | some zones => .ok { db with zones }

def updateZone (Z : ZoneId) (patch : AirspaceZonePatch) : Except AppError AirspaceZone × Store :=
  match db.zones.find? Z with
  | none      => (.error .recordNotFound, db)
  | some zone => (.ok <| patch.apply zone, { db with zones := db.zones.modify Z patch.apply })

def refundPayment (D : DeliveryId) : Nat × Store :=
  let (count, payments) := db.platform.payments.refund D RefundChannel.admin.refundable
  (count, { db with platform := { db.platform with payments } })

def credit (D : DeliveryId) (U : UserId) (amount : Cents) : Except AppError Store := do
  let wallet ← db.platform.wallet.creditWithinTx U amount .checkoutRefund
    { deliveryId := some D, idempotencyKey := some <| RefundChannel.admin.key D }
  return { db with platform := { db.platform with wallet } }

def setRole (U : UserId) (role : Role) : Except AppError Role × Store :=
  match db.users.find? U with
  | none   => (.error .recordNotFound, db)
  | some _ => (.ok role, { db with users := db.users.modify U fun _ => role })

def createMessage (message : SupportChatMessage) : Except AppError Store :=
  match db.tickets.find? message.ticketId with
  | none   => .error .p2003
  | some _ => .ok { db with messages := message :: db.messages }

def updateTicket (T : TicketId) (f : SupportTicket → SupportTicket) : Except AppError Store :=
  match db.tickets.find? T with
  | none   => .error .recordNotFound
  | some _ => .ok { db with tickets := db.tickets.modify T f }

def setTicketStatus (T : TicketId) (status : SupportTicketStatus) : Nat × Store :=
  match db.tickets.find? T with
  | none   => (0, db)
  | some _ => (1, { db with tickets := db.tickets.modify T ({ · with status }) })

end Store

namespace AdminService

def forceCancel (actor : AuditActor) (D : DeliveryId) (faults : CleanupFaults) : App Unit :=
  DeliveriesService.adminForceCancel D (fun firedFrom => recordWithinTx {
    actor.entry .deliveryForceCancel .delivery D with
    before := pickAllowed .deliveryForceCancel
      (some [(.status, .ofOption (fun status => .string status.name) firedFrom)])
  }) faults

-- It is the resolved reason that is recorded.
def fail (actor : AuditActor) (D : DeliveryId) (reason : Option DeliveryFailureReason)
    (faults : CleanupFaults) : App Unit :=
  let resolved := reason.getD .adminAbort
  DeliveriesService.adminFail D resolved (fun firedFrom => recordWithinTx {
    actor.entry .deliveryFail .delivery D with
    before := pickAllowed .deliveryFail
      (some [(.status, .ofOption (fun status => .string status.name) firedFrom)])
    args   := pickAllowed .deliveryFail (some [(.reason, .string resolved.name)])
  }) faults

def refundTx (actor : AuditActor) (D : DeliveryId) (U : UserId) (amount : Cents) : App Unit :=
  transaction do
    let count ← cas (·.refundPayment D)
    if count = 0 then
      throw <| .conflict "error.admin.refund.already_refunded"
    write (·.credit D U amount)
    recordWithinTx {
      actor.entry .deliveryRefund .delivery D with
      args := pickAllowed .deliveryRefund (some [(.amount, .money amount)])
    }

def refund (actor : AuditActor) (D : DeliveryId) (amount : Option Cents) : App Unit := do
  match ← DeliveriesService.find D with
  | none          => throw <| .notFound "error.delivery.not_found"
  | some delivery =>
    let refundAmount := amount.getD delivery.estimatedPrice
    if refundAmount ≤ 0 ∨ delivery.estimatedPrice < refundAmount then
      throw <| .badRequest "error.admin.refund.invalid_amount"
    onUniqueViolation (refundTx actor D delivery.userId refundAmount)
      (.conflict "error.admin.refund.already_refunded")

def createDrone (actor : AuditActor) (X : DroneId) (dto : CreateDroneDto) : App Unit :=
  onUniqueViolation
    (transaction do
      write (·.createDrone X dto.airframe dto.drone)
      recordWithinTx {
        actor.entry .droneCreate .drone X with
        args := pickAllowed .droneCreate (some <| dto.drone.toFields dto.airframe)
      })
    (.conflict "error.admin.drone.serial_exists")

def getDrone (X : DroneId) : App (Airframe × Drone) := do
  match ← read (·.findDrone X) with
  | none       => throw <| .notFound "error.admin.drone.not_found"
  | some drone => return drone

def updateDrone (actor : AuditActor) (X : DroneId) (dto : UpdateDroneDto) : App Unit := do
  let (airframe, drone) ← getDrone X
  transaction do
    let (airframe', drone') ← stmt (·.updateDrone X dto)
    let (before, after) := diffAllowed .droneUpdate (some <| drone.toFields airframe)
      (some <| drone'.toFields airframe')
    recordWithinTx { actor.entry .droneUpdate .drone X with before, after }

def issueDroneCommand (actor : AuditActor) (C : CommandId) (D : DeliveryId)
    (type : DroneCommandType) (reason : Option DeliveryFailureReason) (now : Time) : App Unit :=
  DroneCommandService.issue C actor.userId D type reason now fun command => recordWithinTx {
    actor.entry .droneCommandIssue .delivery D with
    args := pickAllowed .droneCommandIssue (some command.toFields)
  }

def assertDiscountValue (type : PromoDiscountType) (value : ℚ) : App Unit :=
  if type = .percent ∧ (value ≤ 0 ∨ 100 < value) then
    throw <| .badRequest "error.admin.promo.percent_range"
  else
    pure ()

def createPromoTx (actor : AuditActor) (P : PromoId) (promo : PromoCode) : App Unit :=
  transaction do
    write (·.createPromo P promo)
    recordWithinTx {
      actor.entry .promoCreate .promo P with
      args := pickAllowed .promoCreate (some promo.toFields)
    }

def createPromo (actor : AuditActor) (P : PromoId) (dto : CreatePromoDto) : App Unit := do
  assertDiscountValue dto.discountType dto.discountValue
  onUniqueViolation (createPromoTx actor P dto.promo) (.conflict "error.admin.promo.code_exists")

def getPromo (P : PromoId) : App PromoCode := do
  match ← read (·.platform.promos.codes.find? P) with
  | none       => throw <| .notFound "error.admin.promo.not_found"
  | some promo => return promo

def updatePromoTx (actor : AuditActor) (P : PromoId) (before : PromoCode) (dto : UpdatePromoDto) :
    App Unit :=
  transaction do
    let count ← cas (·.updatePromo P dto)
    if count = 0 then
      throw <| .notFound "error.admin.promo.not_found"
    let after ← read (·.platform.promos.codes.find? P)
    let (before, after) :=
      diffAllowed .promoUpdate (some before.toFields) (after.map (·.toFields))
    recordWithinTx { actor.entry .promoUpdate .promo P with before, after }

-- A new value is checked against the type that the promotion already has.
def updatePromo (actor : AuditActor) (P : PromoId) (dto : UpdatePromoDto) : App Unit := do
  let before ← getPromo P
  match dto.discountValue with
  | none       => pure ()
  | some value => assertDiscountValue before.discountType value
  updatePromoTx actor P before dto

def check (r : Except AppError Unit) : App Unit :=
  match r with
  | .ok _    => pure ()
  | .error e => throw e

def createZoneTx (actor : AuditActor) (Z : ZoneId) (zone : AirspaceZone) : App Unit :=
  transaction do
    write (·.createZone Z zone)
    recordWithinTx {
      actor.entry .airspaceZoneCreate .airspaceZone Z with
      args := pickAllowed .airspaceZoneCreate (some zone.toFields)
    }

def createAirspaceZone (actor : AuditActor) (Z : ZoneId) (dto : CreateAirspaceZoneDto)
    (now : Time) : App Unit := do
  check <| assertZoneBounds dto.zone true now
  createZoneTx actor Z dto.zone

def findZoneOr404 (Z : ZoneId) : App AirspaceZone := do
  match ← read (·.zones.find? Z) with
  | none      => throw <| .notFound "error.admin.airspace.not_found"
  | some zone => return zone

def updateZoneTx (actor : AuditActor) (Z : ZoneId) (before : AirspaceZone)
    (patch : AirspaceZonePatch) : App Unit :=
  transaction do
    let updated ← stmt (·.updateZone Z patch)
    let (before, after) := diffAllowed .airspaceZoneUpdate (some before.toFields)
      (some updated.toFields)
    recordWithinTx { actor.entry .airspaceZoneUpdate .airspaceZone Z with before, after }

def updateAirspaceZone (actor : AuditActor) (Z : ZoneId) (patch : AirspaceZonePatch) (now : Time) :
    App Unit := do
  let before ← findZoneOr404 Z
  check <| assertNoNullOnRequiredFields patch
  check <| assertZoneBounds (patch.apply before) patch.writesWindow now
  updateZoneTx actor Z before patch

def deactivateZoneTx (actor : AuditActor) (Z : ZoneId) (before : AirspaceZone) : App Unit :=
  transaction do
    let updated ← stmt (·.updateZone Z { active := some (some false) })
    recordWithinTx {
      actor.entry .airspaceZoneDeactivate .airspaceZone Z with
      before := pickAllowed .airspaceZoneDeactivate (some [(.active, .bool before.active)])
      after  := pickAllowed .airspaceZoneDeactivate (some [(.active, .bool updated.active)])
    }

def deactivateAirspaceZone (actor : AuditActor) (Z : ZoneId) : App Unit := do
  let before ← findZoneOr404 Z
  deactivateZoneTx actor Z before

def setRole (actor : AuditActor) (U : UserId) (role : Role) : App Unit := do
  match ← read (·.users.find? U) with
  | none        => throw <| .notFound "error.admin.user.not_found"
  | some target =>
    if target = .admin ∧ role ≠ .admin then
      let admins ← read fun db => db.users.count fun _ role => role = .admin
      if admins ≤ 1 then
        throw <| .conflict "error.admin.user.last_admin"
    transaction do
      let role ← stmt (·.setRole U role)
      recordWithinTx {
        actor.entry .userRoleSet .user U with
        before := pickAllowed .userRoleSet (some [(.role, .string target.name)])
        after  := pickAllowed .userRoleSet (some [(.role, .string role.name)])
      }

def replyTx (message : SupportChatMessage) (status : SupportTicketStatus) (entry : AuditEntry) :
    App Unit :=
  transaction do
    write (·.createMessage message)
    write (·.updateTicket message.ticketId fun row =>
      { row with status, lastMessageAt := some message.createdAt })
    recordWithinTx entry

def replyAsAgent (actor : AuditActor) (T : TicketId) (content : String) (now : Time) :
    App Unit := do
  match ← read (·.tickets.find? T) with
  | none        => throw <| .notFound "error.admin.ticket.not_found"
  | some ticket =>
    if ticket.status = .closed then
      throw <| .conflict "error.admin.ticket.closed"
    let message := {
      ticketId     := T
      senderRole   := .agent
      senderUserId := actor.userId
      content      := content
      createdAt    := now
    }
    replyTx message ticket.status.onReply (Support.AdminService.replyEntry actor T content)

def statusTx (T : TicketId) (status : SupportTicketStatus) (entry : AuditEntry) : App Unit :=
  transaction do
    let count ← cas (·.setTicketStatus T status)
    if count = 0 then
      throw <| .notFound "error.admin.ticket.not_found"
    recordWithinTx entry

def setTicketStatus (actor : AuditActor) (T : TicketId) (status : SupportTicketStatus) :
    App Unit := do
  match ← read (·.tickets.find? T) with
  | none        => throw <| .notFound "error.admin.ticket.not_found"
  | some before =>
    statusTx T status (Support.AdminService.statusEntry actor T before.status status)
    let _ ← read (·.tickets.find? T)

end AdminService

-- The operator actions that are recorded. The ids of new rows come with the calls.
inductive Call
  | forceCancel (D : DeliveryId) (faults : CleanupFaults)
  | fail (D : DeliveryId) (reason : Option DeliveryFailureReason) (faults : CleanupFaults)
  | refund (D : DeliveryId) (amount : Option Cents)
  | createDrone (X : DroneId) (dto : CreateDroneDto)
  | updateDrone (X : DroneId) (dto : UpdateDroneDto)
  | issueDroneCommand (C : CommandId) (D : DeliveryId) (type : DroneCommandType)
    (reason : Option DeliveryFailureReason) (now : Time)
  | createPromo (P : PromoId) (dto : CreatePromoDto)
  | updatePromo (P : PromoId) (dto : UpdatePromoDto)
  | createAirspaceZone (Z : ZoneId) (dto : CreateAirspaceZoneDto) (now : Time)
  | updateAirspaceZone (Z : ZoneId) (patch : AirspaceZonePatch) (now : Time)
  | deactivateAirspaceZone (Z : ZoneId)
  | setRole (U : UserId) (role : Role)
  | replyAsAgent (T : TicketId) (content : String) (now : Time)
  | setTicketStatus (T : TicketId) (status : SupportTicketStatus)

def Call.prog (actor : AuditActor) : Call → App Unit
  | .forceCancel D faults                  => AdminService.forceCancel actor D faults
  | .fail D reason faults                  => AdminService.fail actor D reason faults
  | .refund D amount                       => AdminService.refund actor D amount
  | .createDrone X dto                     => AdminService.createDrone actor X dto
  | .updateDrone X dto                     => AdminService.updateDrone actor X dto
  | .issueDroneCommand C D type reason now =>
    AdminService.issueDroneCommand actor C D type reason now
  | .createPromo P dto                     => AdminService.createPromo actor P dto
  | .updatePromo P dto                     => AdminService.updatePromo actor P dto
  | .createAirspaceZone Z dto now          => AdminService.createAirspaceZone actor Z dto now
  | .updateAirspaceZone Z patch now        => AdminService.updateAirspaceZone actor Z patch now
  | .deactivateAirspaceZone Z              => AdminService.deactivateAirspaceZone actor Z
  | .setRole U role                        => AdminService.setRole actor U role
  | .replyAsAgent T content now            => AdminService.replyAsAgent actor T content now
  | .setTicketStatus T status              => AdminService.setTicketStatus actor T status

end Drovery.Admin
