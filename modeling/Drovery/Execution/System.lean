import Drovery.Services.Create
import Drovery.Services.Simulation
import Drovery.Services.Telemetry

namespace Drovery

open Concurrency
open App (stmt tx)

-- The calls that may run concurrently, on any number of replicas. A call comes with everything that
-- it does not read from the store: its arguments, the answers of external services, and the
-- outcomes of those statements whose failure is handled by the call.
inductive Call
  | create (inp : CreateInput)
  | cancel (U : UserId) (D : DeliveryId) (faults : CleanupFaults)
  | adminForceCancel (D : DeliveryId) (faults : CleanupFaults)
  | adminFail (D : DeliveryId) (reason : DeliveryFailureReason) (faults : CleanupFaults)
  | failExceptional (D : DeliveryId) (reason : DeliveryFailureReason) (faults : CleanupFaults)
  | beginReturnToBase (D : DeliveryId) (reason : DeliveryFailureReason) (faults : CleanupFaults)
  | completeReturnToBase (D : DeliveryId) (faults : CleanupFaults)
  | confirmHandoff (U : UserId) (D : DeliveryId) (code : String) (faults : CleanupFaults)
  | handleKickoff (job : KickoffJob)
  | handleStage (D : DeliveryId) (stageIndex : Nat)
  | handlePosition (D : DeliveryId) (lat lng : ℚ)
  | ingest (msg : TelemetryMessage) (cooling : Bool) (faults : CleanupFaults)
  | issue (adminId : Option UserId) (D : DeliveryId) (type : DroneCommandType)
    (reason : Option DeliveryFailureReason)
  | fetchPending (X : DroneId)
  | ack (C : CommandId) (X : DroneId) (accepted : Bool) (note : Option String)
    (faults : CleanupFaults)
  | scanAndReap (faults : DeliveryWatchdog.ScanFaults)
  | expireStaleCommands
  | reconcileStrandedAcks (faults : CommandId → CleanupFaults)
  | refundForDelivery (D : DeliveryId) (fault : Fault)
  | refundChargeToWallet (D : DeliveryId) (fault : Fault)
  | adminRefund (D : DeliveryId) (amount : Option Cents) (fault : Fault)
  | handleWebhookEvent (event : StripeEvent) (fault : Fault)
  | releaseForDelivery (D : DeliveryId) (fault : Fault)
  | updatePromo (code : PromoId) (dto : UpdatePromoDto) (fault : Fault)
  | updateDrone (X : DroneId) (dto : UpdateDroneDto) (fault : Fault)
  -- The transactions that consist of a single operation on the wallet or on the promo codes.
  | credit (U : UserId) (amount : Cents) (reason : WalletTxnReason) (opts : WalletTxnOpts)
    (fault : Fault)
  | debit (U : UserId) (amount : Cents) (D : DeliveryId) (key : Option IdempotencyKey)
    (fault : Fault)
  | grantReferralReward (U : UserId) (fault : Fault)
  | redeem (code : PromoId) (U : UserId) (D : DeliveryId) (originalTotal : Cents)
    (discount : DiscountResult) (fault : Fault)
  | passTime (ms : Nat)

-- The program of a call. The id of a new delivery or command is unique to the thread `t`.
def Call.prog (P : Params) (t : Nat) : Call → Prog Stmt.sig Unit
  | create inp                            => (DeliveriesService.create P (P.uuid t) inp).toCall
  | cancel U D faults                     => (DeliveriesService.cancel U D faults).toCall
  | adminForceCancel D faults             => (DeliveriesService.adminForceCancel D faults).toCall
  | adminFail D reason faults             => (DeliveriesService.adminFail D reason faults).toCall
  | failExceptional D reason faults       =>
    (DeliveriesService.failExceptional none D reason DeliveryStatus.failableStatuses faults).toCall
  | beginReturnToBase D reason faults     =>
    (DeliveriesService.beginReturnToBase none D reason faults).toCall
  | completeReturnToBase D faults         => (DeliveriesService.completeReturnToBase D faults).toCall
  | confirmHandoff U D code faults        =>
    (DeliveriesService.confirmHandoff P U D code faults).toCall
  | handleKickoff job                     => (SimulationProcessor.handleKickoff P job).toCall
  | handleStage D stageIndex              => (SimulationProcessor.handleStage D stageIndex).toCall
  | handlePosition D lat lng              => (SimulationProcessor.handlePosition D lat lng).toCall
  | ingest msg cooling faults             =>
    (TelemetryService.ingest P (P.uuid t) msg cooling faults).toCall
  | issue adminId D type reason           =>
    (DroneCommandService.issue (P.uuid t) adminId D type reason).toCall
  | fetchPending X                        => (DroneCommandService.fetchPending X).toCall
  | ack C X accepted note faults          =>
    (DroneCommandService.ack C X accepted note faults).toCall
  | scanAndReap faults                    => (DeliveryWatchdog.scanAndReap faults).toCall
  | expireStaleCommands                   => DeliveryWatchdog.expireStaleCommands.toCall
  | reconcileStrandedAcks faults          => (DeliveryWatchdog.reconcileStrandedAcks faults).toCall
  | refundForDelivery D fault             => (WalletService.refundForDelivery D fault).toCall
  | refundChargeToWallet D fault          => (WalletService.refundChargeToWallet D fault).toCall
  | adminRefund D amount fault            => (AdminService.refund D amount fault).toCall
  | handleWebhookEvent event fault        => (PaymentsService.handleWebhookEvent event fault).toCall
  | releaseForDelivery D fault            => (PromoService.releaseForDelivery D fault).toCall
  | updatePromo code dto fault            => (AdminService.updatePromo code dto fault).toCall
  | updateDrone X dto fault               => (AdminService.updateDrone X dto fault).toCall
  | credit U amount reason opts fault     =>
    (tx (.wallet <| .credit U amount reason opts) id).attempt fault |>.toCall
  | debit U amount D key fault            =>
    (tx (.wallet <| .debit U amount D key) id).attempt fault |>.toCall
  | grantReferralReward U fault           =>
    (tx (.wallet <| .grantReferralReward U) id).attempt fault |>.toCall
  | redeem code U D originalTotal discount fault =>
    (tx (.promo <| .redeem code U D originalTotal discount) id).attempt fault |>.toCall
  | passTime ms                           => (stmt <| .effect <| .passTime ms).toCall

-- The platform: all of its calls over one store.
def system (P : Params) : System Stmt.sig Store Call where
  exec := Stmt.exec
  prog := Call.prog P

-- A store before the first call: there may be users, airframes, promo codes and referrals, but
-- nothing has happened to them yet.
structure Store.Initial (db : Store) : Prop where
  deliveries   : db.deliveries = .empty
  trackingIds  : db.trackingIds = .empty
  commands     : db.commands = .empty
  unclaimed    : ∀ X D, ¬db.fleet.Claims X D
  ledger       : db.wallet.ledger = .empty
  balances     : ∀ U b, db.wallet.balances.find? U = some b → b = 0
  redemptions  : db.promos.redemptions = .empty
  notRedeemed  : ∀ P code, db.promos.codes.find? P = some code → code.timesRedeemed = 0
  payments     : db.payments.table = .empty
  outbox       : db.outbox = .empty

-- A small deployment, in which any available airframe will do, and its initial store. There are two
-- users, the first of whom was referred by the second, one airframe and one promo code.
def Params.small : Params where
  debitFirst     := true
  outboxReferral := false
  uuid           := id
  uuid_injective := Function.injective_id
  hash           := id
  rankCandidates := fun ds _ _ => ds.map Prod.fst
  assessRecall   := fun _ _ _ _ => false

def Drone.small : Drone where
  status           := .available
  airworthy        := true
  maxPayloadKg     := 5
  rangeKm          := 10
  batteryPercent   := 90
  homeBaseLat      := 0
  homeBaseLng      := 0
  currentPosition  := none
  maintenanceDueAt := none
  activeDeliveryId := none

def PromoCode.small : PromoCode where
  code           := "HALF"
  discountType   := .percent
  discountValue  := 50
  minOrderTotal  := 0
  maxDiscount    := none
  startsAt       := none
  endsAt         := none
  active         := true
  maxRedemptions := some 1
  timesRedeemed  := 0
  perUserLimit   := 1

def Store.small : Store where
  clock       := 0
  deliveries  := .empty
  trackingIds := .empty
  tracking    := .empty
  fleet       := ⟨[(1, .small)], by decide⟩
  commands    := .empty
  wallet      := {
    balances  := ⟨[(1, 0), (2, 0)], by decide⟩
    ledger    := .empty
    referrals := ⟨[(1, { id := 1, referrerId := 2, status := .pending })], by decide⟩
  }
  promos      := { codes := ⟨[(1, .small)], by decide⟩, redemptions := .empty }
  payments    := { table := .empty, webhookEvents := .empty }
  outbox      := .empty

-- The first user orders a delivery for 700 cents and spends all credits on it.
def CreateInput.small : CreateInput where
  userId        := 1
  liveDispatch  := true
  packageWeight := 1
  promoCode     := none
  useCredits    := true
  quote         := .ok { route := some ⟨0, 0, 0, 0⟩, total := 700, scheduledFor := none }
  trackingId    := fun n => if n = 0 then "DRV-A" else "DRV-B"
  handoffCode   := "1234"
  intent        := .ok (1, .succeeded)
  faults        := {}

-- The drone of the first delivery reports that it picks up the package.
def TelemetryMessage.pickup : TelemetryMessage where
  deliveryId     := 1
  droneId        := 1
  phase          := some <| .happy .pickup
  lat            := none
  lng            := none
  batteryPercent := none
  failureReason  := none

theorem Store.small_initial : Store.small.Initial where
  deliveries  := rfl
  trackingIds := rfl
  commands    := rfl
  unclaimed   := by
    rintro X D ⟨d, hd, ha⟩
    have hd := List.mem_singleton.mp <| Table.find?_eq_some_iff.mp hd
    obtain ⟨rfl, rfl⟩ := Prod.mk.inj hd
    contradiction
  ledger      := rfl
  balances    := by
    intro U b h
    obtain h | h := List.mem_pair.mp <| Table.find?_eq_some_iff.mp h <;> exact (Prod.mk.inj h).right
  redemptions := rfl
  notRedeemed := by
    intro P code h
    have h := List.mem_singleton.mp <| Table.find?_eq_some_iff.mp h
    obtain ⟨rfl, rfl⟩ := Prod.mk.inj h
    rfl
  payments    := rfl
  outbox      := rfl

end Drovery
