import Drovery.Execution.System
import Drovery.Objects.Theorems.Delivery

namespace Drovery

open Concurrency Method
open DeliveriesService DispatchService WalletService PromoService

-- The statements that leave the money, the claims of the airframes, the simulation and the life cycle
-- alone. A launch is not put off more often than the budget allows.
def Stmt.Plain : Stmt → Prop
  | .delivery (.transition ..)         => False
  | .delivery (.countWrongGuess _)     => False
  | .delivery _                        => True
  | .fleet (.claim ..)                 => False
  | .fleet (.release ..)               => False
  | .fleet _                           => True
  | .command (.create ..)              => False
  | .command (.claim ..)               => False
  | .command (.patchApplied _)         => False
  | .command (.patchRejected ..)       => False
  | .command _                         => True
  | .wallet (.findBalance _)           => True
  | .wallet (.findPendingReferral _)   => True
  | .wallet (.findSpend _)             => True
  | .wallet _                          => False
  | .promo (.redeem ..)                => False
  | .promo (.release ..)               => False
  | .promo _                           => True
  | .payment (.find _)                 => True
  | .payment _                         => False
  | .createDelivery ..                 => False
  | .refundCharge ..                   => False
  | .effect (.startSimulation _)       => False
  | .effect (.deferKickoff _ attempt)  => 0 < attempt ∧ attempt < preflightMaxAttempts
  | .effect (.notify ..)               => False
  | .effect (.publishUpdate _ s)       => s = none
  | .effect _                          => True

-- The statements that do not write anything.
def Stmt.Reads : Stmt → Prop
  | .fleet (.findHeld _)               => True
  | .fleet (.findAvailable _)          => True
  | .fleet (.countCapable _)           => True
  | .wallet (.findBalance _)           => True
  | .wallet (.findPendingReferral _)   => True
  | .promo (.findByCode _)             => True
  | .promo (.countRedeemed ..)         => True
  | .effect .dateNow                   => True
  | _                                  => False

theorem Stmt.Reads.plain {x : Stmt} (h : x.Reads) : x.Plain := by
  cases x
  case fleet x  => cases x <;> trivial
  case wallet x => cases x <;> trivial
  case promo x  => cases x <;> trivial
  case effect x => cases x <;> trivial
  all_goals contradiction

theorem Stmt.Reads.exec {x : Stmt} (h : x.Reads) (db : Store) : (x.exec db).snd = db := by
  cases x
  case fleet x  => cases x <;> trivial
  case wallet x => cases x <;> trivial
  case promo x  => cases x <;> trivial
  case effect x => cases x <;> trivial
  all_goals contradiction

-- The statements that do not write to the wallet, the promo codes or the payments.
def Stmt.Moneyless : Stmt → Prop
  | .wallet (.findBalance _)           => True
  | .wallet (.findPendingReferral _)   => True
  | .wallet (.findSpend _)             => True
  | .wallet _                          => False
  | .promo (.redeem ..)                => False
  | .promo (.release ..)               => False
  | .payment (.find _)                 => True
  | .payment _                         => False
  | .createDelivery ..                 => False
  | .refundCharge ..                   => False
  | .effect (.deferKickoff _ attempt)  => 0 < attempt ∧ attempt < preflightMaxAttempts
  | _                                  => True

theorem Stmt.Plain.moneyless {x : Stmt} (h : x.Plain) : x.Moneyless := by
  cases x
  case delivery => trivial
  case fleet    => trivial
  case command  => trivial
  case wallet x => cases x <;> trivial
  case promo x  => cases x <;> trivial
  case payment x => cases x <;> trivial
  case createDelivery => exact h
  case refundCharge   => exact h
  case effect x       => cases x <;> first | exact h | trivial

-- The statements that do not claim an airframe either.
def Stmt.Frugal : Stmt → Prop
  | .fleet (.claim ..) => False
  | x                  => x.Moneyless

theorem Stmt.Frugal.moneyless {x : Stmt} (h : x.Frugal) : x.Moneyless := by
  unfold Stmt.Frugal at h
  split at h
  case h_1 => trivial
  case h_2 => exact h

theorem Stmt.Plain.frugal {x : Stmt} (h : x.Plain) : x.Frugal := by
  unfold Stmt.Frugal
  split
  case h_1 => exact h
  case h_2 => exact h.moneyless

-- The statements with which a mission is brought to its end, apart from those that return what the
-- delivery has cost.
def Stmt.Concludes : Stmt → Prop
  | .delivery _                => True
  | .fleet (.release ..)       => True
  | .effect (.stopSimulation _) => True
  | .effect (.notify ..)       => True
  | .effect (.publishUpdate ..) => True
  | _                          => False

theorem Stmt.Concludes.frugal {x : Stmt} (h : x.Concludes) : x.Frugal := by
  cases x
  case delivery => trivial
  case fleet x  => cases x <;> first | exact h | trivial
  case effect x => cases x <;> first | exact h.elim | trivial
  all_goals exact h.elim

-- The statements with which a change of a delivery to the status `s` is followed up. The airframe is
-- handed back once the mission is over, and what the delivery has cost is returned once it is clear
-- that it will not be completed.
def Stmt.Follows (D : DeliveryId) (s : DeliveryStatus) : Stmt → Prop
  | .fleet (.release E _)            => E = D ∧ s.Terminal
  | .promo (.release E _)            => E = D ∧ (s.Terminal ∨ s = .returning)
  | .wallet (.refund E _ _)          => E = D ∧ (s.Terminal ∨ s = .returning)
  | .refundCharge .automatic E _ _   => E = D ∧ (s.Terminal ∨ s = .returning)
  | .effect (.notify E s' _)         => E = D ∧ s' = s
  | .effect (.publishUpdate E s')    => E = D ∧ s' = some s
  | _                                => False

-- The statement attempts to claim an airframe for the delivery `D`.
def Stmt.Claims (D : DeliveryId) (x : Stmt) : Prop :=
  ∃ X payloadKg, x = .fleet (.claim X D payloadKg)

-- The sets of statuses from which a delivery may be failed.
def Failing (allowed : List DeliveryStatus) : Prop :=
  allowed ∈ [DeliveryStatus.failableStatuses, DeliveryStatus.watchdogStuckStatuses, [.scheduled]]

-- The single statements that satisfy `K`.
inductive Single (K : Stmt → Prop) : (α : Type) → App α → Prop
  | tx {α : Type} {x : Stmt} {f : x.Res → Except AppError α} : K x → Single K α (App.tx x f)

-- The blocks of which all calls are composed: plain statements and those in `K`, and the methods
-- that terminate a delivery, where `T` restricts the commands on whose behalf they do so as well as the
-- outcomes of the cleanup.
inductive Block (K : Stmt → Prop) (T : Option CommandId → CleanupFaults → Prop) :
    (α : Type) → App α → Prop
  | tx {α : Type} {x : Stmt} {f : x.Res → Except AppError α} :
    x.Plain ∨ K x → Block K T α (App.tx x f)
  | fail {o D reason allowed faults} :
    T o faults → Failing allowed → Block K T Bool (failExceptional o D reason allowed faults)
  | beginReturn {o D reason faults} :
    T o faults → Block K T Bool (beginReturnToBase o D reason faults)
  | completeReturn {D faults} : T none faults → Block K T Bool (completeReturnToBase D faults)
  | cancel {U D faults} : T none faults → Block K T Unit (cancel U D faults)
  | forceCancel {D faults} : T none faults → Block K T Unit (adminForceCancel D faults)
  | issue {C adminId D type reason} :
    Block K T Unit (DroneCommandService.issue C adminId D type reason)
  | happy {delivery msg positionValid phase} :
    Block K T Unit (TelemetryService.ingestHappy delivery msg positionValid phase)

-- The finest blocks: the statements in `K` and the operations that return what a delivery has cost.
inductive Piece (K : Stmt → Prop) : (α : Type) → App α → Prop
  | tx {α : Type} {x : Stmt} {f : x.Res → Except AppError α} : K x → Piece K α (App.tx x f)
  | releasePromo {D fault} : Piece K Unit (releaseForDelivery D fault)
  | refundCredits {D fault} : Piece K Unit (refundForDelivery D fault)
  | refundCharge {D fault} : Piece K Unit (refundChargeToWallet D fault)

theorem Piece.mono {K K' : Stmt → Prop} {α : Type} {p : App α} (hp : Built (Piece K) p)
    (h : ∀ x, K x → K' x) : Built (Piece K') p :=
  hp.mono fun
    | .tx hx         => .tx <| h _ hx
    | .releasePromo  => .releasePromo
    | .refundCredits => .refundCredits
    | .refundCharge  => .refundCharge

namespace Single

variable {K K' : Stmt → Prop} {α : Type} {x : Stmt}

theorem stmt (h : K x) : Built (Single K) (App.stmt x) :=
  .block <| .tx h

theorem mono {p : App α} (hp : Built (Single K) p) (h : ∀ x, K x → K' x) : Built (Single K') p :=
  hp.mono fun | .tx hx => .tx <| h _ hx

end Single

namespace Block

variable {K : Stmt → Prop} {T : Option CommandId → CleanupFaults → Prop} {α : Type} {x : Stmt} {p : App α}

theorem plain (h : x.Plain) : Built (Block K T) (App.stmt x) :=
  .block <| .tx <| .inl h

theorem extra (h : K x) : Built (Block K T) (App.stmt x) :=
  .block <| .tx <| .inr h

theorem of_single (hp : Built (Single Stmt.Plain) p) : Built (Block K T) p :=
  hp.mono fun | .tx h => .tx <| .inl h

end Block

section Dispatch

variable {P : Params} {D : DeliveryId} {payloadKg : ℚ} {K : Stmt → Prop}

theorem claimFirst_single {Xs : List DroneId} :
    Built (Single (Stmt.Claims D)) (claimFirst D payloadKg Xs) := by
  induction Xs
  case nil => exact .pure
  case cons ih =>
    refine .bind (.block <| .tx ⟨_, _, rfl⟩) fun count => ?_
    split
    case isTrue  => exact .pure
    case isFalse => exact ih

theorem saturationError_single {n : Nat} :
    Built (Single Stmt.Reads) (saturationError payloadKg n) := by
  unfold saturationError
  split
  case isFalse => exact .pure
  case isTrue =>
    refine .bind (Single.stmt trivial) fun capable => ?_
    split <;> exact .pure

theorem selectAndClaim_single {route : MissionRoute} :
    Built (Single fun x => x.Reads ∨ x.Claims D) (selectAndClaim P D route payloadKg) := by
  refine .bind (Single.stmt <| .inl trivial) fun held => ?_
  cases held
  case some => exact .pure
  case none =>
    refine .bind (Single.stmt <| .inl trivial) fun available => ?_
    refine .bind (Single.mono claimFirst_single fun _ => .inr) fun claimed => ?_
    cases claimed
    case some => exact .pure
    case none =>
      exact .bind (Single.mono saturationError_single fun _ => .inl) fun _ => .throw

theorem dispatch_reads {live : Bool} {route : Option MissionRoute} {isScheduled : Bool} :
    Built (Single fun x => x.Reads ∨ x.Claims D)
      (dispatch P live D payloadKg route isScheduled) := by
  unfold dispatch
  split
  case isTrue => exact .pure
  case isFalse =>
    refine .bind ?_ fun _ => .bind selectAndClaim_single fun _ => .pure
    cases route
    case none => exact .throw
    case some => exact .pure

theorem dispatch_single {live : Bool} {route : Option MissionRoute} {isScheduled : Bool} :
    Built (Single fun x => x.Plain ∨ x.Claims D)
      (dispatch P live D payloadKg route isScheduled) :=
  Single.mono dispatch_reads fun _ => .imp_left Stmt.Reads.plain

theorem release_single {outcome : ReleaseOutcome} {fault : Fault}
    (h : K (.fleet <| .release D outcome)) : Built (Single K) (release D outcome fault) :=
  (Single.stmt h).attempt.safe

end Dispatch

section Termination

variable {D : DeliveryId} {U : UserId} {o : Option CommandId} {reason : DeliveryFailureReason}
variable {status : DeliveryStatus} {fault : Fault} {faults : CleanupFaults}

abbrev Aftermath (D : DeliveryId) (s : DeliveryStatus) (x : Stmt) : Prop :=
  x.Plain ∨ x.Follows D s

theorem handleUnique_single {K : Stmt → Prop} {p : App Unit} (hp : Built (Single K) p) :
    Built (Single K) (p.handle fun e => if e.isUniqueViolation then pure () else throw e) := by
  refine hp.handle fun e => ?_
  split
  case isTrue  => exact .pure
  case isFalse => exact .throw

theorem releaseForDelivery_built {K : Stmt → Prop} (hf : K (.promo <| .findRedeemed D))
    (hr : ∀ Q, K (.promo <| .release D Q)) : Built (Single K) (releaseForDelivery D fault) := by
  refine .bind (Single.stmt hf) fun redemption => ?_
  cases redemption
  case none => exact .pure
  case some => exact (Single.stmt <| hr _).attempt

theorem refundForDelivery_built {K : Stmt → Prop} (hf : K (.wallet <| .findSpend D))
    (hr : ∀ U a, K (.wallet <| .refund D U a)) : Built (Single K) (refundForDelivery D fault) := by
  refine .bind (Single.stmt hf) fun spend => ?_
  cases spend
  case none => exact .pure
  case some => exact handleUnique_single <| .attempt <| .block <| .tx <| hr _ _

theorem refundChargeToWallet_built {K : Stmt → Prop} (hf : K (.delivery <| .find D))
    (hr : ∀ U a, K (.refundCharge .automatic D U a)) :
    Built (Single K) (refundChargeToWallet D fault) := by
  refine .bind (Single.stmt hf) fun delivery => ?_
  cases delivery
  case none => exact .pure
  case some =>
    dsimp only
    split
    case isTrue  => exact .pure
    case isFalse => exact handleUnique_single <| .attempt <| .block <| .tx <| hr _ _

theorem releaseForDelivery_single {K : Stmt → Prop} (h : ∀ Q, K (.promo <| .release D Q)) :
    Built (Single fun x => x.Plain ∨ K x) (releaseForDelivery D fault) :=
  releaseForDelivery_built (.inl trivial) fun _ => .inr <| h _

theorem refundForDelivery_single {K : Stmt → Prop} (h : ∀ U a, K (.wallet <| .refund D U a)) :
    Built (Single fun x => x.Plain ∨ K x) (refundForDelivery D fault) :=
  refundForDelivery_built (.inl trivial) fun _ _ => .inr <| h _ _

theorem refundChargeToWallet_single {K : Stmt → Prop}
    (h : ∀ U a, K (.refundCharge .automatic D U a)) :
    Built (Single fun x => x.Plain ∨ K x) (refundChargeToWallet D fault) :=
  refundChargeToWallet_built (.inl trivial) fun _ _ => .inr <| h _ _

theorem refundLegs_single (h : status.Terminal ∨ status = .returning) :
    Built (Single (Aftermath D status)) (refundLegs D faults) :=
  .bind (releaseForDelivery_single fun _ => ⟨rfl, h⟩).safe fun _ =>
    .bind (refundForDelivery_single fun _ _ => ⟨rfl, h⟩).safe fun _ =>
      (refundChargeToWallet_single fun _ _ => ⟨rfl, h⟩).safe

theorem cleanupAfterTermination_built {K : Stmt → Prop} {refundCredits : Bool}
    {aircraft : AircraftDisposition}
    (ha : ∀ o, aircraft = .released o → K (.fleet <| .release D o))
    (hs : K (.effect <| .stopSimulation D)) (hl : Built (Single K) (refundLegs D faults)) :
    Built (Single K) (cleanupAfterTermination D refundCredits aircraft faults) := by
  refine .bind ?_ fun _ => .bind (Single.stmt hs).attempt.safe fun _ => ?_
  case refine_1 =>
    cases aircraft
    case released o    => exact release_single <| ha o rfl
    case stillAirborne => exact .pure
  case refine_2 =>
    split
    case isTrue  => exact hl
    case isFalse => exact .pure

theorem cleanupAfterTermination_single {refundCredits : Bool} {aircraft : AircraftDisposition}
    (h : status.Terminal ∨ status = .returning)
    (ha : ∀ o, aircraft = .released o → status.Terminal) :
    Built (Single (Aftermath D status))
      (cleanupAfterTermination D refundCredits aircraft faults) :=
  cleanupAfterTermination_built (fun o ho => .inr ⟨rfl, ha o ho⟩) (.inl trivial) (refundLegs_single h)

theorem announceException_built {K : Stmt → Prop} {reason : Option DeliveryFailureReason}
    (hf : K (.delivery <| .find D)) (hn : K (.effect <| .notify D status reason))
    (hp : K (.effect <| .publishUpdate D status)) :
    Built (Single K) (announceException D status reason faults) := by
  refine .bind (Single.stmt hf) fun delivery => ?_
  cases delivery
  case none => exact .pure
  case some => exact .bind (Single.stmt hn).attempt.safe fun _ => (Single.stmt hp).attempt.safe

theorem announceException_single {reason : Option DeliveryFailureReason} :
    Built (Single (Aftermath D status)) (announceException D status reason faults) :=
  announceException_built (.inl trivial) (.inr ⟨rfl, rfl⟩) (.inr ⟨rfl, rfl⟩)

theorem finishFailure_single {airborne : Bool} :
    Built (Single (Aftermath D .deliveryFailed)) (finishFailure D reason airborne faults) :=
  .bind (cleanupAfterTermination_single (.inl (by decide)) fun _ _ => by decide) fun _ =>
    announceException_single

theorem failExceptional_built {B : (α : Type) → App α → Prop} {allowed : List DeliveryStatus}
    (hf : ∀ a ⊆ allowed, Built B (App.stmt <| .delivery <| .transition o D <| .fail a reason))
    (hc : ∀ airborne, Built B (finishFailure D reason airborne faults)) :
    Built B (failExceptional o D reason allowed faults) := by
  have write {a} (ha : a ⊆ allowed) : Built B (failFrom o D a reason) := by
    unfold failFrom
    split
    case isTrue  => exact .pure
    case isFalse => exact hf _ ha
  refine .bind (write <| List.filter_subset_self _) fun matched => ?_
  split
  case isTrue => exact .bind (hc _) fun _ => .pure
  case isFalse =>
    refine .bind (write <| List.filter_subset_self _) fun matched => ?_
    split
    case isTrue  => exact .bind (hc _) fun _ => .pure
    case isFalse => exact .pure

theorem beginReturnToBase_built {B : (α : Type) → App α → Prop}
    (hb : Built B (App.stmt <| .delivery <| .transition o D <| .beginReturn reason))
    (hc : ∀ refundCredits, Built B (cleanupAfterTermination D refundCredits .stillAirborne faults))
    (ha : Built B (announceException D .returning (some reason) faults)) :
    Built B (beginReturnToBase o D reason faults) := by
  refine .bind hb fun count => ?_
  split
  case isTrue  => exact .pure
  case isFalse => exact .bind (hc _) fun _ => .bind ha fun _ => .pure

theorem failExceptional_single {K : Stmt → Prop} {allowed : List DeliveryStatus}
    (ha : ∀ x, Aftermath D .deliveryFailed x → K x)
    (hf : ∀ a ⊆ allowed, K (.delivery <| .transition o D <| .fail a reason)) :
    Built (Single K) (failExceptional o D reason allowed faults) :=
  failExceptional_built (fun _ hs => Single.stmt <| hf _ hs) fun _ => Single.mono finishFailure_single ha

theorem beginReturnToBase_single {K : Stmt → Prop} (ha : ∀ x, Aftermath D .returning x → K x)
    (hb : K (.delivery <| .transition o D <| .beginReturn reason)) :
    Built (Single K) (beginReturnToBase o D reason faults) :=
  beginReturnToBase_built (Single.stmt hb)
    (fun _ => Single.mono (cleanupAfterTermination_single (.inr rfl) (by simp)) ha)
    (Single.mono announceException_single ha)

-- A termination never fails, because each of its steps is best effort.
theorem cleanupAfterTermination_total {refundCredits : Bool} {aircraft : AircraftDisposition} :
    (cleanupAfterTermination D refundCredits aircraft faults).Total := by
  refine .bind ?_ fun _ => .bind .safe fun _ => ?_
  case refine_1 =>
    cases aircraft
    case released      => exact .safe
    case stillAirborne => exact .pure
  case refine_2 =>
    split
    case isTrue  => exact .bind .safe fun _ => .bind .safe fun _ => .safe
    case isFalse => exact .pure

theorem announceException_total {reason : Option DeliveryFailureReason} :
    (announceException D status reason faults).Total := by
  refine .bind .stmt fun delivery => ?_
  cases delivery
  case none => exact .pure
  case some => exact .bind .safe fun _ => .safe

theorem failExceptional_total {allowed : List DeliveryStatus} :
    (failExceptional o D reason allowed faults).Total := by
  have write {allowed} : (failFrom o D allowed reason).Total := by
    unfold failFrom
    split
    case isTrue  => exact .pure
    case isFalse => exact .stmt
  have finish {airborne} : (finishFailure D reason airborne faults).Total :=
    .bind cleanupAfterTermination_total fun _ => announceException_total
  refine .bind write fun matched => ?_
  split
  case isTrue => exact .bind finish fun _ => .pure
  case isFalse =>
    refine .bind write fun matched => ?_
    split
    case isTrue  => exact .bind finish fun _ => .pure
    case isFalse => exact .pure

theorem beginReturnToBase_total : (beginReturnToBase o D reason faults).Total := by
  refine .bind .stmt fun count => ?_
  split
  case isTrue => exact .pure
  case isFalse =>
    exact .bind cleanupAfterTermination_total fun _ => .bind announceException_total fun _ => .pure

-- What a termination is composed of.
theorem cleanupAfterTermination_concludes {refundCredits : Bool} {aircraft : AircraftDisposition} :
    Built (Piece Stmt.Concludes) (cleanupAfterTermination D refundCredits aircraft faults) := by
  refine .bind ?_ fun _ => .bind (.safe <| .attempt <| .block <| .tx trivial) fun _ => ?_
  case refine_1 =>
    cases aircraft
    case released      => exact .safe <| .attempt <| .block <| .tx trivial
    case stillAirborne => exact .pure
  case refine_2 =>
    split
    case isFalse => exact .pure
    case isTrue =>
      refine .bind (.safe <| .block .releasePromo) fun _ => ?_
      refine .bind (.safe <| .block .refundCredits) fun _ => ?_
      exact .safe <| .block .refundCharge

theorem announceException_concludes {reason : Option DeliveryFailureReason} :
    Built (Piece Stmt.Concludes) (announceException D status reason faults) := by
  refine .bind (.block <| .tx trivial) fun delivery => ?_
  cases delivery
  case none => exact .pure
  case some =>
    refine .bind (.safe <| .attempt <| .block <| .tx trivial) fun _ => ?_
    exact .safe <| .attempt <| .block <| .tx trivial

theorem finishFailure_concludes {airborne : Bool} :
    Built (Piece Stmt.Concludes) (finishFailure D reason airborne faults) :=
  .bind cleanupAfterTermination_concludes fun _ => announceException_concludes

theorem failExceptional_concludes {allowed : List DeliveryStatus} :
    Built (Piece Stmt.Concludes) (failExceptional o D reason allowed faults) :=
  failExceptional_built (fun _ _ => .block <| .tx trivial) fun _ => finishFailure_concludes

theorem beginReturnToBase_concludes :
    Built (Piece Stmt.Concludes) (beginReturnToBase o D reason faults) :=
  beginReturnToBase_built (.block <| .tx trivial) (fun _ => cleanupAfterTermination_concludes)
    announceException_concludes

theorem completeReturnToBase_concludes : Built (Piece Stmt.Concludes) (completeReturnToBase D faults) := by
  refine .bind (.block <| .tx trivial) fun count => ?_
  split
  case isTrue => exact .pure
  case isFalse =>
    refine .bind (.safe <| .attempt <| .block <| .tx trivial) fun _ => ?_
    exact .bind announceException_concludes fun _ => .pure

theorem cancel_concludes : Built (Piece Stmt.Concludes) (cancel U D faults) := by
  refine .bind (.block <| .tx trivial) fun delivery => ?_
  cases delivery
  case none => exact .throw
  case some =>
    dsimp only
    split
    case isTrue => exact .throw
    case isFalse =>
      split
      case isTrue => exact .throw
      case isFalse =>
        refine .bind (.block <| .tx trivial) fun count => ?_
        split
        case isTrue  => exact .throw
        case isFalse => exact cleanupAfterTermination_concludes

theorem adminForceCancel_concludes : Built (Piece Stmt.Concludes) (adminForceCancel D faults) := by
  refine .bind (.block <| .tx trivial) fun count => ?_
  split
  case isTrue => exact cleanupAfterTermination_concludes
  case isFalse =>
    refine .bind (.block <| .tx trivial) fun count => ?_
    split
    case isTrue => exact cleanupAfterTermination_concludes
    case isFalse =>
      refine .bind (.block <| .tx trivial) fun existing => ?_
      cases existing <;> exact .throw

theorem failExceptional_pieces {allowed : List DeliveryStatus} :
    Built (Piece Stmt.Frugal) (failExceptional o D reason allowed faults) :=
  Piece.mono failExceptional_concludes fun _ => (·.frugal)

theorem beginReturnToBase_pieces :
    Built (Piece Stmt.Frugal) (beginReturnToBase o D reason faults) :=
  Piece.mono beginReturnToBase_concludes fun _ => (·.frugal)

theorem completeReturnToBase_pieces :
    Built (Piece Stmt.Frugal) (completeReturnToBase D faults) :=
  Piece.mono completeReturnToBase_concludes fun _ => (·.frugal)

theorem cancel_pieces : Built (Piece Stmt.Frugal) (cancel U D faults) :=
  Piece.mono cancel_concludes fun _ => (·.frugal)

theorem adminForceCancel_pieces : Built (Piece Stmt.Frugal) (adminForceCancel D faults) :=
  Piece.mono adminForceCancel_concludes fun _ => (·.frugal)

end Termination

section Commands

variable {C : CommandId} {X : DroneId} {D : DeliveryId} {K : Stmt → Prop}
variable {T : Option CommandId → CleanupFaults → Prop}

theorem issue_built {adminId : Option UserId} {type : DroneCommandType}
    {reason : Option DeliveryFailureReason} (hf : K (.delivery <| .find D))
    (hn : K (.command <| .countForDelivery D)) (ht : K (.effect .dateNow))
    (hc : ∀ row, K (.command <| .create C row)) (hp : K (.effect <| .pushCommand C)) :
    Built (Single K) (DroneCommandService.issue C adminId D type reason) := by
  refine .bind (Single.stmt hf) fun delivery => ?_
  cases delivery
  case none => exact .throw
  case some delivery =>
    dsimp only
    split
    case isTrue => exact .throw
    case isFalse =>
      split
      case h_1 => exact .throw
      case h_2 =>
        split
        case isTrue => exact .throw
        case isFalse =>
          refine .bind (Single.stmt hn) fun total => ?_
          split
          case isTrue => exact .throw
          case isFalse =>
            refine .bind (Single.stmt ht) fun now => ?_
            refine .bind (.handle (.block <| .tx <| hc _) fun e => ?_) fun _ => ?_
            case refine_1 => split <;> exact .throw
            case refine_2 => exact (Single.stmt hp).safe

-- Besides plain statements, issuing a command only involves the creation of the command.
theorem issue_single {adminId : Option UserId} {type : DroneCommandType}
    {reason : Option DeliveryFailureReason} :
    Built (Single fun x => x.Plain ∨ ∃ row, x = .command (.create C row))
      (DroneCommandService.issue C adminId D type reason) :=
  issue_built (.inl trivial) (.inl trivial) (.inl trivial) (fun _ => .inr ⟨_, rfl⟩) (.inl trivial)

theorem fetchPending_single : Built (Single Stmt.Plain) (DroneCommandService.fetchPending X) := by
  refine .bind (Single.stmt trivial) fun now => .bind (Single.stmt trivial) fun command => ?_
  split
  case h_1 => exact .pure
  case h_2 =>
    split
    case isTrue => exact .pure
    case isFalse =>
      split
      case isFalse => exact .pure
      case isTrue =>
        refine .bind (Single.stmt trivial) fun count => ?_
        split
        case isTrue => exact .pure
        case isFalse =>
          refine .bind (Single.stmt trivial) fun fresh => ?_
          split <;> exact .pure

theorem drive_blocks {command : DroneCommand} {faults : CleanupFaults} (h : T (some C) faults) :
    Built (Block K T) (DroneCommandService.drive C command faults) := by
  unfold DroneCommandService.drive
  split
  case h_1 => exact .block <| .beginReturn h
  case h_2 => exact .block <| .fail h <| by simp [Failing]

-- The statements with which the answer to a command and its result are recorded.
def Stmt.Patch (C : CommandId) : Stmt → Prop
  | .command (.claim E _ _ _)     => E = C
  | .command (.patchApplied E)    => E = C
  | .command (.patchRejected E _) => E = C
  | _                             => False

theorem patch_blocks {applied : Bool} {note : String} (h : ∀ {x : Stmt}, x.Patch C → K x) :
    Built (Block K T) (DroneCommandService.patch C applied note) := by
  unfold DroneCommandService.patch
  split <;> exact Block.extra <| h rfl

theorem redrive_total {command : DroneCommand} {faults : CleanupFaults} :
    (DeliveryWatchdog.redrive C command faults).Total := by
  refine .bind ?_ fun applied => ?_
  case refine_1 =>
    unfold DroneCommandService.drive
    cases command.type
    case returnToBase => exact beginReturnToBase_total
    case abort        => exact failExceptional_total
  case refine_2 =>
    unfold DroneCommandService.patch
    split <;> exact .stmt

theorem ack_blocks {accepted : Bool} {note : Option String} {faults : CleanupFaults}
    (h : T (some C) faults) :
    Built (Block (Stmt.Patch C) T)
      (DroneCommandService.ack C X accepted note faults) := by
  refine .bind (Block.plain trivial) fun command => ?_
  split
  case h_1 => exact .throw
  case h_2 =>
    split
    case isTrue => exact .throw
    case isFalse =>
      refine .bind (Block.plain trivial) fun now => ?_
      split
      case isTrue => exact .bind (Block.plain trivial) fun _ => .throw
      case isFalse =>
        refine .bind (Block.plain trivial) fun now => .bind (Block.extra rfl) fun count => ?_
        split
        case isTrue => exact .throw
        case isFalse =>
          split
          case isFalse => exact .pure
          case isTrue =>
            exact .bind (drive_blocks h) fun _ => patch_blocks id

theorem reap_blocks {now : Time} {faults : DeliveryId → CleanupFaults} {ds : List StuckDelivery}
    (h : ∀ D, T none (faults D)) : Built (Block K T) (DeliveryWatchdog.reap now faults ds) := by
  induction ds
  case nil => exact .pure
  case cons ih =>
    refine .bind ?_ fun _ => ih
    unfold DeliveryWatchdog.reapStuck
    split
    case isTrue  => exact .pure
    case isFalse => exact .safe <| .block <| .fail (h _) <| by simp [Failing]

theorem expireStaleCommands_single :
    Built (Single Stmt.Plain) DeliveryWatchdog.expireStaleCommands := by
  refine .bind (Single.stmt trivial) fun now => .bind (Single.stmt trivial) fun total => ?_
  split
  case isTrue  => exact .pure
  case isFalse => exact Single.stmt trivial

theorem reapStuck_total {now : Time} {faults : DeliveryId → CleanupFaults} {d : StuckDelivery} :
    (DeliveryWatchdog.reapStuck now faults d).Total := by
  unfold DeliveryWatchdog.reapStuck
  split
  case isTrue  => exact .pure
  case isFalse => exact .safe

theorem reap_total {now : Time} {faults : DeliveryId → CleanupFaults} {ds : List StuckDelivery} :
    (DeliveryWatchdog.reap now faults ds).Total := by
  induction ds
  case nil     => exact .pure
  case cons ih => exact .bind reapStuck_total fun _ => ih

theorem expireStaleCommands_total : DeliveryWatchdog.expireStaleCommands.Total := by
  refine .bind .stmt fun now => .bind .stmt fun total => ?_
  split
  case isTrue  => exact .pure
  case isFalse => exact .stmt

theorem reconcile_blocks {faults : CommandId → CleanupFaults}
    {stranded : List (CommandId × DroneCommand)} (h : ∀ C, T (some C) (faults C)) :
    Built (Block (fun x => ∃ C, x.Patch C) T)
      (DeliveryWatchdog.reconcile faults stranded) := by
  induction stranded
  case nil => exact .pure
  case cons c rest ih =>
    refine .bind (.safe ?_) fun _ => ih
    exact .bind (drive_blocks (h _)) fun _ => patch_blocks fun h => ⟨c.fst, h⟩

theorem reconcileStrandedAcks_blocks {faults : CommandId → CleanupFaults}
    (h : ∀ C, T (some C) (faults C)) :
    Built (Block (fun x => ∃ C, x.Patch C) T) (DeliveryWatchdog.reconcileStrandedAcks faults) :=
  .bind (Block.plain trivial) fun _ => .bind (Block.plain trivial) fun _ => reconcile_blocks h

theorem scanAndReap_blocks {faults : DeliveryWatchdog.ScanFaults}
    (hr : ∀ D, T none (faults.reap D)) (hd : ∀ C, T (some C) (faults.drive C)) :
    Built (Block (fun x => ∃ C, x.Patch C) T) (DeliveryWatchdog.scanAndReap faults) :=
  .bind (Block.plain trivial) fun _ => .bind (Block.plain trivial) fun _ =>
    .bind (reap_blocks hr) fun _ => .bind (Block.of_single expireStaleCommands_single) fun _ =>
      reconcileStrandedAcks_blocks hd

end Commands

-- The blocks of a handoff.
inductive HandoffBlock (D : DeliveryId) (code : String)
    (T : Option CommandId → CleanupFaults → Prop) : (α : Type) → App α → Prop
  | block {α : Type} {p : App α} :
    Block (· = .delivery (.countWrongGuess D)) T α p → HandoffBlock D code T α p
  | complete {faults} : T none faults → HandoffBlock D code T Unit (completeHandoff D code faults)

section Calls

variable {P : Params} {C : CommandId} {X : DroneId} {D : DeliveryId} {U : UserId}
variable {K : Stmt → Prop} {T : Option CommandId → CleanupFaults → Prop} {reason : DeliveryFailureReason} {faults : CleanupFaults}

theorem adminFail_blocks (h : T none faults) : Built (Block K T) (adminFail D reason faults) := by
  refine .bind (.block <| .fail h <| by simp [Failing]) fun applied => ?_
  split
  case isTrue  => exact .pure
  case isFalse =>
    refine .bind (Block.plain trivial) fun existing => ?_
    cases existing <;> exact .throw

theorem failHandoff_blocks (h : T none faults) : Built (Block K T) (failHandoff D faults) :=
  .bind (.block <| .fail h <| by simp [Failing]) fun _ => .throw

theorem rejectGuess_blocks (h : T none faults) :
    Built (Block (· = .delivery (.countWrongGuess D)) T) (rejectGuess D faults) := by
  refine .bind (Block.extra rfl) fun count => .bind (Block.plain trivial) fun after => ?_
  split
  case isTrue  => exact failHandoff_blocks h
  case isFalse => exact .throw

theorem confirmHandoff_blocks {code : String} (h : T none faults) :
    Built (HandoffBlock D code T) (confirmHandoff P U D code faults) := by
  have lift {α : Type} {p : App α}
      (hp : Built (Block (· = .delivery (.countWrongGuess D)) T) p) :
      Built (HandoffBlock D code T) p :=
    hp.mono .block
  refine .bind (lift <| Block.plain trivial) fun delivery => ?_
  cases delivery
  case none => exact .throw
  case some =>
    dsimp only
    split
    case isTrue => exact .throw
    case isFalse =>
      split
      case isTrue => exact .throw
      case isFalse =>
        split
        case isTrue => exact .throw
        case isFalse =>
          split
          case isTrue => exact lift <| failHandoff_blocks h
          case isFalse =>
            split
            case isTrue  => exact .block <| .complete h
            case isFalse => exact lift <| rejectGuess_blocks h

theorem completeHandoff_pieces {code : String} : Built (Piece Stmt.Frugal) (completeHandoff D code faults) := by
  refine .bind (.block <| .tx trivial) fun count => ?_
  split
  case isTrue => exact .throw
  case isFalse =>
    refine .bind (.safe <| .attempt <| .block <| .tx trivial) fun _ => ?_
    exact .safe <| .block <| .tx trivial

-- The statements that are specific to the kickoff of a delivery.
def Stmt.Kickoff (D : DeliveryId) (x : Stmt) : Prop :=
  (∃ X, x = .delivery (.transition none D (.launch X))) ∨ x = .fleet (.release D .returnToFleet) ∨
    x.Claims D ∨ x = .effect (.startSimulation D)

section Launch

variable {B : (α : Type) → App α → Prop} {job : KickoffJob} {droneId : Option DroneId}

theorem giveBack_built (hr : Built B (App.stmt <| .fleet <| .release job.deliveryId .returnToFleet)) :
    Built B (SimulationProcessor.giveBack job droneId) := by
  cases droneId
  case none => exact .pure
  case some => exact hr.attempt.safe

theorem launch_built (hl : ∀ X, Built B (App.stmt <| .delivery <| .transition none job.deliveryId <| .launch X))
    (hf : Built B (App.stmt <| .delivery <| .find job.deliveryId))
    (hr : Built B (App.stmt <| .fleet <| .release job.deliveryId .returnToFleet))
    (hs : Built B (App.stmt <| .effect <| .startSimulation job.deliveryId)) :
    Built B (SimulationProcessor.launch job droneId) := by
  refine .bind ?_ fun _ => .bind (.handle (hl _).attempt fun e => ?_) fun count => ?_
  case refine_1 =>
    cases droneId
    case none => exact hs
    case some => exact .pure
  case refine_2 =>
    refine .bind ?_ fun _ => .throw
    cases droneId
    case none => exact .pure
    case some =>
      refine .bind (.handle hf.attempt fun _ => .pure) fun current => ?_
      split
      case isTrue  => exact giveBack_built hr
      case isFalse => exact .pure
  case refine_3 =>
    split
    case isTrue  => exact giveBack_built hr
    case isFalse => exact .pure

end Launch

theorem launch_blocks {job : KickoffJob} {droneId : Option DroneId} :
    Built (Block (Stmt.Kickoff job.deliveryId) T) (SimulationProcessor.launch job droneId) :=
  launch_built (fun _ => Block.extra <| .inl ⟨_, rfl⟩) (Block.plain trivial)
    (Block.extra <| .inr <| .inl rfl) (Block.extra <| .inr <| .inr <| .inr rfl)

theorem abortScheduled_blocks {job : KickoffJob} (h : T none job.faults.cleanup) :
    Built (Block K T) (SimulationProcessor.abortScheduled job reason) :=
  .bind (.block <| .fail h <| by simp [Failing]) fun _ => .pure

theorem lt_of_not_exhausted {attempt : Nat} (h : !holdExhausted attempt preflightMaxAttempts) :
    0 < attempt + 1 ∧ attempt + 1 < preflightMaxAttempts := by
  have h : ¬preflightMaxAttempts ≤ attempt + 1 := by simpa [holdExhausted] using h
  omega

theorem preflight_built {B : (α : Type) → App α → Prop} {job : KickoffJob}
    {route : Option MissionRoute}
    (hd : ∀ n, 0 < n ∧ n < preflightMaxAttempts →
      Built B (App.stmt <| .effect <| .deferKickoff job.deliveryId n))
    (ha : ∀ reason, Built B (SimulationProcessor.abortScheduled job reason)) :
    Built B (SimulationProcessor.preflight job route) := by
  unfold SimulationProcessor.preflight
  split
  case h_1 => exact .pure
  case h_2 =>
    dsimp only
    split
    case isTrue => exact .pure
    case isFalse =>
      split
      case isTrue h => exact .bind (hd _ <| lt_of_not_exhausted h.right) fun _ => .pure
      case isFalse  => exact .bind (ha _) fun _ => .pure

theorem handleDispatchRefusal_built {B : (α : Type) → App α → Prop} {job : KickoffJob} {e : AppError}
    (hd : ∀ n, 0 < n ∧ n < preflightMaxAttempts →
      Built B (App.stmt <| .effect <| .deferKickoff job.deliveryId n))
    (ha : ∀ reason, Built B (SimulationProcessor.abortScheduled job reason)) :
    Built B (SimulationProcessor.handleDispatchRefusal job e) := by
  unfold SimulationProcessor.handleDispatchRefusal
  split
  case isTrue h => exact hd _ <| lt_of_not_exhausted h.right
  case isFalse  => exact ha _

theorem preflight_blocks {job : KickoffJob} {route : Option MissionRoute} (h : T none job.faults.cleanup) :
    Built (Block K T) (SimulationProcessor.preflight job route) :=
  preflight_built (fun _ h => Block.plain h) fun _ => abortScheduled_blocks h

theorem dispatchKickoff_built {B : (α : Type) → App α → Prop} {job : KickoffJob} {delivery : Delivery}
    (hp : Built B
      (dispatch P job.liveDispatch job.deliveryId delivery.packageWeight delivery.route false))
    (hd : ∀ n, 0 < n ∧ n < preflightMaxAttempts →
      Built B (App.stmt <| .effect <| .deferKickoff job.deliveryId n))
    (ha : ∀ reason, Built B (SimulationProcessor.abortScheduled job reason)) :
    Built B (SimulationProcessor.dispatchKickoff P job delivery) :=
  .handle (.bind hp fun _ => .pure) fun _ =>
    .bind (handleDispatchRefusal_built hd ha) fun _ => .pure

theorem kickoff_built {B : (α : Type) → App α → Prop} {job : KickoffJob} {delivery : Delivery}
    (hp : Built B (SimulationProcessor.preflight job delivery.route))
    (hd : Built B (SimulationProcessor.dispatchKickoff P job delivery))
    (hl : ∀ X, Built B (SimulationProcessor.launch job X)) :
    Built B (SimulationProcessor.kickoff P job delivery) := by
  unfold SimulationProcessor.kickoff
  split
  case isTrue => exact .pure
  case isFalse =>
    refine .bind hp fun cleared => ?_
    split
    case isFalse => exact .pure
    case isTrue =>
      refine .bind hd fun dispatched => ?_
      cases dispatched
      case none => exact .pure
      case some => exact hl _

theorem kickoff_blocks {job : KickoffJob} {delivery : Delivery} (h : T none job.faults.cleanup) :
    Built (Block (Stmt.Kickoff job.deliveryId) T)
      (SimulationProcessor.kickoff P job delivery) := by
  refine kickoff_built (preflight_blocks h) (dispatchKickoff_built ?_ (fun _ h => Block.plain h)
    fun _ => abortScheduled_blocks h) fun _ => launch_blocks
  exact dispatch_single.mono fun | .tx hx => .tx <| hx.imp_right fun hx => .inr <| .inr <| .inl hx

theorem handleKickoff_blocks {job : KickoffJob} (h : T none job.faults.cleanup) :
    Built (Block (Stmt.Kickoff job.deliveryId) T)
      (SimulationProcessor.handleKickoff P job) := by
  refine .bind (Block.plain trivial) fun delivery => ?_
  cases delivery
  case none => exact .pure
  case some => exact kickoff_blocks h

theorem handleStage_pieces {stageIndex : Nat} :
    Built (Piece Stmt.Frugal) (SimulationProcessor.handleStage D stageIndex) := by
  unfold SimulationProcessor.handleStage
  split
  case h_1 => exact .pure
  case h_2 stage hs =>
    refine .bind (.block <| .tx trivial) fun delivery => ?_
    cases delivery
    case none => exact .pure
    case some =>
      refine .bind (.block <| .tx trivial) fun count => ?_
      split
      case isTrue => exact .pure
      case isFalse =>
        refine .bind (.safe <| .block <| .tx trivial) fun _ => ?_
        exact .bind (.safe <| .block <| .tx trivial) fun _ => .block <| .tx trivial

theorem handlePosition_single {lat lng : ℚ} :
    Built (Single Stmt.Plain) (SimulationProcessor.handlePosition D lat lng) := by
  refine .bind (Single.stmt trivial) fun delivery => ?_
  cases delivery
  case none => exact .pure
  case some delivery =>
    dsimp only
    split
    case isTrue  => exact .pure
    case isFalse => exact .bind (Single.stmt trivial) fun _ => Single.stmt rfl

theorem record_built {B : (α : Type) → App α → Prop} {delivery : Delivery} {msg : TelemetryMessage}
    {cooling : Bool} (ha : Built B (App.stmt <| .effect <| .appendFrame msg.deliveryId msg.droneId))
    (hu : Built B (App.stmt <| .fleet <|
      .updateState msg.deliveryId msg.position msg.battery))
    (hf : Built B (App.stmt <| .fleet <| .findActive msg.deliveryId))
    (hi : Built B (DroneCommandService.issue C none msg.deliveryId .returnToBase none)) :
    Built B (FlightRecorder.record P C delivery msg cooling) := by
  refine .bind (.safe ha) fun _ => .bind ?_ fun _ => ?_
  case refine_1 =>
    unfold FlightRecorder.updateDroneState
    split
    case isTrue  => exact .pure
    case isFalse => exact .safe hu
  case refine_2 =>
    unfold FlightRecorder.maybeRecall
    split
    case h_2 => exact .pure
    case h_1 =>
      split
      case isTrue => exact .pure
      case isFalse =>
        refine .bind hf fun drone => ?_
        split
        case h_1 => exact .pure
        case h_2 =>
          split
          case isTrue  => exact .safe hi
          case isFalse => exact .pure

theorem record_blocks {delivery : Delivery} {msg : TelemetryMessage} {cooling : Bool} :
    Built (Block K T) (FlightRecorder.record P C delivery msg cooling) :=
  record_built (Block.plain trivial) (Block.plain trivial) (Block.plain trivial) (.block .issue)

theorem writePosition_single {delivery : Delivery} {msg : TelemetryMessage} {positionValid : Bool}
    {s : Option DeliveryStatus} : Built (Single Stmt.Plain)
      (TelemetryService.writePosition delivery msg positionValid s) := by
  unfold TelemetryService.writePosition
  dsimp only
  split
  case isTrue =>
    split
    case isTrue  => exact .bind (.safe <| Single.stmt trivial) fun _ => .pure
    case isFalse => exact .pure
  case isFalse =>
    split
    case isTrue  => exact .bind (.safe <| Single.stmt trivial) fun _ => .pure
    case isFalse => exact .pure

theorem ingestHappy_pieces {delivery : Delivery} {msg : TelemetryMessage} {positionValid : Bool}
    {phase : Option HappyPhase} : Built (Piece Stmt.Frugal)
      (TelemetryService.ingestHappy delivery msg positionValid phase) := by
  refine .bind ?_ fun s => .bind (writePosition_single.mono fun | .tx h => .tx h.frugal)
    fun positioned => ?_
  case refine_1 =>
    cases phase
    case none => exact .pure
    case some => exact .bind (.block <| .tx trivial) fun _ => .pure
  case refine_2 =>
    split
    case isTrue  => exact .pure
    case isFalse => exact .block <| .tx trivial

theorem ingest_blocks {msg : TelemetryMessage} {cooling : Bool} (h : T none faults) :
    Built (Block K T) (TelemetryService.ingest P C msg cooling faults) := by
  unfold TelemetryService.ingest
  split
  case isTrue => exact .throw
  case isFalse =>
    refine .bind (Block.plain trivial) fun delivery => ?_
    cases delivery
    case none => exact .pure
    case some =>
      dsimp only
      split
      case isTrue => exact .throw
      case isFalse =>
        split
        case isTrue => exact .throw
        case isFalse =>
          refine .bind record_blocks fun _ => ?_
          split
          case h_2 => exact .block .happy
          case h_3 => exact .block .happy
          case h_1 phase _ =>
            have finish {applied : Bool} {positionValid : Bool} : Built (Block K T)
                (if applied && positionValid then
                  (App.stmt <| .effect <| .updateTracking msg.deliveryId msg.position).safe
                else pure () : App Unit) := by
              split
              case isTrue  => exact .safe <| Block.plain trivial
              case isFalse => exact .pure
            cases phase
            case failed =>
              exact .bind (.block <| .fail h <| by simp [Failing]) fun _ => finish
            case returning => exact .bind (.block <| .beginReturn h) fun _ => finish
            case returned  => exact .bind (.block <| .completeReturn h) fun _ => finish

end Calls

-- The statements with which a new delivery is booked.
def Stmt.Books (D : DeliveryId) : Stmt → Prop
  | .promo (.redeem _ _ E _ _)   => E = D
  | .wallet (.debit _ _ E key)   => E = D ∧ key = some (.debit D)
  | .createDelivery E row _      => E = D ∧ row.New
  | .payment (.create E _)       => E = D
  | .fleet (.release E o)        => E = D ∧ o = .returnToFleet
  | _                            => False

-- The blocks of a creation: plain statements, those with which the delivery is booked and those in `K`.
inductive CreateBlock (D : DeliveryId) (K : Stmt → Prop) : (α : Type) → App α → Prop
  | tx {α : Type} {x : Stmt} {f : x.Res → Except AppError α} :
    x.Plain ∨ x.Books D ∨ K x → CreateBlock D K α (App.tx x f)
  | releasePromo {fault} : CreateBlock D K Unit (releaseForDelivery D fault)
  | refundCredits {fault} : CreateBlock D K Unit (refundForDelivery D fault)

section Create

variable {P : Params} {D : DeliveryId} {inp : CreateInput} {order : Order}
variable {dispatched : DispatchDecision} {K : Stmt → Prop}

theorem CreateBlock.of_single {α : Type} {p : App α} (hp : Built (Single Stmt.Plain) p) :
    Built (CreateBlock D K) p :=
  hp.mono fun | .tx h => .tx <| .inl h

theorem checkRedeemable_single {rawCode : String} {U : UserId} {total : Cents} :
    Built (Single Stmt.Reads) (checkRedeemable rawCode U total) := by
  refine .bind (Single.stmt trivial) fun code => ?_
  split
  case h_1 => exact .pure
  case h_2 =>
    refine .bind (Single.stmt trivial) fun now => ?_
    split
    case h_1 => exact .pure
    case h_2 =>
      refine .bind (Single.stmt trivial) fun used => ?_
      split <;> exact .pure

theorem applyPromo_single {total : Cents} : Built (Single Stmt.Reads) (applyPromo inp total) := by
  unfold applyPromo
  split
  case h_1 => exact .pure
  case h_2 =>
    refine .bind (.bind checkRedeemable_single fun r => ?_) fun _ => .pure
    cases r
    case error => exact .throw
    case ok    => exact .pure

theorem applyCredits_single {afterPromo : Cents} :
    Built (Single Stmt.Reads) (applyCredits inp afterPromo) := by
  unfold applyCredits
  split
  case isTrue  => exact .bind (Single.stmt trivial) fun _ => .pure
  case isFalse => exact .pure

theorem prepare_reads : Built (Single Stmt.Reads) (prepare inp) := by
  unfold prepare
  split
  case h_1 => exact .throw
  case h_2 =>
    refine .bind (Single.stmt trivial) fun now => ?_
    dsimp only
    split
    case isTrue => exact .throw
    case isFalse =>
      refine .bind applyPromo_single fun promo => .bind applyCredits_single fun credits => ?_
      exact .bind (Single.stmt trivial) fun referral => .pure

theorem prepare_single : Built (Single Stmt.Plain) (prepare inp) :=
  Single.mono prepare_reads fun _ => Stmt.Reads.plain

theorem undoReservations_blocks : Built (CreateBlock D K) (undoReservations P D inp) := by
  unfold undoReservations
  split
  case isTrue =>
    exact .bind (.safe <| .block .releasePromo) fun _ => .safe <| .block .refundCredits
  case isFalse => exact .pure

theorem abandon_blocks : Built (CreateBlock D K) (abandon P D inp dispatched) := by
  refine .bind undoReservations_blocks fun _ => ?_
  unfold releaseClaimedAircraft
  split
  case h_1 => exact .pure
  case h_2 => exact .safe <| .attempt <| .block <| .tx <| .inr <| .inl ⟨rfl, rfl⟩

theorem redeemPromo_blocks : Built (CreateBlock D K) (redeemPromo D inp order) := by
  unfold redeemPromo
  split
  case h_1 => exact .pure
  case h_2 => exact .attempt <| .block <| .tx <| .inr <| .inl rfl

theorem debitCredits_blocks : Built (CreateBlock D K) (debitCredits D inp order) := by
  unfold debitCredits
  split
  case isTrue  => exact .attempt <| .block <| .tx <| .inr <| .inl ⟨rfl, rfl⟩
  case isFalse => exact .pure

theorem reserve_blocks : Built (CreateBlock D K) (reserve P D inp order dispatched) := by
  unfold reserve
  split
  case isFalse => exact .pure
  case isTrue =>
    exact .handle (.bind redeemPromo_blocks fun _ => debitCredits_blocks) fun _ =>
      .bind abandon_blocks fun _ => .throw

theorem place_blocks {attempt : Nat} :
    Built (CreateBlock D K) (place P D inp order dispatched attempt) := by
  have hs : (deliveryData P inp order dispatched attempt).New :=
    ⟨by cases h : order.isScheduled <;> simp [deliveryData, h], rfl⟩
  refine .handle (.bind (.attempt <| .block <| .tx <| .inr <| .inl ⟨rfl, hs⟩) fun _ => .pure) fun e => ?_
  split
  case isTrue  => exact .pure
  case isFalse => exact .bind abandon_blocks fun _ => .throw

theorem placeWithRetries_blocks {tries attempt : Nat} :
    Built (CreateBlock D K) (placeWithRetries P D inp order dispatched tries attempt) := by
  induction tries generalizing attempt
  case zero => exact .bind abandon_blocks fun _ => .throw
  case succ ih =>
    refine .bind place_blocks fun placed => ?_
    split
    case isTrue  => exact .pure
    case isFalse => exact ih

theorem charge_single :
    Built (Single fun x => x.Plain ∨ ∃ row, x = .payment (.create D row)) (charge D inp order) := by
  unfold charge
  split
  case isFalse => exact .pure
  case isTrue =>
    refine .safe <| .bind (Single.stmt <| .inl trivial) fun existing => ?_
    cases existing
    case some => exact .pure
    case none =>
      dsimp only
      split
      case h_1 => exact .throw
      case h_2 => exact .attempt <| .block <| .tx <| .inr ⟨_, rfl⟩

theorem charge_blocks : Built (CreateBlock D K) (charge D inp order) :=
  charge_single.mono fun
    | .tx (.inl hx)        => .tx <| .inl hx
    | .tx (.inr ⟨_, rfl⟩)  => .tx <| .inr <| .inl rfl

theorem enqueue_single {source : TrackingSource} :
    Built (Single fun x => x.Plain ∨ x = .effect (.startSimulation D))
      (enqueue D inp order source) := by
  unfold enqueue
  split
  case h_1 => exact .pure
  case h_2 => exact .safe <| .attempt <| Single.stmt <| .inl trivial
  case h_3 => exact .safe <| .attempt <| Single.stmt <| .inr rfl

-- What is specific to a creation: it claims an airframe, or else enqueues the simulation.
def Stmt.Sources (D : DeliveryId) (x : Stmt) : Prop :=
  x.Claims D ∨ x = .effect (.startSimulation D)

theorem create_blocks : Built (CreateBlock D (Stmt.Sources D)) (create P D inp) :=
  .bind (CreateBlock.of_single prepare_single) fun _ =>
    .bind (dispatch_single.mono fun | .tx hx => .tx <| hx.imp_right fun hx => .inr <| .inl hx) fun _ =>
      .bind reserve_blocks fun _ => .bind placeWithRetries_blocks fun _ =>
        .bind charge_blocks fun _ =>
          enqueue_single.mono fun | .tx hx => .tx <| hx.imp_right fun hx => .inr <| .inr hx

-- The delivery is placed by the first try that succeeds (`G`), or else given up. Until then `F` holds.
theorem wpm_placeWithRetries {O : Outline Stmt.sig Store Call} {t : Nat} {c : Call}
    {F G H : World Stmt.sig Store Call → Prop} {w : World Stmt.sig Store Call}
    (hp : ∀ {attempt w}, F w → O.wpm (system P) t c
      ((App.tx (.createDelivery D (deliveryData P inp order dispatched attempt) (booking P order))
        id).attempt (inp.faults.delivery attempt)) (fun _ => G) (fun _ => F) w)
    (ha : ∀ {w}, F w →
      O.wpm (system P) t c (abandon P D inp dispatched) (fun _ => H) (fun _ => H) w)
    {tries attempt : Nat} (h : F w) :
    O.wpm (system P) t c (placeWithRetries P D inp order dispatched tries attempt) (fun _ => G)
      (fun _ => H) w := by
  induction tries generalizing attempt w
  case zero =>
    rw [placeWithRetries, Outline.wpm_bind]
    exact ha h
  case succ ih =>
    rw [placeWithRetries, Outline.wpm_bind, place, Outline.wpm_handle, Outline.wpm_bind]
    refine Outline.wpm_mono (hp h) (fun _ _ h => h) (fun e w h => ?_)
    split
    case isTrue  => exact ih h
    case isFalse =>
      rw [Outline.wpm_bind]
      exact ha h

end Create

section Pieces

variable {K : Stmt → Prop} {T : Option CommandId → CleanupFaults → Prop} {α : Type} {p : App α}

theorem Block.pieces {M : Stmt → Prop} (h : Block K T α p) (hM : ∀ x, x.Frugal → M x)
    (hK : ∀ x, K x → M x) : Built (Piece M) p := by
  cases h
  case tx h _         => exact .block <| .tx <| h.elim (fun h => hM _ h.frugal) (hK _)
  case fail           => exact Piece.mono failExceptional_pieces hM
  case beginReturn    => exact Piece.mono beginReturnToBase_pieces hM
  case completeReturn => exact Piece.mono completeReturnToBase_pieces hM
  case cancel         => exact Piece.mono cancel_pieces hM
  case forceCancel    => exact Piece.mono adminForceCancel_pieces hM
  case issue =>
    refine issue_single.mono fun h => ?_
    obtain ⟨h | ⟨_, rfl⟩⟩ := h
    case inl => exact .tx <| hM _ h.frugal
    case inr => exact .tx <| hM _ trivial
  case happy => exact Piece.mono ingestHappy_pieces hM

theorem Stmt.Kickoff.moneyless {D : DeliveryId} {x : Stmt} (h : x.Kickoff D) : x.Moneyless := by
  obtain ⟨_, rfl⟩ | rfl | ⟨_, _, rfl⟩ | rfl := h <;> trivial

theorem handleKickoff_pieces {P : Params} {job : KickoffJob} :
    Built (Piece Stmt.Moneyless) (SimulationProcessor.handleKickoff P job) :=
  (handleKickoff_blocks (T := fun _ _ => True) trivial).refine
    (·.pieces (fun _ => (·.moneyless)) fun _ => (·.moneyless))

theorem Stmt.Patch.frugal {C : CommandId} {x : Stmt} (h : x.Patch C) : x.Frugal := by
  cases x
  case command => trivial
  all_goals exact h.elim

theorem confirmHandoff_pieces {P : Params} {U : UserId} {D : DeliveryId} {code : String}
    {faults : CleanupFaults} : Built (Piece Stmt.Frugal) (confirmHandoff P U D code faults) :=
  (confirmHandoff_blocks (T := fun _ _ => True) trivial).refine fun
    | .block h    => h.pieces (fun _ => id) fun _ he => he ▸ trivial
    | .complete _ => completeHandoff_pieces

theorem updateDrone_single {X : DroneId} {dto : UpdateDroneDto} {fault : Fault} :
    Built (Single Stmt.Plain) (AdminService.updateDrone X dto fault) := by
  refine .bind (Single.stmt trivial) fun before => ?_
  cases before
  case none => exact .throw
  case some => exact .attempt <| .block <| .tx trivial

theorem updatePromo_single {code : PromoId} {dto : UpdatePromoDto} {fault : Fault} :
    Built (Single Stmt.Plain) (AdminService.updatePromo code dto fault) := by
  refine .bind (Single.stmt trivial) fun before => ?_
  cases before
  case none => exact .throw
  case some =>
    refine .bind ?_ fun _ => .bind (Single.stmt trivial).attempt fun count => ?_
    case refine_1 =>
      unfold AdminService.assertDiscountValue
      split
      case h_1 =>
        split
        case isTrue  => exact .throw
        case isFalse => exact .pure
      case h_2 => exact .pure
    case refine_2 =>
      split
      case isTrue  => exact .throw
      case isFalse => exact .pure

-- The statements other than those that return what a delivery has cost.
def Stmt.Forward : Stmt → Prop
  | .promo (.release ..)             => False
  | .wallet (.refund ..)             => False
  | .refundCharge .automatic _ _ _   => False
  | .effect (.deferKickoff _ n)      => 0 < n ∧ n < preflightMaxAttempts
  | _                                => True

theorem Stmt.Moneyless.forward {x : Stmt} (h : x.Moneyless) : x.Forward := by
  cases x
  case wallet x => cases x <;> trivial
  case promo x  => cases x <;> trivial
  case refundCharge => exact h.elim
  case effect x     => cases x <;> exact h
  all_goals trivial

-- Those of them that do not claim an airframe.
def Stmt.Onward : Stmt → Prop
  | .fleet (.claim ..) => False
  | x                  => x.Forward

theorem Stmt.Onward.forward {x : Stmt} (h : x.Onward) : x.Forward := by
  unfold Stmt.Onward at h
  split at h
  case h_1 => trivial
  case h_2 => exact h

theorem Stmt.Frugal.onward {x : Stmt} (h : x.Frugal) : x.Onward := by
  unfold Stmt.Onward
  split
  case h_1 => exact h
  case h_2 => exact h.moneyless.forward

theorem Stmt.Books.forward {D : DeliveryId} {x : Stmt} (h : x.Books D) : x.Forward := by
  cases x
  case wallet x => cases x <;> trivial
  case promo x  => cases x <;> trivial
  case refundCharge => exact h.elim
  all_goals trivial

theorem Stmt.Sources.forward {D : DeliveryId} {x : Stmt} (h : x.Sources D) : x.Forward := by
  obtain ⟨_, _, rfl⟩ | rfl := h <;> trivial

-- The statement with which a call moves money on its own account.
def Call.Own : Call → Stmt → Prop
  | .adminRefund ..,            x => ∃ D U amount, x = .refundCharge .admin D U amount
  | .handleWebhookEvent ..,     x => ∃ id type I, x = .payment (.webhook id type I)
  | .credit U amount r opts _,  x => x = .wallet (.credit U amount r opts)
  | .debit U amount D key _,    x => x = .wallet (.debit U amount D key)
  | .grantReferralReward U _,   x => x = .wallet (.grantReferralReward U)
  | .redeem code U D t d _,     x => x = .promo (.redeem code U D t d)
  | _,                          _ => False

theorem Call.Own.onward {c : Call} {x : Stmt} (h : c.Own x) : x.Onward := by
  cases c
  case adminRefund =>
    obtain ⟨_, _, _, rfl⟩ := h
    trivial
  case handleWebhookEvent =>
    obtain ⟨_, _, _, rfl⟩ := h
    trivial
  case credit              => exact h ▸ trivial
  case debit               => exact h ▸ trivial
  case grantReferralReward => exact h ▸ trivial
  case redeem              => exact h ▸ trivial
  all_goals exact h.elim

theorem refund_pieces {K : Stmt → Prop} {D : DeliveryId} {amount : Option Cents} {fault : Fault}
    (hf : K (.delivery <| .find D)) (hK : ∀ U a, K (.refundCharge .admin D U a)) :
    Built (Piece K) (AdminService.refund D amount fault) := by
  refine .bind (.block <| .tx hf) fun delivery => ?_
  cases delivery
  case none => exact .throw
  case some =>
    dsimp only
    split
    case isTrue => exact .throw
    case isFalse =>
      refine .handle (.attempt <| .block <| .tx <| hK ..) fun e => ?_
      split <;> exact .throw

theorem handleWebhookEvent_pieces {K : Stmt → Prop} {event : StripeEvent} {fault : Fault}
    (hK : ∀ I, K (.payment <| .webhook event.id event.type I)) :
    Built (Piece K) (PaymentsService.handleWebhookEvent event fault) := by
  unfold PaymentsService.handleWebhookEvent
  split
  case h_1 => exact .pure
  case h_2 =>
    refine .handle (.bind (.attempt <| .block <| .tx <| hK _) fun _ => .pure) fun e => ?_
    split
    case isTrue  => exact .pure
    case isFalse => exact .throw

-- The calls that do not dispatch a delivery are composed of the finest blocks, and claim no airframe.
theorem Call.frugal_or_own (P : Params) (t : Nat) {c : Call} (hc : ∀ inp, c ≠ .create inp)
    (hk : ∀ job, c ≠ .handleKickoff job) :
    ∃ (α : Type) (p : App α), (system P).prog t c = p.toCall ∧
      Built (Piece fun x => x.Frugal ∨ c.Own x) p := by
  have pieces {α : Type} {p : App α} (hp : Built (Piece Stmt.Frugal) p) :
      ∃ (α : Type) (q : App α), p.toCall = q.toCall ∧ Built (Piece fun x => x.Frugal ∨ c.Own x) q :=
    ⟨α, p, rfl, Piece.mono hp fun _ => .inl⟩
  have blocks {α : Type} {p : App α} {K T} (hp : Built (Block K T) p) (hK : ∀ x, K x → x.Frugal) :
      ∃ (α : Type) (q : App α), p.toCall = q.toCall ∧ Built (Piece fun x => x.Frugal ∨ c.Own x) q :=
    pieces <| hp.refine (·.pieces (fun _ => id) hK)
  have single {α : Type} {p : App α} (hp : Built (Single Stmt.Plain) p) :
      ∃ (α : Type) (q : App α), p.toCall = q.toCall ∧ Built (Piece fun x => x.Frugal ∨ c.Own x) q :=
    pieces <| hp.mono fun | .tx h => .tx h.frugal
  have one {α : Type} {x : Stmt} {f : x.Res → Except AppError α} {fault : Fault} (h : c.Own x) :
      ∃ (α : Type) (q : App α), ((App.tx x f).attempt fault).toCall = q.toCall ∧
        Built (Piece fun x => x.Frugal ∨ c.Own x) q :=
    ⟨_, _, rfl, .attempt <| .block <| .tx <| .inr h⟩
  cases c
  case create inp            => exact absurd rfl (hc inp)
  case cancel                => exact pieces cancel_pieces
  case adminForceCancel      => exact pieces adminForceCancel_pieces
  case adminFail             =>
    exact blocks (adminFail_blocks (K := fun _ => False) (T := fun _ _ => True) trivial) fun _ => False.elim
  case failExceptional       => exact pieces failExceptional_pieces
  case beginReturnToBase     => exact pieces beginReturnToBase_pieces
  case completeReturnToBase  => exact pieces completeReturnToBase_pieces
  case confirmHandoff        => exact pieces confirmHandoff_pieces
  case handleKickoff job     => exact absurd rfl (hk job)
  case handleStage           => exact pieces handleStage_pieces
  case handlePosition        => exact single handlePosition_single
  case ingest                =>
    exact blocks (ingest_blocks (K := fun _ => False) (T := fun _ _ => True) trivial) fun _ => False.elim
  case issue                 =>
    exact blocks (.block <| .issue (K := fun _ => False) (T := fun _ _ => True)) fun _ => False.elim
  case fetchPending          => exact single fetchPending_single
  case ack                   => exact blocks (ack_blocks (T := fun _ _ => True) trivial) fun _ => (·.frugal)
  case scanAndReap           =>
    exact blocks (scanAndReap_blocks (T := fun _ _ => True) (fun _ => trivial) fun _ => trivial)
      fun _ ⟨_, h⟩ => h.frugal
  case expireStaleCommands   => exact single expireStaleCommands_single
  case reconcileStrandedAcks =>
    exact blocks (reconcileStrandedAcks_blocks (T := fun _ _ => True) fun _ => trivial)
      fun _ ⟨_, h⟩ => h.frugal
  case refundForDelivery     => exact ⟨_, _, rfl, .block .refundCredits⟩
  case refundChargeToWallet  => exact ⟨_, _, rfl, .block .refundCharge⟩
  case adminRefund           =>
    exact ⟨_, _, rfl, refund_pieces (.inl trivial) fun _ _ => .inr ⟨_, _, _, rfl⟩⟩
  case handleWebhookEvent    =>
    exact ⟨_, _, rfl, handleWebhookEvent_pieces fun _ => .inr ⟨_, _, _, rfl⟩⟩
  case releaseForDelivery    => exact ⟨_, _, rfl, .block .releasePromo⟩
  case updatePromo           => exact single updatePromo_single
  case updateDrone           => exact single updateDrone_single
  case credit                => exact one rfl
  case debit                 => exact one rfl
  case grantReferralReward   => exact one rfl
  case redeem                => exact one rfl
  case passTime              => exact ⟨_, _, rfl, .block <| .tx <| .inl trivial⟩

theorem Call.onward (P : Params) (t : Nat) {c : Call} (hc : ∀ inp, c ≠ .create inp)
    (hk : ∀ job, c ≠ .handleKickoff job) :
    ∃ (α : Type) (p : App α), (system P).prog t c = p.toCall ∧ Built (Piece Stmt.Onward) p := by
  have ⟨α, p, he, hp⟩ := Call.frugal_or_own P t hc hk
  exact ⟨α, p, he, Piece.mono hp fun _ h => h.elim (·.onward) (·.onward)⟩

-- What the finest blocks of a call are made of.
def Call.Makes (c : Call) (x : Stmt) : Prop :=
  x.Moneyless ∨ (∃ D, x.Books D ∨ x.Sources D) ∨ c.Own x

-- Every call is composed of the finest blocks.
theorem Call.composed (P : Params) (t : Nat) (c : Call) :
    ∃ (α : Type) (p : App α), (system P).prog t c = p.toCall ∧ Built (Piece c.Makes) p := by
  by_cases hc : ∃ inp, c = .create inp
  case pos =>
    obtain ⟨inp, rfl⟩ := hc
    exact ⟨_, _, rfl, create_blocks.refine fun
      | .tx h          => .block <| .tx <| h.imp (·.moneyless) fun h => .inl ⟨_, h⟩
      | .releasePromo  => .block .releasePromo
      | .refundCredits => .block .refundCredits⟩
  case neg =>
    by_cases hk : ∃ job, c = .handleKickoff job
    case pos =>
      obtain ⟨job, rfl⟩ := hk
      exact ⟨_, _, rfl, Piece.mono handleKickoff_pieces fun _ => .inl⟩
    case neg =>
      have ⟨α, p, he, hp⟩ := Call.frugal_or_own P t (fun inp he => hc ⟨inp, he⟩) fun job he => hk ⟨job, he⟩
      exact ⟨α, p, he, Piece.mono hp fun _ h => h.imp (·.moneyless) .inr⟩

theorem Call.pieces (P : Params) (t : Nat) (c : Call) :
    ∃ (α : Type) (p : App α), (system P).prog t c = p.toCall ∧
      Built (Piece Stmt.Forward) p := by
  have ⟨α, p, he, hp⟩ := Call.composed P t c
  refine ⟨α, p, he, Piece.mono hp ?_⟩
  rintro x (h | ⟨_, h | h⟩ | h)
  case inl         => exact h.forward
  case inr.inl.inl => exact h.forward
  case inr.inl.inr => exact h.forward
  case inr.inr     => exact h.onward.forward

end Pieces

end Drovery
