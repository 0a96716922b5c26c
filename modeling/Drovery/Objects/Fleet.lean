import Mathlib.Data.List.Sort
import Drovery.Objects.Delivery

namespace Drovery

inductive DroneStatus
  | available
  | inFlight
  | charging
  | maintenance
  | grounded
  deriving DecidableEq

structure Drone where
  status           : DroneStatus
  airworthy        : Bool
  maxPayloadKg     : ℚ
  rangeKm          : ℚ
  batteryPercent   : Int
  homeBaseLat      : ℚ
  homeBaseLng      : ℚ
  currentPosition  : Option (ℚ × ℚ)
  maintenanceDueAt : Option Time
  -- The claim on the airframe. This column is unique.
  activeDeliveryId : Option DeliveryId

-- Why an aircraft is handed back.
inductive ReleaseOutcome
  | returnToFleet
  | groundForInspection
  deriving DecidableEq

-- What an operator may change about an aircraft. The due date of the maintenance may be cleared.
structure UpdateDroneDto where
  status           : Option DroneStatus   := none
  airworthy        : Option Bool          := none
  maxPayloadKg     : Option ℚ             := none
  rangeKm          : Option ℚ             := none
  batteryPercent   : Option Int           := none
  maintenanceDueAt : Option (Option Time) := none

abbrev Fleet := Table DroneId Drone

def minDispatchBatteryPercent : Int := 25
def maxClaimAttempts : Nat := 8
def candidateLimit : Nat := 50

-- The statements that the platform issues against the fleet.
inductive FleetStmt
  -- The airframe that a delivery already holds.
  | findHeld (D : DeliveryId)
  | findAvailable (payloadKg : ℚ)
  | claim (X : DroneId) (D : DeliveryId) (payloadKg : ℚ)
  | countCapable (payloadKg : ℚ)
  | release (D : DeliveryId) (outcome : ReleaseOutcome)
  -- The live state of the airframe that currently flies a delivery.
  | findActive (D : DeliveryId)
  | updateState (D : DeliveryId) (position : Option (ℚ × ℚ)) (batteryPercent : Option Int)
  | find (X : DroneId)
  | update (X : DroneId) (dto : UpdateDroneDto)

namespace Drone

def Claimable (d : Drone) (payloadKg : ℚ) : Prop :=
  d.airworthy = true ∧ d.status = .available ∧ d.activeDeliveryId = none ∧
    payloadKg ≤ d.maxPayloadKg

instance (d : Drone) (payloadKg : ℚ) : Decidable (d.Claimable payloadKg) :=
  inferInstanceAs (Decidable (_ ∧ _ ∧ _ ∧ _))

-- The additional conditions under which an aircraft is offered to a mission.
def Dispatchable (d : Drone) (payloadKg : ℚ) (now : Time) : Prop :=
  d.Claimable payloadKg ∧ minDispatchBatteryPercent ≤ d.batteryPercent ∧
    ∀ due ∈ d.maintenanceDueAt, now < due

instance (d : Drone) (payloadKg : ℚ) (now : Time) : Decidable (d.Dispatchable payloadKg now) :=
  inferInstanceAs (Decidable (_ ∧ _ ∧ _))

def claim (D : DeliveryId) (d : Drone) : Drone :=
  { d with activeDeliveryId := some D, status := .inFlight }

def release : ReleaseOutcome → Drone → Drone
  | .returnToFleet,       d => { d with activeDeliveryId := none, status := .available }
  | .groundForInspection, d =>
    { d with activeDeliveryId := none, status := .maintenance, airworthy := false }

def update (dto : UpdateDroneDto) (d : Drone) : Drone :=
  { d with
    status           := dto.status.getD d.status
    airworthy        := dto.airworthy.getD d.airworthy
    maxPayloadKg     := dto.maxPayloadKg.getD d.maxPayloadKg
    rangeKm          := dto.rangeKm.getD d.rangeKm
    batteryPercent   := dto.batteryPercent.getD d.batteryPercent
    maintenanceDueAt := dto.maintenanceDueAt.getD d.maintenanceDueAt }

@[simp]
theorem claim_activeDeliveryId {D : DeliveryId} {d : Drone} :
    (d.claim D).activeDeliveryId = some D :=
  rfl

@[simp]
theorem update_activeDeliveryId {dto : UpdateDroneDto} {d : Drone} :
    (d.update dto).activeDeliveryId = d.activeDeliveryId :=
  rfl

@[simp]
theorem release_activeDeliveryId {o : ReleaseOutcome} {d : Drone} :
    (d.release o).activeDeliveryId = none := by
  cases o <;> rfl

end Drone

namespace FleetStmt

@[reducible]
def Res : FleetStmt → Type
  | findHeld _      => Option DroneId
  | findAvailable _ => List (DroneId × Drone)
  | claim _ _ _     => Except AppError Nat
  | countCapable _  => Nat
  | release _ _     => Unit
  | findActive _    => Option (DroneId × Drone)
  | updateState ..  => Unit
  | find _          => Option Drone
  | update _ _      => Except AppError Unit

-- Ascending capacity and then ascending id.
def candidateLE (a b : DroneId × Drone) : Prop :=
  a.snd.maxPayloadKg < b.snd.maxPayloadKg ∨
    (a.snd.maxPayloadKg = b.snd.maxPayloadKg ∧ a.fst ≤ b.fst)

instance : DecidableRel candidateLE :=
  fun _ _ => inferInstanceAs (Decidable (_ ∨ _))

def holds (D : DeliveryId) (d : Drone) : Bool :=
  d.activeDeliveryId = some D

-- A claim fails if the airframe has been taken in the meantime, and it violates the uniqueness of
-- the claims if the delivery has obtained another airframe in the meantime.
def execClaim (fleet : Fleet) (X : DroneId) (D : DeliveryId) (payloadKg : ℚ) :
    Except AppError Nat × Fleet :=
  if (fleet.find? X).any (·.Claimable payloadKg) then
    if 0 < fleet.count fun _ d => holds D d then
      (.error <| .p2002 .droneActiveDeliveryId, fleet)
    else
      (.ok 1, fleet.modify X (·.claim D))
  else
    (.ok 0, fleet)

def exec (now : Time) : (x : FleetStmt) → Fleet → x.Res × Fleet
  | findHeld D, fleet =>
    (fleet.findFirst (fun _ d => holds D d) |>.map Prod.fst, fleet)
  | findAvailable payloadKg, fleet =>
    (fleet.findMany (fun _ d => d.Dispatchable payloadKg now)
      |>.insertionSort candidateLE |>.take candidateLimit, fleet)
  | claim X D payloadKg, fleet =>
    execClaim fleet X D payloadKg
  | countCapable payloadKg, fleet =>
    (fleet.count fun _ d => d.airworthy && decide (payloadKg ≤ d.maxPayloadKg), fleet)
  | release D outcome, fleet =>
    ((), fleet.updateMany (fun _ d => holds D d) (·.release outcome))
  | findActive D, fleet =>
    (fleet.findFirst fun _ d => holds D d, fleet)
  | updateState D position batteryPercent, fleet =>
    ((), fleet.updateMany (fun _ d => holds D d) fun d =>
      { d with
        currentPosition := position <|> d.currentPosition
        batteryPercent  := batteryPercent.getD d.batteryPercent })
  | find X, fleet =>
    (fleet.find? X, fleet)
  | update X dto, fleet =>
    match fleet.find? X with
    | none   => (.error .recordNotFound, fleet)
    | some _ => (.ok (), fleet.modify X (·.update dto))

end FleetStmt

-- The airframe `X` carries the claim of the delivery `D`.
def Fleet.Claims (fleet : Fleet) (X : DroneId) (D : DeliveryId) : Prop :=
  ∃ d, fleet.find? X = some d ∧ d.activeDeliveryId = some D

namespace Fleet

variable {fleet : Fleet} {X Y : DroneId} {D E : DeliveryId} {payloadKg : ℚ} {now : Time}

-- An airframe carries at most one claim.
theorem Claims.unique (h₁ : fleet.Claims X D) (h₂ : fleet.Claims X E) : D = E := by
  obtain ⟨d, hd, ha⟩ := h₁
  obtain ⟨e, he, hb⟩ := h₂
  simp_all

theorem claims_of_findHeld (h : (FleetStmt.exec now (.findHeld D) fleet).fst = some X) :
    fleet.Claims X D := by
  simp only [FleetStmt.exec, Option.map_eq_some_iff, Prod.exists] at h
  obtain ⟨Y, d, h, rfl⟩ := h
  have hm := List.mem_of_find?_eq_some h
  have hp := List.find?_some h
  exact ⟨d, Table.find?_eq_some_iff.mpr hm, by simpa [FleetStmt.holds] using hp⟩

-- A successful claim only takes an airframe that was not claimed.
theorem claim_cases (X : DroneId) (D : DeliveryId) (payloadKg : ℚ) (fleet : Fleet) :
    (FleetStmt.execClaim fleet X D payloadKg).snd = fleet ∧
      (∀ n, (FleetStmt.execClaim fleet X D payloadKg).fst = .ok n → n = 0) ∨
    (FleetStmt.execClaim fleet X D payloadKg) = (.ok 1, fleet.modify X (·.claim D)) ∧
      ∃ d, fleet.find? X = some d ∧ d.activeDeliveryId = none := by
  unfold FleetStmt.execClaim
  split
  case isFalse => simp
  case isTrue h =>
    split
    case isTrue => simp
    case isFalse =>
      cases hf : fleet.find? X <;> simp only [hf, Option.any_none, Option.any_some] at h
      case none => contradiction
      case some => exact .inr ⟨rfl, _, rfl, (of_decide_eq_true h).right.right.left⟩

theorem claims_of_claim {n : Nat}
    (h : (FleetStmt.exec now (.claim X D payloadKg) fleet).fst = .ok n) (hn : 0 < n) :
    Claims (FleetStmt.exec now (.claim X D payloadKg) fleet).snd X D := by
  obtain ⟨_, hz⟩ | ⟨he, d, hd, _⟩ := claim_cases X D payloadKg fleet
  case inl => exact absurd (hz n h) hn.ne'
  case inr => exact ⟨d.claim D, by simp [FleetStmt.exec, he, hd], rfl⟩

-- The claims that a statement leaves in place are all but those it releases.
theorem Claims.exec {x : FleetStmt} (h : fleet.Claims X D)
    (hr : ∀ o, x ≠ .release D o) : Claims (x.exec now fleet).snd X D := by
  obtain ⟨d, hd, ha⟩ := h
  cases x
  case claim Y E p =>
    obtain ⟨he, _⟩ | ⟨he, e, hf, hn⟩ := claim_cases Y E p fleet <;> simp only [FleetStmt.exec, he]
    case inl => exact ⟨d, hd, ha⟩
    case inr =>
      have hne : X ≠ Y := by rintro rfl; simp_all
      exact ⟨d, by simp [Table.find?_modify_of_ne hne, hd], ha⟩
  case release E o =>
    have hne : E ≠ D := fun he => hr o (he ▸ rfl)
    refine ⟨d, ?_, ha⟩
    simp [FleetStmt.exec, Table.find?_updateMany, hd, FleetStmt.holds, ha, Ne.symm hne]
  case updateState E p b =>
    simp only [FleetStmt.exec, Claims, Table.find?_updateMany, hd, Option.map_some,
      Option.some.injEq, exists_eq_left']
    split <;> exact ha
  case update Y dto =>
    simp only [FleetStmt.exec]
    split
    case h_1 => exact ⟨d, hd, ha⟩
    case h_2 =>
      by_cases heq : X = Y
      case pos => exact ⟨d.update dto, by simp [← heq, hd], ha⟩
      case neg => exact ⟨d, by simp [Table.find?_modify_of_ne heq, hd], ha⟩
  all_goals exact ⟨d, hd, ha⟩

-- Statements other than a claim do not create claims.
theorem Claims.of_exec {x : FleetStmt} (h : Claims (x.exec now fleet).snd X D)
    (hc : ∀ p, x ≠ .claim X D p) : fleet.Claims X D := by
  obtain ⟨d, hd, ha⟩ := h
  cases x
  case claim Y E p =>
    obtain ⟨he, _⟩ | ⟨he, e, hf, hn⟩ := claim_cases Y E p fleet <;>
      simp only [FleetStmt.exec, he] at hd
    case inl => exact ⟨d, hd, ha⟩
    case inr =>
      by_cases heq : X = Y
      case pos =>
        subst heq
        simp only [Table.find?_modify_self, hf, Option.map_some, Option.some.injEq] at hd
        subst hd
        simp only [Drone.claim_activeDeliveryId, Option.some.injEq] at ha
        exact absurd rfl (ha ▸ hc p)
      case neg => exact ⟨d, by simpa [Table.find?_modify_of_ne heq] using hd, ha⟩
  case release E o =>
    simp only [FleetStmt.exec, Table.find?_updateMany, Option.map_eq_some_iff] at hd
    obtain ⟨d', hd', he⟩ := hd
    split at he <;> subst he
    case isTrue  => simp at ha
    case isFalse => exact ⟨_, hd', ha⟩
  case updateState E p b =>
    simp only [FleetStmt.exec, Table.find?_updateMany, Option.map_eq_some_iff] at hd
    obtain ⟨d', hd', he⟩ := hd
    split at he <;> subst he <;> exact ⟨_, hd', ha⟩
  case update Y dto =>
    simp only [FleetStmt.exec] at hd
    split at hd
    case h_1 => exact ⟨d, hd, ha⟩
    case h_2 =>
      by_cases heq : X = Y
      case pos =>
        subst heq
        obtain ⟨d', hd', rfl⟩ := Option.map_eq_some_iff.mp <| Table.find?_modify_self.symm.trans hd
        exact ⟨d', hd', ha⟩
      case neg => exact ⟨d, by simpa [Table.find?_modify_of_ne heq] using hd, ha⟩
  all_goals exact ⟨d, hd, ha⟩

theorem not_claims_of_release {o : ReleaseOutcome} :
    ¬Claims (FleetStmt.exec now (.release D o) fleet).snd X D := by
  rintro ⟨d, hd, ha⟩
  simp only [FleetStmt.exec, Table.find?_updateMany, Option.map_eq_some_iff] at hd
  obtain ⟨d', _, he⟩ := hd
  split at he <;> subst he <;> simp_all [FleetStmt.holds]

end Fleet

end Drovery
