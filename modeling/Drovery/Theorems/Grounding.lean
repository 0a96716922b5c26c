import Drovery.Theorems.Fleet

namespace Drovery

open Concurrency

-- The value that an operator gives to a column of the airframe `X` (if any).
def operatorSets {α : Type} (f : UpdateDroneDto → Option α) (X : DroneId)
    (e : Entry Stmt.sig Store Call) : Option α :=
  match e.stmt with
  | .fleet (.update Y dto) => if Y = X ∧ (e.pre.fleet.find? X).isSome then f dto else none
  | _                      => none

-- An operator has taken the airframe `X` out of service by its status, and has not put it back since.
def groundedByStatus (w : History) (X : DroneId) : Bool :=
  (w.log.findSome? (operatorSets (·.status) X)).any (· ≠ .available)

def groundedByAirworthiness (w : History) (X : DroneId) : Bool :=
  (w.log.findSome? (operatorSets (·.airworthy) X)).any (· = false)

-- The entry claimed the airframe `X`.
def Claims (e : Entry Stmt.sig Store Call) (X : DroneId) : Prop :=
  ∃ D payloadKg, e.stmt = .fleet (.claim X D payloadKg) ∧
    (FleetStmt.execClaim e.pre.fleet X D payloadKg).fst = .ok 1

-- The runs in which no airframe is returned to the fleet that an operator has taken out of service by
-- its status while it was on its mission.
def groundingRespected : Policy Stmt.sig Store Call where
  step s _ _ x := ∀ D, x = .fleet (.release D .returnToFleet) →
    ∀ X, s.db.fleet.Claims X D → ¬groundedByStatus s.world X

-- What is recorded about the airframes that are out of service.
def GroundingRecorded (w : History) : Prop :=
  ∀ X d, w.db.fleet.find? X = some d → (groundedByStatus w X → d.status ≠ .available) ∧
    (groundedByAirworthiness w X → d.airworthy = false)

section

variable {P : Params} {s : Pool Stmt.sig Store Call} {t : Nat} {c : Call} {w : History} {x : Stmt}
variable {X : DroneId} {d : Drone}

theorem claimable_of_claims {e : Entry Stmt.sig Store Call} (h : Claims e X) :
    ∃ d, e.pre.fleet.find? X = some d ∧ d.status = .available ∧ d.airworthy = true := by
  obtain ⟨D, p, _, hc⟩ := h
  unfold FleetStmt.execClaim at hc
  split at hc
  case isFalse => simp at hc
  case isTrue h =>
    obtain ⟨d, hd, ha⟩ := (Option.any_eq_true _ _).mp h
    obtain ⟨ha, hs, _⟩ := of_decide_eq_true ha
    exact ⟨d, hd, hs, ha⟩

theorem operatorSets_eq_none {α : Type} {f : UpdateDroneDto → Option α} {db : Store}
    (h : ∀ dto, x ≠ .fleet (.update X dto)) : operatorSets f X ⟨t, c, x, db⟩ = none := by
  unfold operatorSets
  split
  case h_2 => rfl
  case h_1 Y dto hs =>
    refine if_neg fun ⟨he, _⟩ => h dto ?_
    subst he
    exact hs

-- An operator either leaves a column alone or determines its value.
theorem operatorSets_update {α : Type} {f : UpdateDroneDto → Option α} {db : Store}
    {dto : UpdateDroneDto} (hd : db.fleet.find? X = some d) :
    operatorSets f X ⟨t, c, .fleet <| .update X dto, db⟩ = f dto := by
  simp [operatorSets, hd]

theorem groundedByStatus_exec : groundedByStatus (w.exec (system P) t c x) X =
    ((operatorSets (·.status) X ⟨t, c, x, w.db⟩).map (decide <| · ≠ .available)).getD
      (groundedByStatus w X) := by
  simp only [groundedByStatus, World.exec_log, List.findSome?_cons]
  cases operatorSets (·.status) X (⟨t, c, x, w.db⟩ : Entry Stmt.sig Store Call) <;> rfl

theorem groundedByAirworthiness_exec : groundedByAirworthiness (w.exec (system P) t c x) X =
    ((operatorSets (·.airworthy) X ⟨t, c, x, w.db⟩).map (decide <| · = false)).getD
      (groundedByAirworthiness w X) := by
  simp only [groundedByAirworthiness, World.exec_log, List.findSome?_cons]
  cases operatorSets (·.airworthy) X (⟨t, c, x, w.db⟩ : Entry Stmt.sig Store Call) <;> rfl

theorem find?_update {db : Store} {dto : UpdateDroneDto} :
    ((Stmt.fleet <| .update X dto).exec db).snd.fleet.find? X = (db.fleet.find? X).map (·.update dto) := by
  simp only [Stmt.exec, FleetStmt.exec]
  split
  case h_1 hn => rw [hn, Option.map_none]
  case h_2 hd => rw [Table.find?_modify_self, hd]

theorem GroundingRecorded.exec (st : StepOf (system P) groundingRespected Store.Initial s t c x)
    (h : GroundingRecorded s.world) : GroundingRecorded (s.world.exec (system P) t c x) := by
  intro X d' hd'
  have hd' : (x.exec s.db).snd.fleet.find? X = some d' := hd'
  rw [groundedByStatus_exec, groundedByAirworthiness_exec]
  by_cases hx : ∃ dto, x = .fleet (.update X dto)
  case pos =>
    obtain ⟨dto, rfl⟩ := hx
    obtain ⟨d, hd, rfl⟩ := Option.map_eq_some_iff.mp <| find?_update.symm.trans hd'
    rw [operatorSets_update hd, operatorSets_update hd]
    obtain ⟨hs, ha⟩ := h X d hd
    simp only [Drone.update]
    constructor
    case left  => cases dto.status <;> simp_all
    case right => cases dto.airworthy <;> simp_all
  case neg =>
    have hx (dto : UpdateDroneDto) : x ≠ .fleet (.update X dto) := fun he => hx ⟨dto, he⟩
    rw [operatorSets_eq_none hx, operatorSets_eq_none hx, Option.map_none, Option.map_none,
      Option.getD_none, Option.getD_none]
    have hr := x.droneChange s.db X
    rw [hd'] at hr
    generalize hd'' : some d' = r at hr
    cases hr
    case same       => exact h X d' hd''.symm
    case updated he _ => exact absurd he (hx _)
    case tracked d _ hd =>
      obtain rfl := Option.some.inj hd''
      obtain ⟨hs, ha⟩ := h X d hd
      exact ⟨hs, ha⟩
    case claimed d _ hd hc =>
      obtain rfl := Option.some.inj hd''
      exact ⟨fun _ => by simp [Drone.claim], (h X d hd).right⟩
    case released D outcome d hx hd ha =>
      obtain rfl := Option.some.inj hd''
      cases outcome
      case groundForInspection => exact ⟨fun _ => by simp [Drone.release], fun _ => rfl⟩
      case returnToFleet =>
        have hn : ¬groundedByStatus s.world X := st.allowed D hx X ⟨d, hd, ha⟩
        exact ⟨fun hg => absurd hg hn, (h X d hd).right⟩

end

-- If no airframe is returned to the fleet against the decision of an operator, then no airframe that an
-- operator has taken out of service is claimed before the operator puts it back.
theorem grounding_survives {P : Params} {s : Pool Stmt.sig Store Call}
    (h : Reachable (system P) groundingRespected Store.Initial s)
    {newer older : List (Entry Stmt.sig Store Call)} {e : Entry Stmt.sig Store Call} {X : DroneId}
    (hl : s.log = newer ++ e :: older) (hc : Claims e X) :
    ¬groundedByStatus ⟨e.pre, older⟩ X ∧ ¬groundedByAirworthiness ⟨e.pre, older⟩ X := by
  obtain ⟨s₀, st, hw, _⟩ := h.entry (R := fun _ _ => True) (fun _ => trivial) (fun _ _ => trivial)
    (fun _ => trivial) hl
  have hi := st.reachable.invariant (I := fun w => GroundingRecorded w)
    (fun _ _ _ _ => by simp [groundedByStatus, groundedByAirworthiness])
    fun st hi => GroundingRecorded.exec st hi
  rw [hw] at hi
  obtain ⟨d, hd, hs, ha⟩ := claimable_of_claims hc
  obtain ⟨hgs, hga⟩ := hi X d hd
  exact ⟨fun hg => hgs hg hs, fun hg => absurd ((hga hg).symm.trans ha) (by decide)⟩

-- An operator takes the only airframe out of service and puts it back.
def backInServiceRun : List (Cmd Call) :=
  List.flatten [
    Cmd.run 1 (.updateDrone 1 { status := some .maintenance } .committed) 2,
    Cmd.run 2 (.updateDrone 1 { status := some .available } .committed) 2,
    Cmd.run 3 (.create .small) 6]

-- The last statement of the run claims the airframe.
def claimsFirst (e : Entry Stmt.sig Store Call) : Bool :=
  match e.stmt with
  | .fleet (.claim X D payloadKg) =>
    X = 1 ∧ (FleetStmt.execClaim e.pre.fleet X D payloadKg).fst.toOption = some 1
  | _ => false

theorem claims_of_claimsFirst {e : Entry Stmt.sig Store Call} (h : claimsFirst e) : Claims e 1 := by
  unfold claimsFirst at h
  split at h
  case h_2 => contradiction
  case h_1 X D payloadKg hs =>
    obtain ⟨rfl, hc⟩ := of_decide_eq_true h
    refine ⟨D, payloadKg, hs, ?_⟩
    cases he : (FleetStmt.execClaim e.pre.fleet 1 D payloadKg).fst <;> simp_all [Except.toOption]

theorem grounding_survives_restored :
    ∃ s, Reachable (system .small) groundingRespected Store.Initial s ∧ ∃ e older,
      s.log = e :: older ∧ Claims e 1 ∧ ¬groundedByStatus ⟨e.pre, older⟩ 1 := by
  let s := (Pool.init .small).runCmds (system .small) backInServiceRun
  have h : Reachable (system .small) groundingRespected Store.Initial s := by
    have h : Reachable (system .small) unreleased Store.Initial s :=
      (Reachable.init Store.small_initial).runCmds (by decide)
    refine h.mono (fun _ _ => trivial) (fun _ _ _ _ h => ?_) id
    rintro _ rfl
    exact h.elim
  cases hl : s.log
  case nil => exact absurd (congrArg List.length hl) (by decide)
  case cons e older =>
    have hc : s.log.head?.any claimsFirst := by decide
    simp only [hl, List.head?_cons, Option.any_some] at hc
    have hc := claims_of_claimsFirst hc
    have hl' : s.log = [] ++ e :: older := hl
    exact ⟨s, h, e, older, hl, hc, (grounding_survives h hl' hc).left⟩

-- The operator takes the airframe out of service while it is on a mission. The cancellation of the
-- mission puts it back, and the next delivery claims it.
def groundedInFlightRun : List (Cmd Call) :=
  List.flatten [
    Cmd.run 1 (.create .small) 20,
    Cmd.run 2 (.updateDrone 1 { status := some .maintenance } .committed) 2,
    Cmd.run 3 (.cancel 1 1 {}) 20, Cmd.run 4 (.create .small) 6]

theorem grounding_survives_missed :
    ¬∀ (P : Params) (s : Pool Stmt.sig Store Call), Reachable (system P) {} Store.Initial s →
      ∀ newer e older X, s.log = newer ++ e :: older → Claims e X →
        ¬groundedByStatus ⟨e.pre, older⟩ X ∧ ¬groundedByAirworthiness ⟨e.pre, older⟩ X := by
  intro h
  let s := (Pool.init .small).runCmds (system .small) groundedInFlightRun
  have hs : Reachable (system .small) {} Store.Initial s :=
    Reachable.runCmds_of_free groundedInFlightRun <| .init Store.small_initial
  cases hl : s.log
  case nil => exact absurd (congrArg List.length hl) (by decide)
  case cons e older =>
    have hc : s.log.head?.any claimsFirst := by decide
    have hg : (s.log.tail.findSome? (operatorSets (·.status) 1)).any (· ≠ .available) := by decide
    simp only [hl, List.head?_cons, Option.any_some] at hc
    simp only [hl, List.tail_cons] at hg
    exact (h .small s hs [] e older 1 hl <| claims_of_claimsFirst hc).left hg

end Drovery
