import Drovery.Concurrency.Duties
import Drovery.Concurrency.Local
import Drovery.Execution.Theorems.Store
import Drovery.Services.Flight
import Drovery.Services.Theorems.Blocks

namespace Drovery

open Concurrency Method Duties
open DeliveriesService DispatchService SimulationProcessor

-- The ranking only ranks what it is given.
def Params.Ranks (P : Params) : Prop :=
  ∀ ds route payloadKg, ∀ X ∈ P.rankCandidates ds route payloadKg, X ∈ ds.map Prod.fst

theorem Params.flying_ranks (P : Params) : P.flying.Ranks := by
  intro ds route payloadKg X hX
  have ⟨c, hc, he⟩ := List.mem_map.mp hX
  have ⟨drone, hm, hr⟩ := List.mem_filterMap.mp <| (List.mem_insertionSort _).mp hc
  have ⟨(Y, d), hY, hd⟩ := List.mem_map.mp hm
  subst hd
  rw [FlightFeasibility.rankCandidate, Option.ite_none_right_eq_some, Option.some.injEq] at hr
  obtain ⟨_, rfl⟩ := hr
  exact he ▸ List.mem_map_of_mem hY

-- The aircraft is charged and not due for an inspection.
def Store.Fit (db : Store) (X : DroneId) : Prop :=
  ∃ d, db.fleet.find? X = some d ∧ minDispatchBatteryPercent ≤ d.batteryPercent ∧
    ∀ due ∈ d.maintenanceDueAt, db.clock < due

-- A selection is offered the available aircraft, and it goes on until it has claimed one of them.
def offers : Duties Stmt.sig Store DroneId where
  binds db X x    := ∃ payloadKg, x = .fleet (.findAvailable payloadKg) ∧
    X ∈ (FleetStmt.exec db.clock (.findAvailable payloadKg) db.fleet).fst.map Prod.fst
  relieves db _ x := ∀ X D payloadKg, x = .fleet (.claim X D payloadKg) →
    (FleetStmt.execClaim db.fleet X D payloadKg).fst ≠ .ok 0

-- The runs in which no aircraft runs low on its battery or becomes due for an inspection as long as it is
-- offered to a selection.
def fitnessKept : Policy Stmt.sig Store Call where
  step s _ _ x := ∀ t c y X, s.AboutTo t c y → offers.Owes X (s.world.own t) → s.db.Fit X →
    (x.exec s.db).snd.Fit X

section

variable {P : Params} {s : Pool Stmt.sig Store Call} {t : Nat} {c : Call} {x : Stmt} {db : Store}
variable {X : DroneId} {D : DeliveryId} {payloadKg : ℚ} {α : Type} {p : App α}

-- What can take a battery down or advance the time is telemetry, an operator, and the passage of time.
def Stmt.Harmless : Stmt → Bool
  | .fleet (.updateState ..) => false
  | .fleet (.update ..)      => false
  | .effect (.passTime _)    => false
  | _                        => true

theorem Store.Fit.exec (h : db.Fit X) (hx : x.Harmless) : (x.exec db).snd.Fit X := by
  have ⟨d, hd, hb, hm⟩ := h
  have hc : (x.exec db).snd.clock = db.clock := (x.exec_clock db).resolve_left fun ⟨ms, he⟩ =>
    nomatch he ▸ hx
  rw [Store.Fit, hc]
  have hr := x.droneChange db X
  generalize hd' : (x.exec db).snd.fleet.find? X = d' at hr
  cases hr
  case same => exact ⟨d, hd, hb, hm⟩
  case claimed e _ he _ =>
    obtain rfl := Option.some.inj <| he.symm.trans hd
    exact ⟨_, rfl, hb, hm⟩
  case released o e _ he _ =>
    obtain rfl := Option.some.inj <| he.symm.trans hd
    cases o <;> exact ⟨_, rfl, hb, hm⟩
  case tracked he _ => exact nomatch he ▸ hx
  case updated he _ => exact nomatch he ▸ hx

theorem fit_of_mem_findAvailable
    (h : X ∈ (FleetStmt.exec db.clock (.findAvailable payloadKg) db.fleet).fst.map Prod.fst) :
    db.Fit X := by
  have ⟨(Y, d), hm, he⟩ := List.mem_map.mp h
  subst he
  have hm : (Y, d) ∈ db.fleet.findMany fun _ d => d.Dispatchable payloadKg db.clock :=
    (List.mem_insertionSort _).mp <| List.mem_of_mem_take hm
  have ⟨hm, hd⟩ := List.mem_filter.mp hm
  have ⟨_, hb, hm'⟩ := of_decide_eq_true hd
  exact ⟨d, Table.find?_eq_some_iff.mpr hm, hb, hm'⟩

-- Whatever is offered to a selection is fit while the selection goes on.
theorem fit_of_offered (h : Reachable (system P) fitnessKept Store.Initial s) (ha : s.AboutTo t c x)
    (ho : offers.Owes X (s.world.own t)) : s.db.Fit X := by
  refine offers.guards (A := fun _ => True) (I := fun db => db.Fit X) h ?_ ?_ ha trivial ho
  case refine_1 =>
    intro db x ⟨payloadKg, hx, hm⟩
    subst hx
    exact fit_of_mem_findAvailable hm
  case refine_2 =>
    intro s t c x t' c' x' st ha _ ho _ hf
    exact st.allowed t' c' x' X ha ho hf

-- What a claim presupposes is that the aircraft has been offered.
def Offered (x : Stmt) (es : List (Entry Stmt.sig Store Call)) : Prop :=
  ∀ X D payloadKg, x = .fleet (.claim X D payloadKg) → offers.Owes X es

-- The statements that do not claim an aircraft.
def Unclaiming : Stmt → Prop
  | .fleet (.claim ..) => False
  | _                  => True

-- The blocks of which all calls are composed.
inductive Selecting (P : Params) : (α : Type) → App α → Prop
  | tx {α : Type} {x : Stmt} {f : x.Res → Except AppError α} : Unclaiming x → Selecting P α (App.tx x f)
  | select {D route payloadKg} : Selecting P DroneId (selectAndClaim P D route payloadKg)

namespace Selecting

theorem unclaiming_of_onward (h : x.Onward) : Unclaiming x := by
  unfold Unclaiming
  split
  case h_1 => exact h
  case h_2 => trivial

theorem unclaiming_of_plain (h : x.Plain) : Unclaiming x :=
  unclaiming_of_onward h.frugal.onward

theorem unclaiming_of_books (h : x.Books D) : Unclaiming x := by
  unfold Unclaiming
  split
  case h_1 => exact h
  case h_2 => trivial

theorem stmt (h : Unclaiming x) : Built (Selecting P) (App.stmt x) :=
  .block <| .tx h

theorem of_single (hp : Built (Single Unclaiming) p) : Built (Selecting P) p :=
  hp.mono fun | .tx hx => .tx hx

theorem of_plain (hp : Built (Single Stmt.Plain) p) : Built (Selecting P) p :=
  of_single <| Single.mono hp fun _ => unclaiming_of_plain

theorem of_pieces (hp : Built (Piece Stmt.Onward) p) : Built (Selecting P) p :=
  hp.refine fun
    | .tx h          => .block <| .tx <| unclaiming_of_onward h
    | .releasePromo  => of_single <| releaseForDelivery_built trivial fun _ => trivial
    | .refundCredits => of_single <| refundForDelivery_built trivial fun _ _ => trivial
    | .refundCharge  => of_single <| refundChargeToWallet_built trivial fun _ _ => trivial

theorem of_createBlock (hp : Built (CreateBlock D fun _ => False) p) : Built (Selecting P) p :=
  hp.refine fun
    | .tx h          => .block <| .tx <| h.elim unclaiming_of_plain (·.elim unclaiming_of_books False.elim)
    | .releasePromo  => of_single <| releaseForDelivery_built trivial fun _ => trivial
    | .refundCredits => of_single <| refundForDelivery_built trivial fun _ _ => trivial

theorem dispatch {live : Bool} {route : Option MissionRoute} {isScheduled : Bool} :
    Built (Selecting P) (dispatch P live D payloadKg route isScheduled) := by
  unfold DispatchService.dispatch
  split
  case isTrue => exact .pure
  case isFalse =>
    refine .bind ?_ fun _ => .bind (.block .select) fun _ => .pure
    cases route
    case none => exact .throw
    case some => exact .pure

theorem create {inp : CreateInput} : Built (Selecting P) (create P D inp) := by
  refine .bind (of_plain prepare_single) fun _ => .bind dispatch fun _ => ?_
  refine .bind (of_createBlock reserve_blocks) fun _ => ?_
  refine .bind (of_createBlock placeWithRetries_blocks) fun _ => ?_
  refine .bind (of_createBlock charge_blocks) fun _ => of_single <| Single.mono enqueue_single fun _ h => ?_
  obtain h | rfl := h
  case inl => exact unclaiming_of_plain h
  case inr => trivial

theorem abortScheduled {job : KickoffJob} {reason : DeliveryFailureReason} :
    Built (Selecting P) (abortScheduled job reason) :=
  .bind (of_pieces <| Piece.mono failExceptional_pieces fun _ => (·.onward)) fun _ => .pure

theorem handleKickoff {job : KickoffJob} : Built (Selecting P) (handleKickoff P job) := by
  have defer (n : Nat) (h : 0 < n ∧ n < preflightMaxAttempts) :
      Built (Selecting P) (App.stmt <| .effect <| .deferKickoff job.deliveryId n) := stmt trivial
  refine .bind (stmt trivial) fun delivery => ?_
  cases delivery
  case none => exact .pure
  case some =>
    exact kickoff_built (preflight_built defer fun _ => abortScheduled)
      (dispatchKickoff_built dispatch defer fun _ => abortScheduled)
      fun _ => launch_built (fun _ => stmt trivial) (stmt trivial) (stmt trivial) (stmt trivial)

end Selecting

-- Every call is composed of statements that do not claim an aircraft, and of selections.
theorem Call.selecting (P : Params) (t : Nat) (c : Call) :
    ∃ (α : Type) (p : App α), (system P).prog t c = p.toCall ∧ Built (Selecting P) p := by
  by_cases hc : ∃ inp, c = .create inp
  case pos =>
    obtain ⟨inp, rfl⟩ := hc
    exact ⟨_, _, rfl, Selecting.create⟩
  case neg =>
    by_cases hk : ∃ job, c = .handleKickoff job
    case pos =>
      obtain ⟨job, rfl⟩ := hk
      exact ⟨_, _, rfl, Selecting.handleKickoff⟩
    case neg =>
      have ⟨α, p, he, hp⟩ := Call.onward P t (fun inp he => hc ⟨inp, he⟩) fun job he => hk ⟨job, he⟩
      exact ⟨α, p, he, Selecting.of_pieces hp⟩

section Follows

variable {es : List (Entry Stmt.sig Store Call)}

theorem claimFirst_follows {Xs : List DroneId} (h : ∀ X ∈ Xs, offers.Owes X es) :
    (claimFirst D payloadKg Xs).Follows (system P) t c Offered (fun _ _ => True) (fun _ _ => True) es := by
  induction Xs generalizing es
  case nil => trivial
  case cons X Xs ih =>
    rw [claimFirst]
    refine follows_bind.mpr <| follows_tx.mpr ⟨fun Y E p he => ?_, fun db => ?_⟩
    case refine_1 =>
      cases he
      exact h X (.head _)
    case refine_2 =>
      split
      case h_2 => trivial
      case h_1 count hc =>
        split
        case isTrue     => trivial
        case isFalse hn =>
          -- The claim has failed, so that the selection goes on.
          obtain rfl := Nat.eq_zero_of_not_pos hn
          exact ih fun Y hY => .inr ⟨fun hr => hr X D payloadKg rfl hc, h Y (.tail _ hY)⟩

theorem offered_of_unclaiming (h : Unclaiming x) : Offered x es := by
  rintro X D payloadKg rfl
  exact h.elim

theorem follows_of_single (hp : Built (Single Unclaiming) p) :
    p.Follows (system P) t c Offered (fun _ _ => True) (fun _ _ => True) es :=
  Follows.of_built hp fun
    | .tx hx => follows_tx.mpr ⟨offered_of_unclaiming hx, fun db => by split <;> trivial⟩

theorem selectAndClaim_follows {route : MissionRoute} (hP : P.Ranks) :
    (selectAndClaim P D route payloadKg).Follows (system P) t c Offered (fun _ _ => True)
      (fun _ _ => True) es := by
  refine follows_stmt_bind.mpr ⟨offered_of_unclaiming trivial, fun db => ?_⟩
  split
  case h_1 => trivial
  case h_2 =>
    refine follows_stmt_bind.mpr ⟨offered_of_unclaiming trivial, fun db' => ?_⟩
    refine follows_bind.mpr <| (claimFirst_follows fun X hX => ?_).mono (fun claimed es _ => ?_)
      fun _ _ _ => trivial
    case refine_1 =>
      exact .inl ⟨payloadKg, rfl, hP _ _ _ X <| List.mem_of_mem_take hX⟩
    case refine_2 =>
      cases claimed
      case some => trivial
      case none =>
        have hs {n} : Built (Single Unclaiming) (saturationError payloadKg n) :=
          Single.mono saturationError_single fun _ h => Selecting.unclaiming_of_plain h.plain
        exact follows_bind.mpr <| (follows_of_single hs).mono (fun _ _ _ => trivial) fun _ _ _ => trivial

theorem call_follows (hP : P.Ranks) : ((system P).prog t c).Follows (system P) t c Offered
    (fun _ _ => True) [] := by
  have ⟨α, p, he, hp⟩ := Call.selecting P t c
  rw [he]
  exact follows_toCall.mpr <| Follows.of_built hp fun
    | .tx hx  => follows_tx.mpr ⟨offered_of_unclaiming hx, fun db => by split <;> trivial⟩
    | .select => selectAndClaim_follows hP

end Follows

theorem claimable_of_execClaim {n : Nat} (hr : (FleetStmt.execClaim db.fleet X D payloadKg).fst = .ok n)
    (hn : 0 < n) : ∃ d, db.fleet.find? X = some d ∧ d.Claimable payloadKg := by
  by_cases hc : (db.fleet.find? X).any (·.Claimable payloadKg)
  case pos =>
    have ⟨d, hd, hc⟩ := (Option.any_eq_true _ _).mp hc
    exact ⟨d, hd, of_decide_eq_true hc⟩
  case neg =>
    rw [FleetStmt.execClaim, if_neg hc] at hr
    exact absurd (Except.ok.inj hr) hn.ne

-- Every claim that is made is that of an aircraft that can be dispatched at this moment.
theorem claims_dispatchable (hP : P.Ranks) (h : Reachable (system P) fitnessKept Store.Initial s)
    {newer older : List (Entry Stmt.sig Store Call)} {n : Nat}
    (hl : s.log = newer ++ ⟨t, c, .fleet <| .claim X D payloadKg, db⟩ :: older)
    (hr : (FleetStmt.execClaim db.fleet X D payloadKg).fst = .ok n) (hn : 0 < n) :
    ∃ d, db.fleet.find? X = some d ∧ d.Dispatchable payloadKg db.clock := by
  have ⟨s₀, st, hdb, _⟩ := h.before hl
  subst hdb
  have ho : Offered _ (s₀.world.own t) := st.reachable.follows_aboutTo (F := fun _ _ => Offered)
    (Q := fun _ _ _ => True) (fun _ _ _ => call_follows hP) st.aboutTo
  have ⟨d, hd, hb, hm⟩ := fit_of_offered st.reachable st.aboutTo <| ho X D payloadKg rfl
  have ⟨d', hd', hc⟩ := claimable_of_execClaim hr hn
  obtain rfl := Option.some.inj <| hd.symm.trans hd'
  exact ⟨d, hd, hc, hb, hm⟩

theorem Params.small_ranks : Params.small.Ranks :=
  fun _ _ _ _ => id

instance : DecidablePred Stmt.Reads := fun x : Stmt => match x with
  | .fleet x => match x with
    | .findHeld _ | .findAvailable _ | .countCapable _ => .isTrue trivial
    | .claim .. | .release .. | .findActive _ | .updateState .. | .find _ | .update .. => .isFalse id
  | .wallet x => match x with
    | .findBalance _ | .findPendingReferral _ => .isTrue trivial
    | .findSpend _ | .credit .. | .debit .. | .grantReferralReward _ | .refund .. => .isFalse id
  | .promo x => match x with
    | .findByCode _ | .countRedeemed .. => .isTrue trivial
    | .redeem .. | .findRedeemed _ | .release .. | .find _ | .update .. => .isFalse id
  | .effect x => match x with
    | .dateNow => .isTrue trivial
    | .passTime _ | .startSimulation _ | .scheduleKickoff .. | .deferKickoff .. | .stopSimulation _
    | .updateTracking .. | .notify .. | .publishUpdate .. | .appendFrame .. | .createAutoProof _
    | .pushCommand _ => .isFalse id
  | .delivery _ | .command _ | .payment _ | .createDelivery .. | .refundCharge .. => .isFalse id

theorem Stmt.Reads.harmless (h : x.Reads) : x.Harmless := by
  cases x
  case fleet x  => cases x <;> first | rfl | exact h.elim
  case effect x => cases x <;> first | rfl | exact h.elim
  all_goals rfl

-- The statement claims the first airframe for the first delivery.
def claimsSmall : Stmt → Bool
  | .fleet (.claim 1 1 payloadKg) => payloadKg = 1
  | _                             => false

theorem eq_of_claimsSmall (h : claimsSmall x) : x = .fleet (.claim 1 1 1) := by
  unfold claimsSmall at h
  split at h
  case h_1 => rw [of_decide_eq_true h]
  case h_2 => contradiction

theorem aboutTo_of_claimsSmall (h : (s.next? t).any fun p => claimsSmall p.snd) :
    ∃ c, s.AboutTo t c (.fleet <| .claim 1 1 1) := by
  have ⟨(c, x), hn, hx⟩ := (Option.any_eq_true _ _).mp h
  obtain rfl := eq_of_claimsSmall hx
  exact ⟨c, Pool.aboutTo_iff_next?.mpr hn⟩

-- The runs from the small store in which nothing is written.
abbrev readOnly : Policy Stmt.sig Store Call where
  step _ _ _ x := x.Reads

theorem eq_small_of_readOnly (h : Reachable (system P) readOnly (Eq Store.small) s) :
    Store.small = s.db :=
  h.invariant (I := fun w => Store.small = w.db) id fun st he => he.trans (st.allowed.exec _).symm

theorem fitnessKept_of_readOnly (h : Reachable (system P) readOnly (Eq Store.small) s) :
    Reachable (system P) fitnessKept Store.Initial s := by
  have hs : Reachable (system P) fitnessKept (Eq Store.small) s :=
    h.mono (fun _ => id) (fun _ _ _ _ hx _ _ _ _ _ _ hf => hf.exec hx.harmless) id
  exact hs.of_init fun _ he => he ▸ Store.small_initial

theorem claims_dispatchable_small :
    ∃ d, Store.small.fleet.find? 1 = some d ∧ d.Dispatchable 1 Store.small.clock := by
  let s := (Pool.init .small).runCmds (system .small) (Cmd.run 1 (.create .small) 5)
  have reads : readOnly.AdmitsAll (system .small) (.init .small)
      (Cmd.run 1 (.create .small) 5) := by decide +kernel
  have h : Reachable (system .small) readOnly (Eq Store.small) s := (Reachable.init rfl).runCmds reads
  have ⟨c, ha⟩ : ∃ c, s.AboutTo 1 c (.fleet <| .claim 1 1 1) :=
    aboutTo_of_claimsSmall (by decide +kernel)
  have ⟨s', h', hw⟩ := StepOf.next
    ⟨fitnessKept_of_readOnly h, ha, fun _ _ _ _ _ _ hf => hf.exec rfl⟩
  have hl : s'.log = [] ++ ⟨1, c, .fleet <| .claim 1 1 1, s.db⟩ :: s.log := congrArg World.log hw
  rw [← eq_small_of_readOnly h] at hl
  exact claims_dispatchable Params.small_ranks h' hl rfl Nat.one_pos

-- The battery of an aircraft runs low between the selection and the claim.
def drainedRun : List (Cmd Call) :=
  List.flatten [
    Cmd.run 1 (.create .small) 5,
    Cmd.run 2 (.updateDrone 1 { batteryPercent := some 10 } .committed) 2]

-- The airframe that is about to be claimed can no longer be dispatched.
theorem drained_aboutTo :
    ∃ s, Reachable (system .small) {} Store.Initial s ∧
      s.AboutTo 1 (.create .small) (.fleet <| .claim 1 1 1) ∧
      (FleetStmt.execClaim s.db.fleet 1 1 1).fst = .ok 1 ∧
      (s.db.fleet.find? 1).all (·.batteryPercent < minDispatchBatteryPercent) := by
  let s := (Pool.init .small).runCmds (system .small) drainedRun
  have h : Reachable (system .small) {} Store.Initial s :=
    Reachable.runCmds_of_free drainedRun <| .init Store.small_initial
  have ⟨c, ha⟩ : ∃ c, s.AboutTo 1 c (.fleet <| .claim 1 1 1) :=
    aboutTo_of_claimsSmall (by decide +kernel)
  obtain rfl : c = .create .small := by
    have ⟨th, ht, hc, _⟩ := ha
    change ((Pool.init .small).runCmds (system .small)
      (.spawn 1 (.create .small) :: drainedRun.tail)).threads 1 = _ at ht
    exact hc.symm.trans <| Pool.call_of_spawn ht
  have hclaim : (FleetStmt.execClaim s.db.fleet 1 1 1).fst = .ok 1 := by
    rw [FleetStmt.execClaim, if_pos (by decide +kernel), if_neg (by decide +kernel)]
  exact ⟨s, h, ha, hclaim, by decide +kernel⟩

theorem claims_undispatchable_drained :
    ∃ s db older, Reachable (system .small) {} Store.Initial s ∧
      s.log = ⟨1, .create .small, .fleet <| .claim 1 1 1, db⟩ :: older ∧
      (FleetStmt.execClaim db.fleet 1 1 1).fst = .ok 1 ∧
      ¬∃ d, db.fleet.find? 1 = some d ∧ d.Dispatchable 1 db.clock := by
  have ⟨s, h, ha, hclaim, low⟩ := drained_aboutTo
  have ⟨s', h', hw⟩ := StepOf.next ⟨h, ha, trivial⟩
  refine ⟨s', s.db, s.log, h', congrArg World.log hw, hclaim, fun ⟨d, hd, _, hb, _⟩ => ?_⟩
  rw [hd, Option.all_some] at low
  exact absurd hb (of_decide_eq_true low).not_ge

end

end Drovery
