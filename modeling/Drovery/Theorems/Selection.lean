import Mathlib.Data.Prod.Lex
import Drovery.Concurrency.Sequential
import Drovery.Data.Ranking
import Drovery.Execution.System
import Drovery.Services.Flight
import Drovery.Theorems.Ranking

namespace Drovery

open Concurrency Method Ranking
open DispatchService

open FlightFeasibility

namespace FleetStmt

variable {a b : DroneId × Drone}

def candidateKey (r : DroneId × Drone) : ℚ ×ₗ Nat :=
  toLex (r.snd.maxPayloadKg, r.fst)

theorem candidateLE_iff : candidateLE a b ↔ candidateKey a ≤ candidateKey b := by
  rw [candidateLE, candidateKey, candidateKey, Prod.Lex.toLex_le_toLex]

instance : Std.Total candidateLE where
  total _ _ := by simp only [candidateLE_iff]; exact le_total _ _

instance : IsTrans (DroneId × Drone) candidateLE where
  trans _ _ _ := by simp only [candidateLE_iff]; exact le_trans

theorem fst_eq_of_candidateLE (h : candidateLE a b) (h' : candidateLE b a) : a.fst = b.fst := by
  have he := le_antisymm (candidateLE_iff.mp h) (candidateLE_iff.mp h')
  exact congrArg (fun k => (ofLex k).snd) he

end FleetStmt

open FleetStmt

section

variable {db : Store} {D : DeliveryId} {X Y : DroneId} {d e : Drone} {route : MissionRoute} {payloadKg : ℚ}

-- The aircraft as a candidate for a mission.
noncomputable def candidate (route : MissionRoute) (X : DroneId) (d : Drone) : RankedCandidate :=
  ⟨d.toFeasibility X, missionDistanceKm (d.toFeasibility X) route.toFeasibility⟩

-- The aircraft can be sent on the mission.
structure Store.Eligible (db : Store) (route : MissionRoute) (payloadKg : ℚ) (X : DroneId) (d : Drone) :
    Prop where
  row          : db.fleet.find? X = some d
  dispatchable : d.Dispatchable payloadKg db.clock
  feasible     : (assessFeasibility (d.toFeasibility X) route.toFeasibility payloadKg).feasible

-- Of all aircraft that can be sent on the mission it is the one to be sent.
structure Store.Best (db : Store) (route : MissionRoute) (payloadKg : ℚ) (X : DroneId) (d : Drone) :
    Prop where
  eligible : db.Eligible route payloadKg X d
  least    : ∀ Y e, db.Eligible route payloadKg Y e → rankLE (candidate route X d) (candidate route Y e)

-- The number of aircraft that come before `X` among those that the database offers for the payload.
def Store.ahead (db : Store) (payloadKg : ℚ) (X : DroneId) (d : Drone) : Nat :=
  db.fleet.count fun Y e => e.Dispatchable payloadKg db.clock ∧ Strictly candidateLE (Y, e) (X, d)

-- The best aircraft has been claimed, or there is none.
def Selects (db : Store) (D : DeliveryId) (route : MissionRoute) (payloadKg : ℚ) :
    Except AppError DroneId × Store → Prop
  | (.ok X, db')   => (∃ d, db.Best route payloadKg X d) ∧ db'.fleet.Claims X D
  | (.error _, _)  => ∀ X d, ¬db.Eligible route payloadKg X d

theorem Store.Eligible.unique (h : db.Eligible route payloadKg X d) (h' : db.Eligible route payloadKg X e) :
    d = e :=
  Option.some.inj <| h.row.symm.trans h'.row

theorem Store.Best.unique (h : db.Best route payloadKg X d) (h' : db.Best route payloadKg Y e) : X = Y :=
  id_eq_of_rankLE (h.least Y e h'.eligible) (h'.least X d h.eligible)

theorem Store.exists_best (h : db.Eligible route payloadKg X d) : ∃ Y e, db.Best route payloadKg Y e := by
  classical
  let rows := db.fleet.rows.filter fun r => db.Eligible route payloadKg r.fst r.snd
  have hm {Y e} : (Y, e) ∈ rows ↔ db.Eligible route payloadKg Y e := by
    refine List.mem_filter.trans <| Iff.trans (and_congr_right' decide_eq_true_iff) ?_
    exact and_iff_right_of_imp fun h => Table.find?_eq_some_iff.mp h.row
  have hne : rows.map (fun r => candidate route r.fst r.snd) ≠ [] :=
    List.ne_nil_of_mem <| List.mem_map_of_mem <| hm.mpr h
  have ⟨_, ha, hl⟩ := exists_least (r := rankLE) hne
  have ⟨(Y, e), hr, he⟩ := List.mem_map.mp ha
  subst he
  exact ⟨Y, e, hm.mp hr, fun Z f hf => hl _ <| List.mem_map_of_mem <| hm.mpr hf⟩

-- What the database offers.
theorem mem_findAvailable :
    (X, d) ∈ (FleetStmt.exec db.clock (.findAvailable payloadKg) db.fleet).fst ↔
      db.fleet.find? X = some d ∧ d.Dispatchable payloadKg db.clock ∧
        db.ahead payloadKg X d < candidateLimit := by
  let rows := db.fleet.findMany fun _ d => d.Dispatchable payloadKg db.clock
  have hp : (rows.insertionSort candidateLE).Perm rows := List.perm_insertionSort _ _
  have hn : (rows.insertionSort candidateLE).Nodup :=
    hp.nodup_iff.mpr <| (List.Nodup.of_map _ db.fleet.nodup).filter _
  have hs : (rows.insertionSort candidateLE).Pairwise (Strictly candidateLE) := by
    refine pairwise_strictly (List.pairwise_insertionSort _ _) hn fun a ha b hb h h' => ?_
    have ha := Table.find?_eq_some_iff.mpr (List.mem_filter.mp <| hp.mem_iff.mp ha).left
    have hb := Table.find?_eq_some_iff.mpr (List.mem_filter.mp <| hp.mem_iff.mp hb).left
    have he := fst_eq_of_candidateLE h h'
    rw [← he, ha, Option.some.injEq] at hb
    exact Prod.ext he hb
  have hc : (rows.insertionSort candidateLE).countP (Strictly candidateLE · (X, d)) =
      db.ahead payloadKg X d := by
    rw [hp.countP_eq, Store.ahead, Table.count]
    refine List.countP_filter.trans <| List.countP_congr fun r _ => ?_
    simp [and_comm]
  change (X, d) ∈ (rows.insertionSort candidateLE).take candidateLimit ↔ _
  rw [mem_take_iff hs, hc, hp.mem_iff, Table.find?_eq_some_iff, and_assoc.symm]
  exact and_congr_left' <| List.mem_filter.trans <| and_congr_right fun _ => decide_eq_true_iff

-- The aircraft that the database offers and that can fly the mission.
def Store.Offered (db : Store) (route : MissionRoute) (payloadKg : ℚ) (X : DroneId) (d : Drone) : Prop :=
  db.Eligible route payloadKg X d ∧ db.ahead payloadKg X d < candidateLimit

theorem mem_rankCandidate {c : RankedCandidate} :
    c ∈ ((FleetStmt.exec db.clock (.findAvailable payloadKg) db.fleet).fst.map
        fun (X, d) => d.toFeasibility X).filterMap (rankCandidate route.toFeasibility payloadKg) ↔
      ∃ X d, db.Offered route payloadKg X d ∧ candidate route X d = c := by
  rw [List.filterMap_map, List.mem_filterMap, Prod.exists]
  refine exists_congr fun X => exists_congr fun d => ?_
  rw [mem_findAvailable, Function.comp_apply, rankCandidate, assessFeasibility_missionKm,
    Option.ite_none_right_eq_some, Option.some.injEq]
  constructor
  case mp =>
    rintro ⟨⟨hr, hd, ha⟩, hf, hc⟩
    exact ⟨⟨⟨hr, hd, hf⟩, ha⟩, hc⟩
  case mpr =>
    rintro ⟨⟨h, ha⟩, hc⟩
    exact ⟨⟨h.row, h.dispatchable, ha⟩, h.feasible, hc⟩

-- What the ranking makes of the fleet.
theorem rankCandidates_cases (P : Params) (db : Store) (route : MissionRoute) (payloadKg : ℚ) :
    let ranked := P.flying.rankCandidates (FleetStmt.exec db.clock (.findAvailable payloadKg) db.fleet).fst
      route payloadKg
    ranked = [] ∧ (∀ X d, ¬db.Offered route payloadKg X d) ∨
      ∃ X d Xs, ranked = X :: Xs ∧ db.Offered route payloadKg X d ∧
        ∀ Y e, db.Offered route payloadKg Y e → rankLE (candidate route X d) (candidate route Y e) := by
  let cs := ((FleetStmt.exec db.clock (.findAvailable payloadKg) db.fleet).fst.map
    fun (X, d) => d.toFeasibility X).filterMap (rankCandidate route.toFeasibility payloadKg)
  change (cs.insertionSort rankLE).map (·.drone.id) = [] ∧ _ ∨
    ∃ X d Xs, (cs.insertionSort rankLE).map (·.drone.id) = X :: Xs ∧ _
  cases hs : cs.insertionSort rankLE
  case nil =>
    refine .inl ⟨rfl, fun X d h => ?_⟩
    have hm : candidate route X d ∈ cs.insertionSort rankLE :=
      (List.mem_insertionSort _).mpr <| mem_rankCandidate.mpr ⟨X, d, h, rfl⟩
    rw [hs] at hm
    contradiction
  case cons c _ =>
    have ⟨hm, hl⟩ := least_of_insertionSort hs
    have ⟨X, d, ho, hc⟩ := mem_rankCandidate.mp hm
    subst hc
    exact .inr ⟨X, d, _, rfl, ho, fun Y e h => hl _ <| mem_rankCandidate.mpr ⟨Y, e, h, rfl⟩⟩

theorem findHeld_eq_none (hn : ∀ Y, ¬db.fleet.Claims Y D) :
    (FleetStmt.exec db.clock (.findHeld D) db.fleet).fst = none :=
  Option.eq_none_iff_forall_ne_some.mpr fun Y h => hn Y <| Fleet.claims_of_findHeld h

theorem execClaim_of_claimable (hn : ∀ Y, ¬db.fleet.Claims Y D) (hd : db.fleet.find? X = some d)
    (hc : d.Claimable payloadKg) :
    FleetStmt.execClaim db.fleet X D payloadKg = (.ok 1, db.fleet.modify X (·.claim D)) := by
  have hz : db.fleet.count (fun _ d => FleetStmt.holds D d) = 0 :=
    Table.count_eq_zero_iff.mpr fun Y e he => decide_eq_false fun ha => hn Y ⟨e, he, ha⟩
  rw [FleetStmt.execClaim, if_pos (by simp [hd, hc]), hz]
  rfl

section

variable {P : Params} {Xs : List DroneId}

theorem eval_selectAndClaim_ranked (hn : ∀ Y, ¬db.fleet.Claims Y D) {ranked : List DroneId}
    (hr : P.rankCandidates (FleetStmt.exec db.clock (.findAvailable payloadKg) db.fleet).fst route
      payloadKg = ranked) :
    eval Stmt.exec (selectAndClaim P D route payloadKg) db =
      eval Stmt.exec (do
        match ← claimFirst D payloadKg (ranked.take maxClaimAttempts) with
        | some X => pure X
        | none   => throw (← saturationError payloadKg ranked.length)) db := by
  subst hr
  rw [selectAndClaim, eval_stmt_bind]
  simp only [Stmt.exec, findHeld_eq_none hn]
  rfl

-- A delivery that holds no aircraft claims the first of the ranked ones, which no one else can take.
theorem eval_selectAndClaim_of_cons (hn : ∀ Y, ¬db.fleet.Claims Y D) (hd : db.fleet.find? X = some d)
    (hc : d.Claimable payloadKg)
    (hr : P.rankCandidates (FleetStmt.exec db.clock (.findAvailable payloadKg) db.fleet).fst route
      payloadKg = X :: Xs) :
    eval Stmt.exec (selectAndClaim P D route payloadKg) db =
      (.ok X, { db with fleet := db.fleet.modify X (·.claim D) }) := by
  have claim : eval Stmt.exec (claimFirst D payloadKg ((X :: Xs).take maxClaimAttempts)) db =
      (.ok (some X), { db with fleet := db.fleet.modify X (·.claim D) }) := by
    have hx := execClaim_of_claimable hn hd hc
    change eval Stmt.exec (claimFirst D payloadKg (X :: Xs.take 7)) db = _
    rw [claimFirst, eval_bind, eval_tx]
    simp only [Stmt.exec, FleetStmt.exec, hx, id_eq]
    rfl
  rw [eval_selectAndClaim_ranked hn hr, eval_bind_of_ok claim]
  rfl

theorem eval_selectAndClaim_of_nil (hn : ∀ Y, ¬db.fleet.Claims Y D)
    (hr : P.rankCandidates (FleetStmt.exec db.clock (.findAvailable payloadKg) db.fleet).fst route
      payloadKg = []) :
    ∃ e db', eval Stmt.exec (selectAndClaim P D route payloadKg) db = (.error e, db') := by
  rw [eval_selectAndClaim_ranked hn hr]
  change ∃ e db', eval Stmt.exec (saturationError payloadKg 0 >>= fun e => throw e) db = (.error e, db')
  rw [eval_bind]
  generalize eval Stmt.exec (saturationError payloadKg 0) db = r
  obtain ⟨r, db'⟩ := r
  cases r <;> exact ⟨_, db', rfl⟩

end

-- The best aircraft is only selected if the database offers it.
theorem Selects.ahead_lt {P : Params} (hn : ∀ Y, ¬db.fleet.Claims Y D)
    (h : Selects db D route payloadKg
      (eval Stmt.exec (selectAndClaim P.flying D route payloadKg) db))
    (hb : db.Best route payloadKg X d) : db.ahead payloadKg X d < candidateLimit := by
  obtain ⟨hr, _⟩ | ⟨Y, e, _, hr, ho, _⟩ := rankCandidates_cases P db route payloadKg
  case inl =>
    have ⟨_, _, he⟩ := eval_selectAndClaim_of_nil hn hr
    rw [he] at h
    exact absurd hb.eligible (h X d)
  case inr =>
    rw [eval_selectAndClaim_of_cons hn ho.left.row ho.left.dispatchable.left hr] at h
    have ⟨⟨_, hy⟩, _⟩ := h
    obtain rfl := hy.unique hb
    exact ho.left.unique hb.eligible ▸ ho.right

theorem selects_of_ahead_lt {P : Params} (hn : ∀ Y, ¬db.fleet.Claims Y D)
    (h : ∀ X d, db.Best route payloadKg X d → db.ahead payloadKg X d < candidateLimit) :
    Selects db D route payloadKg
      (eval Stmt.exec (selectAndClaim P.flying D route payloadKg) db) := by
  obtain ⟨hr, hn'⟩ | ⟨X, d, _, hr, ho, hl⟩ := rankCandidates_cases P db route payloadKg
  case inl =>
    have ⟨_, _, he⟩ := eval_selectAndClaim_of_nil hn hr
    rw [he]
    intro X d hx
    have ⟨Y, e, hb⟩ := Store.exists_best hx
    exact hn' Y e ⟨hb.eligible, h Y e hb⟩
  case inr =>
    have hd := ho.left.row
    rw [eval_selectAndClaim_of_cons hn hd ho.left.dispatchable.left hr]
    -- It is the best of those offered, and the best of all is offered.
    have ⟨Y, e, hb⟩ := Store.exists_best ho.left
    have hle := hl Y e ⟨hb.eligible, h Y e hb⟩
    refine ⟨⟨d, ho.left, fun Z f hz => ?_⟩, d.claim D, Table.find?_modify_of_some hd, rfl⟩
    exact IsTrans.trans _ _ _ hle <| hb.least Z f hz

-- Dispatch selects the best aircraft if and only if the database does not leave it out.
theorem selects_iff_ahead_lt (P : Params) (hn : ∀ Y, ¬db.fleet.Claims Y D) :
    Selects db D route payloadKg
        (eval Stmt.exec (selectAndClaim P.flying D route payloadKg) db) ↔
      ∀ X d, db.Best route payloadKg X d → db.ahead payloadKg X d < candidateLimit :=
  ⟨fun h _ _ => h.ahead_lt hn, selects_of_ahead_lt hn⟩

-- A light aircraft that does not get far, and a heavy one that does.
def Drone.near : Drone :=
  { Drone.small with rangeKm := 1 }

def Drone.far : Drone :=
  { Drone.small with maxPayloadKg := 6, rangeKm := 1000 }

-- There are `n` light aircraft and a heavy one.
def Store.crowded (n : Nat) : Store :=
  { Store.small with
    fleet := {
      rows  := (List.range n).map (fun X => (X, Drone.near)) ++ [(n, Drone.far)]
      nodup := by
        rw [List.map_append, List.map_map]
        simp only [Function.comp_def, List.map_id_fun', id, List.map_cons, List.map_nil,
          ← List.range_succ]
        exact List.nodup_range } }

theorem Store.crowded_find? (h : (crowded n).fleet.find? X = some d) : d = .near ∨ X = n ∧ d = .far := by
  obtain hm | hm := List.mem_append.mp <| Table.find?_eq_some_iff.mp h
  case inl =>
    have ⟨_, _, he⟩ := List.mem_map.mp hm
    exact .inl (Prod.mk.inj he).right.symm
  case inr => exact .inr <| Prod.mk.inj <| List.mem_singleton.mp hm

theorem Store.crowded_unclaimed (Y : DroneId) : ¬(crowded n).fleet.Claims Y D := by
  intro ⟨e, he, ha⟩
  obtain rfl | ⟨_, rfl⟩ := crowded_find? he <;> contradiction

theorem Store.crowded_feasible :
    ¬(assessFeasibility (Drone.near.toFeasibility X) (MissionRoute.toFeasibility ⟨0, 0, 0, 1⟩)
        (1 : ℚ)).feasible ∧
      (assessFeasibility (Drone.far.toFeasibility X) (MissionRoute.toFeasibility ⟨0, 0, 0, 1⟩)
        (1 : ℚ)).feasible := by
  have hp := Real.pi_gt_d2
  have hp' := Real.pi_lt_d2
  have hr : MissionRoute.toFeasibility ⟨0, 0, 0, 1⟩ = ⟨0, 0, 0, 1⟩ := by simp [MissionRoute.toFeasibility]
  rw [hr, Rat.cast_one]
  constructor
  case left =>
    intro h
    have ⟨_, _, hm⟩ := assessFeasibility_feasible.mp h
    rw [missionDistanceKm_equator (by simp [Drone.toFeasibility, Drone.near, Drone.small])
      (by simp [Drone.toFeasibility, Drone.near, Drone.small]) ⟨rfl, rfl⟩] at hm
    norm_num [usableRangeKm, Drone.toFeasibility, Drone.near, Drone.small, payloadRangePenalty,
      rangeReserveFraction] at hm
    linarith
  case right =>
    refine assessFeasibility_feasible.mpr ⟨?_, ?_, ?_⟩
    case refine_1 => norm_num [Drone.toFeasibility, Drone.far]
    case refine_2 => norm_num [Drone.toFeasibility, Drone.far, Drone.small, minDispatchBatteryPercent]
    case refine_3 =>
      rw [missionDistanceKm_equator (by simp [Drone.toFeasibility, Drone.far, Drone.small])
        (by simp [Drone.toFeasibility, Drone.far, Drone.small]) ⟨rfl, rfl⟩]
      norm_num [usableRangeKm, Drone.toFeasibility, Drone.far, Drone.small, payloadRangePenalty,
        rangeReserveFraction]
      linarith

-- The package can only be delivered by the heavy aircraft.
theorem Store.crowded_eligible (h : (crowded n).Eligible ⟨0, 0, 0, 1⟩ 1 X d) : X = n ∧ d = .far := by
  obtain rfl | h' := crowded_find? h.row
  case inl => exact absurd h.feasible crowded_feasible.left
  case inr => exact h'

-- It is offered if there are 49 others, all of which come before it.
theorem selects_iff_ahead_lt_crowded : Selects (.crowded 49) 1 ⟨0, 0, 0, 1⟩ 1
    (eval Stmt.exec (selectAndClaim (.flying .small) 1 ⟨0, 0, 0, 1⟩ 1) (.crowded 49)) := by
  have hn (Y : DroneId) : ¬(Store.crowded 49).fleet.Claims Y 1 := Store.crowded_unclaimed Y
  have ha X d (hb : (Store.crowded 49).Best ⟨0, 0, 0, 1⟩ 1 X d) :
      (Store.crowded 49).ahead 1 X d < candidateLimit := by
    have ha : (Store.crowded 49).ahead 1 49 .far = 49 := by decide +kernel
    obtain ⟨rfl, rfl⟩ := Store.crowded_eligible hb.eligible
    exact ha.trans_lt <| by decide
  revert hn ha
  generalize Store.crowded 49 = db
  exact fun hn ha => (selects_iff_ahead_lt .small hn).mpr ha

-- If there is one more then the package is refused.
theorem not_selects_crowded : (∀ Y, ¬(Store.crowded 50).fleet.Claims Y 1) ∧
    ¬Selects (.crowded 50) 1 ⟨0, 0, 0, 1⟩ 1
      (eval Stmt.exec (selectAndClaim (.flying .small) 1 ⟨0, 0, 0, 1⟩ 1) (.crowded 50)) := by
  have hb : (Store.crowded 50).Best ⟨0, 0, 0, 1⟩ 1 50 .far := {
    eligible := {
      row          := Table.find?_eq_some_iff.mpr <| List.mem_append_right _ <| List.mem_singleton_self _
      dispatchable := by decide +kernel
      feasible     := Store.crowded_feasible.right
    }
    least := by
      intro Y e he
      obtain ⟨rfl, rfl⟩ := Store.crowded_eligible he
      exact rankLE_iff.mpr le_rfl
  }
  have ha : (Store.crowded 50).ahead 1 50 .far = 50 := by decide +kernel
  exact ⟨Store.crowded_unclaimed, fun h => (h.ahead_lt Store.crowded_unclaimed hb).ne ha⟩

end

end Drovery
