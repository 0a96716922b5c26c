import Mathlib.Data.List.Dedup
import Drovery.Concurrency.Local
import Drovery.Theorems.Fleet

namespace Drovery.Preflight

open Concurrency
open SimulationProcessor DeliveriesService

-- The id of a job that has been put off.
def deferKickoffId (D : DeliveryId) (attempt : Nat) : String :=
  s!"{D}-kickoff-r{attempt}"

-- The id of the job that an entry enqueues for the delivery `D` when it puts off its launch (if it
-- does so).
def deferredId (D : DeliveryId) (e : Entry Stmt.sig Store Call) : Option String :=
  match e.stmt with
  | .effect (.deferKickoff E attempt) => if E = D then some (deferKickoffId D attempt) else none
  | _                                 => none

-- The thread has run the given job, and has not failed.
def HasRun (P : Params) (s : Pool Stmt.sig Store Call) (t : Nat) (job : KickoffJob) : Prop :=
  (handleKickoff P job).run.Runs (system P) t (.handleKickoff job) [] (.ok ()) (s.world.own t)

-- The launch of a delivery is put off at most a certain number of times, after which it is either
-- launched or has been given up.
structure HoldsBounded (P : Params) (s : Pool Stmt.sig Store Call) : Prop where
  attempts : ∀ {e D attempt}, e ∈ s.log → e.stmt = .effect (.deferKickoff D attempt) →
    attempt ≤ preflightMaxAttempts - 1
  distinct : ∀ {D}, (s.log.filterMap (deferredId D)).dedup.length ≤ preflightMaxAttempts - 1
  last     : ∀ {t job}, job.preflightAttempt = preflightMaxAttempts - 1 → HasRun P s t job →
    s.db.status job.deliveryId ≠ some .scheduled

-- The jobs of a kickoff are about a delivery that exists.
def kickoffsExist : Policy Stmt.sig Store Call where
  step s _ c _ := match c with
    | .handleKickoff job => (s.db.deliveries.find? job.deliveryId).isSome
    | _                  => True

section

variable {P : Params} {s : Pool Stmt.sig Store Call} {t : Nat} {c : Call} {x : Stmt}
variable {D : DeliveryId} {tr : Transition} {status : DeliveryStatus}

-- A statement does not put off a launch more often than the budget allows.
def Patient (x : Stmt) : Prop :=
  ∀ D attempt, x = .effect (.deferKickoff D attempt) → 0 < attempt ∧ attempt < preflightMaxAttempts

theorem patient_of_plain (h : x.Plain) : Patient x := by
  intro D attempt hx
  subst hx
  exact h

theorem patient_of_forward (h : x.Forward) : Patient x := by
  intro D attempt hx
  subst hx
  exact h

theorem follows_patient (t : Nat) (c : Call) :
    ((system P).prog t c).Follows (system P) t c (fun x _ => Patient x) (fun _ _ => True) [] := by
  have single {α : Type} {p : App α} (hp : Method.Built (Single fun x => x.Plain ∨ Patient x) p)
      {es : List (Entry Stmt.sig Store Call)} :
      p.Follows (system P) t c (fun x _ => Patient x) (fun _ _ => True) (fun _ _ => True) es := by
    refine .of_built hp fun hb => ?_
    have ⟨hx⟩ := hb
    exact Method.follows_tx.mpr ⟨hx.elim patient_of_plain id, fun _ => by split <;> trivial⟩
  have ⟨α, p, he, hp⟩ := Call.pieces P t c
  rw [he]
  refine Method.follows_toCall.mpr <| .of_built hp fun hb => ?_
  cases hb
  case tx hx _       => exact single <| .block <| .tx <| .inr <| patient_of_forward hx
  case releasePromo  => exact single <| releaseForDelivery_single fun _ => nofun
  case refundCredits => exact single <| refundForDelivery_single fun _ _ => nofun
  case refundCharge  => exact single <| refundChargeToWallet_single fun _ _ => nofun

theorem target_ne_scheduled (h : tr.source status) : tr.target ≠ .scheduled := by
  cases tr
  case advance target =>
    intro ht
    have ht : target = .scheduled := ht
    subst ht
    have h : status ∈ DeliveryStatus.statusesBefore .scheduled := of_decide_eq_true h
    exact List.not_mem_nil h
  all_goals nofun

-- Once a delivery is no longer scheduled, it will never be scheduled again.
theorem launched_exec {db : Store} (h : ∃ d, db.deliveries.find? D = some d ∧ d.status ≠ .scheduled) :
    ∃ d, (x.exec db).snd.deliveries.find? D = some d ∧ d.status ≠ .scheduled := by
  have ⟨d, hd, hs⟩ := h
  have := x.rowChange db D
  generalize (x.exec db).snd.deliveries.find? D = d' at this ⊢
  cases this
  case same              => exact ⟨d, hd, hs⟩
  case created hn _      => exact nomatch hn.symm.trans hd
  case moved d' _ hd' ht =>
    exact ⟨_, rfl, fun he => target_ne_scheduled ht <| Transition.apply_status.symm.trans he⟩
  case guessed hd' _     =>
    cases hd'.symm.trans hd
    exact ⟨_, rfl, hs⟩

-- Either before or after the entry, the delivery is not scheduled.
def Settles (P : Params) (D : DeliveryId) (e : Entry Stmt.sig Store Call) : Prop :=
  e.pre.status D ≠ some .scheduled ∨ (e.post (system P)).status D ≠ some .scheduled

-- A write to a delivery that is conditional on its being scheduled, among others.
theorem settles_of_transition {db : Store} {o : Option CommandId} (hs : tr.source .scheduled) :
    Settles P D ⟨t, c, .delivery (.transition o D tr), db⟩ := by
  by_cases h : db.status D = some .scheduled
  case neg => exact .inl h
  case pos =>
    have ⟨d, hd, hd'⟩ := Option.map_eq_some_iff.mp h
    refine .inr fun he => target_ne_scheduled hs ?_
    have cas := @Table.cas_of_guard _ _ _ _ _ _ (tr.source ·.status) (tr.apply db.clock) hd
      (hd' ▸ hs)
    have moved : ((Stmt.delivery (.transition o D tr)).exec db).snd.deliveries.find? D =
        some (tr.apply db.clock d) := by
      simp only [Stmt.exec, DeliveryStmt.exec, cas]
      exact Table.find?_modify_of_some hd
    have he := Option.some.inj <| (congrArg (Option.map _) moved).symm.trans he
    exact Transition.apply_status.symm.trans he

abbrev Settled (P : Params) (D : DeliveryId) (es : List (Entry Stmt.sig Store Call)) : Prop :=
  ∃ e ∈ es, Settles P D e

section

variable {es : List (Entry Stmt.sig Store Call)} {job : KickoffJob} {α : Type} {p : App α}

-- Whatever else a thread does, it is settled that the delivery is no longer scheduled.
theorem follows_settled (h : Settled P D es) : p.Follows (system P) t c (fun _ _ => True)
    (fun _ => Settled P D) (fun _ _ => True) es := by
  have ⟨e, he, hs⟩ := h
  exact Method.follows_suffix.mono (fun _ _ hx => ⟨e, hx.subset he, hs⟩) fun _ _ _ => trivial

theorem follows_abort {reason : DeliveryFailureReason} :
    (abortScheduled job reason).Follows (system P) t c (fun _ _ => True)
      (fun _ => Settled P job.deliveryId) (fun _ _ => True) es := by
  refine Method.follows_bind.mpr ?_
  unfold failExceptional
  -- All that is allowed to fail here is on the ground.
  have grounded : [DeliveryStatus.scheduled].filter (· ∉ DeliveryStatus.failableStatuses) =
    [.scheduled] := rfl
  have write : failFrom none job.deliveryId [.scheduled] reason = App.stmt (.delivery <|
    .transition none job.deliveryId <| .fail [.scheduled] reason) := if_neg nofun
  dsimp only
  rw [grounded, write]
  refine Method.follows_bind.mpr <| Method.follows_tx.mpr ⟨trivial, fun db => ?_⟩
  have settled : Settled P job.deliveryId (⟨t, c, .delivery <| .transition none job.deliveryId <|
      .fail [.scheduled] reason, db⟩ :: es) :=
    ⟨_, List.mem_cons_self, settles_of_transition rfl⟩
  exact (follows_settled settled).mono (fun _ _ => id) fun _ _ _ => trivial

theorem follows_preflight {route : Option MissionRoute}
    (hj : holdExhausted job.preflightAttempt preflightMaxAttempts) :
    (preflight job route).Follows (system P) t c (fun _ _ => True)
      (fun cleared es => cleared = false → Settled P job.deliveryId es) (fun _ _ => True) es := by
  unfold preflight
  split
  case h_1 => exact nofun
  case h_2 =>
    dsimp only
    split
    case isTrue  => exact nofun
    case isFalse =>
      rw [if_neg fun h => by simp [hj] at h]
      exact Method.follows_bind.mpr <| follows_abort.mono (fun _ _ h _ => h) fun _ _ => id

theorem follows_dispatchKickoff {delivery : Delivery}
    (hj : holdExhausted job.preflightAttempt preflightMaxAttempts) :
    (dispatchKickoff P job delivery).Follows (system P) t c (fun _ _ => True)
      (fun dispatched es => dispatched = none → Settled P job.deliveryId es) (fun _ _ => True) es := by
  refine Method.follows_handle.mpr <| Method.follows_bind.mpr <| Method.follows_true.mono
    (fun _ _ _ => nofun) fun e es _ => Method.follows_bind.mpr ?_
  unfold handleDispatchRefusal
  rw [if_neg fun h => by simp [hj] at h]
  exact follows_abort.mono (fun _ _ h _ => h) fun _ _ => id

theorem follows_launch {droneId : Option DroneId} :
    (launch job droneId).Follows (system P) t c (fun _ _ => True)
      (fun _ => Settled P job.deliveryId) (fun _ _ => True) es := by
  refine Method.follows_bind.mpr <| Method.follows_true.mono (fun _ es _ => ?_) fun _ _ => id
  refine Method.follows_bind.mpr <| Method.follows_handle.mpr ?_
  have failed {e : AppError} {es : List (Entry Stmt.sig Store Call)} {Q : Nat → _ → Prop} :
      Method.Follows (system P) t c (fun _ _ => True) Q (fun _ _ => True)
        (do recoverLaunch job droneId; throw e : App Nat) es :=
    Method.follows_bind.mpr <| Method.follows_true.mono (fun _ _ _ => trivial) fun _ _ => id
  cases job.faults.launch
  case committed =>
    refine Method.follows_tx.mpr ⟨trivial, fun db => ?_⟩
    exact follows_settled ⟨_, List.mem_cons_self, settles_of_transition rfl⟩
  case rolledBack => exact failed
  case lost       =>
    exact Method.follows_bind.mpr <| Method.follows_tx.mpr ⟨trivial, fun _ => failed⟩

theorem follows_handleKickoff (hj : holdExhausted job.preflightAttempt preflightMaxAttempts) :
    (handleKickoff P job).Follows (system P) t c (fun _ _ => True)
      (fun _ => Settled P job.deliveryId) (fun _ _ => True) es := by
  refine Method.follows_stmt_bind.mpr ⟨trivial, fun db => ?_⟩
  split
  case h_1 hn =>
    exact ⟨_, List.mem_cons_self, .inl fun h => nomatch (congrArg (Option.map _) hn).symm.trans h⟩
  case h_2 d hd =>
    unfold kickoff
    split
    case isTrue hs =>
      have status := congrArg (Option.map Delivery.status) hd
      exact ⟨_, List.mem_cons_self, .inl fun h => hs <| Option.some.inj <| status.symm.trans h⟩
    case isFalse =>
      refine Method.follows_bind.mpr <| (follows_preflight hj).mono (fun cleared es h => ?_)
        fun _ _ => id
      split
      case isFalse hc => exact h <| Bool.eq_false_of_not_eq_true hc
      case isTrue     =>
        refine Method.follows_bind.mpr <| (follows_dispatchKickoff hj).mono
          (fun dispatched es h => ?_) fun _ _ => id
        cases dispatched
        case none => exact h rfl
        case some => exact follows_launch

end

variable {pol : Policy Stmt.sig Store Call} {init : Store → Prop}

theorem patient (h : Reachable (system P) pol init s) {e : Entry Stmt.sig Store Call}
    (he : e ∈ s.log) : Patient e.stmt := by
  have ⟨newer, older, hl⟩ := List.append_of_mem he
  exact h.follows_entry (fun t c _ => follows_patient t c) hl

-- There are only so many ids for the jobs that are put off.
theorem deferredId_mem (h : ∀ e ∈ s.log, Patient e.stmt) :
    s.log.filterMap (deferredId D) ⊆ (List.range' 1 (preflightMaxAttempts - 1)).map (deferKickoffId D) := by
  intro id hid
  have ⟨e, he, hi⟩ := List.mem_filterMap.mp hid
  unfold deferredId at hi
  split at hi
  case h_2 => contradiction
  case h_1 E attempt hx =>
    have ⟨hE, hi⟩ := Option.ite_none_right_eq_some.mp hi
    have bounds := h e he E attempt hx
    refine List.mem_map.mpr ⟨attempt, List.mem_range'_1.mpr ?_, Option.some.inj hi⟩
    omega

theorem launched_of_settled (h : Reachable (system P) kickoffsExist init s) {job : KickoffJob}
    {e : Entry Stmt.sig Store Call} (he : e ∈ s.log) (hc : e.call = .handleKickoff job)
    (hs : Settles P job.deliveryId e) : s.db.status job.deliveryId ≠ some .scheduled := by
  have ⟨s₀, st, hpre⟩ := h.stepOf he
  have exists₀ : (e.pre.deliveries.find? job.deliveryId).isSome := by
    have allowed := st.allowed
    rw [hc] at allowed
    exact hpre ▸ allowed
  have launched : ∃ d, (e.post (system P)).deliveries.find? job.deliveryId = some d ∧
      d.status ≠ .scheduled := by
    cases hs
    case inl hs =>
      have ⟨d, hd⟩ := Option.isSome_iff_exists.mp exists₀
      exact launched_exec ⟨d, hd, fun hd' => hs <| (congrArg (Option.map _) hd).trans <| by rw [← hd']; rfl⟩
    case inr hs =>
      have ⟨d, hd⟩ := Option.isSome_iff_exists.mp <| Stmt.exec_isSome (x := e.stmt) exists₀
      exact ⟨d, hd, fun hd' => hs <| (congrArg (Option.map _) hd).trans <| by rw [← hd']; rfl⟩
  have ⟨newer, older, hl⟩ := List.append_of_mem he
  have ⟨d, hd, hs⟩ := h.since (I := fun _ db => ∃ d, db.deliveries.find? job.deliveryId = some d ∧
    d.status ≠ .scheduled) hl launched launched_exec
  exact fun he => hs <| Option.some.inj <| (congrArg (Option.map _) hd).symm.trans he

theorem attempt_le (h : Reachable (system P) pol init s) {e : Entry Stmt.sig Store Call}
    {attempt : Nat} (he : e ∈ s.log) (hx : e.stmt = .effect (.deferKickoff D attempt)) :
    attempt ≤ preflightMaxAttempts - 1 :=
  Nat.le_sub_one_of_lt (patient h he D attempt hx).right

theorem deferred_le (h : Reachable (system P) pol init s) :
    (s.log.filterMap (deferredId D)).dedup.length ≤ preflightMaxAttempts - 1 := by
  have ids := deferredId_mem (D := D) fun e he => patient h he
  have := (List.nodup_dedup _).length_le_of_subset <| List.Subset.trans (List.dedup_subset _) ids
  rwa [List.length_map, List.length_range'] at this

theorem last_launched (h : Reachable (system P) kickoffsExist init s) {job : KickoffJob}
    (hj : job.preflightAttempt = preflightMaxAttempts - 1) (hr : HasRun P s t job) :
    s.db.status job.deliveryId ≠ some .scheduled := by
  have exhausted : holdExhausted job.preflightAttempt preflightMaxAttempts := by
    rw [holdExhausted, hj]
    rfl
  obtain ⟨e, he, hs⟩ := (@follows_handleKickoff P t _ [] job exhausted).of_runs hr
  obtain ⟨_, newer, older, hl⟩ := World.mem_own he
  exact launched_of_settled h (hl ▸ List.mem_append_cons_self) (hr.call_eq (List.forall_mem_nil _) e he) hs

end

-- In all runs, the launch of a delivery is put off within the budget.
theorem holds_bounded {P : Params} {init : Store → Prop} {s : Pool Stmt.sig Store Call}
    (h : Reachable (system P) kickoffsExist init s) : HoldsBounded P s where
  attempts := attempt_le h
  distinct := deferred_le h
  last     := last_launched h

instance {s : Pool Stmt.sig Store Call} {t : Nat} {c : Call} {x : Stmt} :
    Decidable (kickoffsExist.step s t c x) := by
  cases c <;> dsimp only [kickoffsExist] <;> infer_instance

instance : DecidablePred kickoffsExist.spawn :=
  fun _ => .isTrue trivial

instance : Decidable kickoffsExist.crash :=
  .isTrue trivial

-- The weather does not allow for a launch.
def stormy (attempt : Nat) : KickoffJob :=
  { KickoffJob.small with
    preflightAttempt := attempt
    serviceability   := { serviceable := false, weatherHold := true, codes := ["WEATHER_WIND"] } }

-- A delivery is put off twice by the same job, and given up in the end.
theorem holds_bounded_stormy :
    ∃ s, Reachable (system .small) kickoffsExist Store.Initial s ∧ HoldsBounded .small s ∧
      (s.log.filterMap (deferredId 1)).length = 2 ∧ s.db.status 1 = some .deliveryFailed := by
  let cmds : List (Cmd Call) := Cmd.run 1 (.create .later) 7 ++ Cmd.run 2 (.handleKickoff <| stormy 0) 2 ++
    Cmd.run 3 (.handleKickoff <| stormy 0) 2 ++ Cmd.run 4 (.handleKickoff <| stormy 3) 2
  let s := (Pool.init .small).runCmds (system .small) cmds
  have admitted : kickoffsExist.AdmitsAll (system .small) (Pool.init .small) cmds := by decide +kernel
  have h : Reachable (system .small) kickoffsExist Store.Initial s :=
    (Reachable.init Store.small_initial).runCmds admitted
  exact ⟨s, h, holds_bounded h, by decide +kernel, by decide +kernel⟩

end Drovery.Preflight
