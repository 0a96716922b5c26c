import Drovery.Concurrency.Local
import Drovery.Theorems.Handoff

namespace Drovery

open Concurrency Method
open DeliveriesService

-- The write with which a locked handoff fails the delivery `D`, provided that it takes effect.
def LocksOut (D : DeliveryId) (e : Entry Stmt.sig Store Call) : Prop :=
  ∃ U E code faults o allowed reason, e.call = .confirmHandoff U E code faults ∧
    Wins e o D (.fail allowed reason)

-- The flight back of the drone with the delivery `D` begins.
def BeginsReturn (D : DeliveryId) (e : Entry Stmt.sig Store Call) : Prop :=
  ∃ o reason, Wins e o D (.beginReturn reason)

-- The delivery `D` is aborted, and the reason is recorded.
def Aborts (D : DeliveryId) (e : Entry Stmt.sig Store Call) : Prop :=
  BeginsReturn D e ∨ ∃ o allowed reason, Wins e o D (.fail allowed reason)

-- What is failed is a handoff, and nothing that has been aborted before.
structure EndsHandoff (D : DeliveryId) (e : Entry Stmt.sig Store Call)
    (older : List (Entry Stmt.sig Store Call)) : Prop where
  awaiting   : e.pre.status D = some .awaitingHandoff
  notAborted : ∀ e' ∈ older, ¬Aborts D e'

-- The flight back has not begun since the first statement of the thread `t`.
def Undisturbed (D : DeliveryId) (t : Nat) (log : List (Entry Stmt.sig Store Call)) : Prop :=
  ∀ mid e rest, log = mid ++ e :: rest → BeginsReturn D e → ∀ r ∈ rest, r.tid ≠ t

section

variable {P : Params} {t : Nat} {c : Call} {es : List (Entry Stmt.sig Store Call)} {x : Stmt}
variable {D : DeliveryId} {U : UserId} {code : String} {faults : CleanupFaults}

-- The only failures that the statement may write are those of the delivery `D` in flight.
def Stmt.FailsOnly (D : DeliveryId) (x : Stmt) : Prop :=
  ∀ o E allowed reason, x = .delivery (.transition o E <| .fail allowed reason) →
    E = D ∧ allowed ⊆ DeliveryStatus.failableStatuses

theorem Stmt.failsOnly_of_aftermath {s : DeliveryStatus} (h : Aftermath D s x) : x.FailsOnly D := by
  rintro _ _ _ _ rfl
  cases h
  case inl h => exact h.elim
  case inr h => exact h.elim

theorem failHandoff_failsOnly : Built (Single (Stmt.FailsOnly D)) (failHandoff D faults) := by
  refine .bind (failExceptional_single (fun _ => Stmt.failsOnly_of_aftermath) ?_) fun _ => .throw
  intro allowed ha o E allowed' reason he
  simp only [Stmt.delivery.injEq, DeliveryStmt.transition.injEq, Transition.fail.injEq] at he
  exact ⟨he.2.1.symm, he.2.2.1 ▸ ha⟩

theorem rejectGuess_failsOnly : Built (Single (Stmt.FailsOnly D)) (rejectGuess D faults) := by
  refine .bind (Single.stmt nofun) fun _ => .bind (Single.stmt nofun) fun _ => ?_
  split
  case isTrue  => exact failHandoff_failsOnly
  case isFalse => exact .throw

theorem completeHandoff_failsOnly :
    Built (Single (Stmt.FailsOnly D)) (completeHandoff D code faults) := by
  refine .bind (Single.stmt nofun) fun _ => ?_
  split
  case isTrue => exact .throw
  case isFalse =>
    refine .bind (release_single fun _ _ _ _ he => nomatch he) fun _ => .safe <| Single.stmt nofun

-- The thread has read the delivery `D` as one that awaits its handoff.
def ReadAwaiting (D : DeliveryId) (es : List (Entry Stmt.sig Store Call)) : Prop :=
  ∃ r ∈ es, r.stmt = .delivery (.find D) ∧ r.pre.status D = some .awaitingHandoff

theorem ReadAwaiting.cons {e : Entry Stmt.sig Store Call} (h : ReadAwaiting D es) :
    ReadAwaiting D (e :: es) :=
  have ⟨r, hm, hr⟩ := h
  ⟨r, .tail _ hm, hr⟩

-- A confirmation that fails a delivery has read it as one that awaits its handoff.
def LockoutFollows (c : Call) (x : Stmt) (es : List (Entry Stmt.sig Store Call)) : Prop :=
  ∀ U E code faults o D allowed reason, c = .confirmHandoff U E code faults →
    x = .delivery (.transition o D <| .fail allowed reason) →
    allowed ⊆ DeliveryStatus.failableStatuses ∧ ReadAwaiting D es

abbrev ConfirmFollows {α : Type} (P : Params) (t : Nat) (c : Call) (p : App α)
    (es : List (Entry Stmt.sig Store Call)) : Prop :=
  p.Follows (system P) t c (LockoutFollows c) (fun _ _ => True) (fun _ _ => True) es

theorem confirmFollows_of_failsOnly {α : Type} {p : App α}
    (hp : Built (Single (Stmt.FailsOnly D)) p) (h : ReadAwaiting D es) :
    ConfirmFollows P t c p es := by
  have hf : p.Follows (system P) t c (LockoutFollows c) (fun _ => ReadAwaiting D)
      (fun _ => ReadAwaiting D) es := by
    refine Follows.built hp (fun ⟨hx⟩ hr => follows_tx.mpr ⟨?_, fun db => ?_⟩) h
    case refine_1 =>
      intro _ _ _ _ o E allowed reason _ hs
      have ⟨he, ha⟩ := hx o E allowed reason hs
      exact ⟨ha, he ▸ hr⟩
    case refine_2 => split <;> exact hr.cons
  exact hf.mono (fun _ _ _ => trivial) fun _ _ _ => trivial

theorem confirmHandoff_follows : ConfirmFollows P t c (confirmHandoff P U D code faults) [] := by
  have hf : LockoutFollows c (.delivery <| .find D) [] := fun _ _ _ _ _ _ _ _ _ he =>
    nomatch Stmt.delivery.inj he
  refine follows_stmt_bind.mpr ⟨hf, fun db => ?_⟩
  split
  case h_1 => trivial
  case h_2 delivery hd =>
    have hd : db.deliveries.find? D = some delivery := hd
    split
    case isTrue => trivial
    case isFalse =>
      split
      case isTrue => trivial
      case isFalse =>
        split
        case isTrue => trivial
        case isFalse hs =>
          have hr : ReadAwaiting D [⟨t, c, .delivery <| .find D, db⟩] :=
            ⟨_, .head _, rfl, by simpa [Store.status, hd] using hs⟩
          split
          case isTrue => exact confirmFollows_of_failsOnly failHandoff_failsOnly hr
          case isFalse =>
            split
            case isTrue  => exact confirmFollows_of_failsOnly completeHandoff_failsOnly hr
            case isFalse => exact confirmFollows_of_failsOnly rejectGuess_failsOnly hr

theorem call_lockoutFollows :
    ((system P).prog t c).Follows (system P) t c (LockoutFollows c) (fun _ _ => True) [] := by
  cases c
  case confirmHandoff => exact follows_toCall.mpr confirmHandoff_follows
  all_goals
    refine Prog.Follows.of_forall (fun _ _ _ _ _ _ _ _ _ _ hc => ?_) fun _ _ => trivial
    exact Call.noConfusion hc

theorem Wins.status_post {e : Entry Stmt.sig Store Call} {o : Option CommandId} {tr : Transition}
    (h : Wins e o D tr) : (e.post (system P)).status D = some tr.target := by
  have ⟨hs, d, hd, hg⟩ := h
  have he : (DeliveryStmt.transition o D tr).exec e.pre.clock e.pre.tracking e.pre.deliveries =
      (1, e.pre.deliveries.modify D (tr.apply e.pre.clock)) := Table.cas_of_guard hd hg
  rw [Entry.post, hs]
  simp [Store.status, system, Stmt.exec, he, hd]

-- An abort takes the delivery past the handoff.
theorem Aborts.rank_lt {e : Entry Stmt.sig Store Call} (h : Aborts D e) :
    ∃ s, (e.post (system P)).status D = some s ∧ DeliveryStatus.awaitingHandoff.rank < s.rank := by
  obtain ⟨_, _, hw⟩ | ⟨_, _, _, hw⟩ := h
  case inl => exact ⟨.returning, hw.status_post, by decide⟩
  case inr => exact ⟨.deliveryFailed, hw.status_post, by decide⟩

theorem Grows.leads {w w' : History} {a : DeliveryStatus} (h : Grows w w')
    (ha : w.db.status D = some a) : ∃ b, w'.db.status D = some b ∧ a.Leads b := by
  have ⟨d, hd, hs⟩ := Option.map_eq_some_iff.mp ha
  have ⟨d', hd', _, hl⟩ := h.db.delivery hd
  exact ⟨d'.status, by simp [Store.status, hd'], hs ▸ hl⟩

-- A step keeps to the life cycle, and there is no other way to a flight back than its begin.
theorem StepOf.leads {pol : Policy Stmt.sig Store Call} {s : Pool Stmt.sig Store Call}
    {a : DeliveryStatus} (st : StepOf (system P) pol Store.Initial s t c x)
    (ha : s.db.status D = some a) :
    ∃ b, (x.exec s.db).snd.status D = some b ∧ a.Leads b ∧
      (b = .returning → a = .returning ∨ BeginsReturn D ⟨t, c, x, s.db⟩) := by
  have hg : Grows s.world (s.world.exec (system P) t c x) := .exec (StepOf.warranted st).lawful
  have ⟨b, hb, hl⟩ := hg.leads ha
  refine ⟨b, hb, hl, fun hr => ?_⟩
  by_cases hn : a = .returning
  case pos => exact .inl hn
  case neg =>
    have ⟨d, hd, hs⟩ := Option.map_eq_some_iff.mp ha
    have ⟨o, tr, hx, hg, ht, _⟩ := (StepOf.warranted st).moves ha (hr ▸ hb) hn
    cases tr
    case beginReturn reason => exact .inr ⟨o, reason, hx, d, hd, hs ▸ hg⟩
    case advance target =>
      obtain rfl : target = .returning := ht
      exact absurd hg <| by cases a <;> decide
    all_goals exact nomatch ht

section

variable {pol : Policy Stmt.sig Store Call} {s : Pool Stmt.sig Store Call}

-- A delivery that has once awaited its handoff and now flies back has begun to do so in between.
theorem status_since_awaiting (h : Reachable (system P) pol Store.Initial s)
    {mid rest : List (Entry Stmt.sig Store Call)} {r : Entry Stmt.sig Store Call}
    (hl : s.log = mid ++ r :: rest) (hs : r.stmt = .delivery (.find D))
    (ha : r.pre.status D = some .awaitingHandoff) :
    ∃ a, s.db.status D = some a ∧ DeliveryStatus.awaitingHandoff.Leads a ∧
      (a = .returning → ∃ e ∈ mid, BeginsReturn D e) := by
  let I (mid : List (Entry Stmt.sig Store Call)) (db : Store) :=
    ∃ a, db.status D = some a ∧ DeliveryStatus.awaitingHandoff.Leads a ∧
      (a = .returning → ∃ e ∈ mid, BeginsReturn D e)
  have hr : r.post (system P) = r.pre := by
    rw [Entry.post, hs]
    rfl
  refine h.since_step (I := I) hl ⟨_, hr ▸ ha, .refl, nofun⟩ fun st _ hi => ?_
  have ⟨a, ha, hla, hb⟩ := hi
  have ⟨b, hb', hlb, hr⟩ := StepOf.leads st ha
  refine ⟨b, hb', hla.trans hlb, fun h => ?_⟩
  obtain h | h := hr h
  case inl =>
    have ⟨e, he, hbr⟩ := hb h
    exact ⟨e, .tail _ he, hbr⟩
  case inr => exact ⟨_, .head _, h⟩

theorem not_aborts_of_awaiting (h : Reachable (system P) pol Store.Initial s)
    (ha : s.db.status D = some .awaitingHandoff) {e : Entry Stmt.sig Store Call}
    (he : e ∈ s.log) : ¬Aborts D e := by
  intro hb
  have ⟨newer, older, hl⟩ := List.append_of_mem he
  have ⟨b, hpb, hlt⟩ := hb.rank_lt (P := P)
  have ⟨a, hsa, hla⟩ := (entry_warranted h hl).right.leads hpb
  obtain rfl : a = .awaitingHandoff := Option.some.inj <| hsa.symm.trans ha
  exact absurd hlt (DeliveryStatus.Leads.rank_le hla).not_gt

end

end

-- What a locked handoff fails is a handoff if and only if the drone has not begun to fly back since the
-- call has read the delivery.
theorem lockout_ends_handoff {P : Params} {s : Pool Stmt.sig Store Call}
    (h : Reachable (system P) {} Store.Initial s) {newer older : List (Entry Stmt.sig Store Call)}
    {e : Entry Stmt.sig Store Call} {D : DeliveryId} (hl : s.log = newer ++ e :: older)
    (hx : LocksOut D e) : EndsHandoff D e older ↔ Undisturbed D e.tid older := by
  have ⟨s₀, st, hdb, hlog⟩ := h.before hl
  have ⟨U, E, code, faults, o, allowed, reason, hc, hw⟩ := hx
  have ⟨ha, r, hr, hrs, hra⟩ : allowed ⊆ DeliveryStatus.failableStatuses ∧
      ReadAwaiting D (e.past older) :=
    h.follows_entry (F := fun _ => LockoutFollows) (Q := fun _ _ _ => True)
      (fun _ _ _ => call_lockoutFollows) hl U E code faults o D allowed reason hc hw.left
  have ⟨hr, hrt⟩ := List.mem_filter.mp hr
  have hrt : r.tid = e.tid := of_decide_eq_true hrt
  constructor
  case mp =>
    intro hh mid e' rest hm hb
    exact absurd (.inl hb) <| hh.notAborted e' <| hm ▸ List.mem_append_right _ (.head _)
  case mpr =>
    intro hu
    have ⟨mid, rest, hm⟩ := List.append_of_mem hr
    have ⟨a, hsa, hla, hb⟩ := status_since_awaiting st.reachable (hlog.trans hm) hrs hra
    have hn : a ≠ .returning := by
      intro hr
      have ⟨e', he', hbr⟩ := hb hr
      have ⟨mid₁, mid₂, hm'⟩ := List.append_of_mem he'
      have hm : older = mid₁ ++ e' :: (mid₂ ++ r :: rest) := by
        rw [hm, hm', List.append_assoc, List.cons_append]
      exact hu mid₁ e' _ hm hbr r (List.mem_append_right _ <| .head _) hrt
    have haw : a = .awaitingHandoff := by
      have ⟨_, d, hd, hg⟩ := hw
      have hds : d.status ∈ DeliveryStatus.failableStatuses := ha <| of_decide_eq_true hg
      rw [hdb, Store.status, hd, Option.map_some, Option.some.injEq] at hsa
      rw [hsa] at hds
      have hle := DeliveryStatus.Leads.rank_le hla
      revert hds hle hn
      cases a <;> decide
    have hsa : s₀.db.status D = some .awaitingHandoff := haw ▸ hsa
    exact ⟨hdb ▸ hsa, fun e' he' => not_aborts_of_awaiting st.reachable hsa (hlog ▸ he')⟩

-- The recipient presents four wrong codes and then a fifth one, which locks the handoff.
def lockoutRun : List (Cmd Call) :=
  List.flatten [
    arrivalRun, Cmd.run 3 (.confirmHandoff 1 1 "0000" {}) 3,
    Cmd.run 4 (.confirmHandoff 1 1 "0001" {}) 3, Cmd.run 5 (.confirmHandoff 1 1 "0002" {}) 3,
    Cmd.run 6 (.confirmHandoff 1 1 "0003" {}) 3, Cmd.run 7 (.confirmHandoff 1 1 "0004" {}) 3]

-- The entry fails the first delivery on account of a locked handoff.
def locksFirst (e : Entry Stmt.sig Store Call) : Bool :=
  match e.call, e.stmt with
  | .confirmHandoff .., .delivery (.transition none 1 (.fail allowed _)) =>
    (e.pre.deliveries.find? 1).any (·.status ∈ allowed)
  | _, _ => false

theorem locksOut_of_locksFirst {e : Entry Stmt.sig Store Call} (h : locksFirst e) :
    LocksOut 1 e := by
  unfold locksFirst at h
  split at h
  case h_2 => contradiction
  case h_1 U E code faults allowed reason hc hs =>
    have ⟨d, hd, hm⟩ := (Option.any_eq_true _ _).mp h
    exact ⟨U, E, code, faults, none, allowed, reason, hc, hs, d, hd, hm⟩

theorem lockout_ends_handoff_fifth :
    ∃ s newer e older, Reachable (system .small) {} Store.Initial s ∧ s.log = newer ++ e :: older ∧
      LocksOut 1 e ∧ (EndsHandoff 1 e older ↔ Undisturbed 1 e.tid older) := by
  let s := (Pool.init .small).runCmds (system .small) (lockoutRun ++ [.exec 7])
  have h : Reachable (system .small) {} Store.Initial s :=
    Reachable.runCmds_of_free _ (.init Store.small_initial)
  have he : s.log.any locksFirst := by decide +kernel
  have ⟨e, he, hx⟩ := List.any_eq_true.mp he
  have ⟨newer, older, hl⟩ := List.append_of_mem he
  have hx := locksOut_of_locksFirst hx
  exact ⟨s, newer, e, older, h, hl, hx, lockout_ends_handoff h hl hx⟩

-- The drone is sent back between the count of the fifth code and the write that fails the delivery.
theorem lockout_ends_return :
    ¬∀ (P : Params) (s : Pool Stmt.sig Store Call), Reachable (system P) {} Store.Initial s →
      ∀ newer e older D, s.log = newer ++ e :: older → LocksOut D e →
        e.pre.status D = some .awaitingHandoff := by
  intro h
  let cmds := lockoutRun ++ Cmd.run 8 (.beginReturnToBase 1 .weatherAbort {}) 1 ++ [.exec 7]
  let s := (Pool.init .small).runCmds (system .small) cmds
  have hs : Reachable (system .small) {} Store.Initial s :=
    Reachable.runCmds_of_free _ (.init Store.small_initial)
  have he : s.log.any fun e => locksFirst e ∧ e.pre.status 1 = some .returning := by decide +kernel
  have ⟨e, he, hx⟩ := List.any_eq_true.mp he
  have ⟨hx, hr⟩ := of_decide_eq_true hx
  have ⟨newer, older, hl⟩ := List.append_of_mem he
  have ha := h .small s hs newer e older 1 hl <| locksOut_of_locksFirst hx
  exact nomatch hr.symm.trans ha

end Drovery
