import Mathlib.Order.Lattice
import Drovery.Concurrency.Sequential
import Drovery.Execution.Theorems.Money
import Drovery.Execution.Theorems.Warrant

namespace Drovery

open Concurrency Method
open PaymentsService

namespace PaymentStatus

-- How far a payment has got. No statement ever sets a payment back.
def rank : PaymentStatus → Nat
  | pending    => 0
  | processing => 1
  | failed     => 2
  | completed  => 3
  | refunded   => 4

theorem rank_injective : Function.Injective rank := by
  intro s s' h
  cases s <;> cases s' <;> first | rfl | exact absurd h (by decide)

instance : LinearOrder PaymentStatus :=
  LinearOrder.lift' rank rank_injective

theorem pending_le {s : PaymentStatus} : pending ≤ s :=
  Nat.zero_le _

theorem le_refunded {s : PaymentStatus} : s ≤ refunded := by
  cases s <;> decide

theorem completed_le_iff {s : PaymentStatus} : completed ≤ s ↔ s = completed ∨ s = refunded := by
  cases s <;> decide

end PaymentStatus

-- The status that an event asks for. An event of no interest asks for nothing.
def WebhookType.target (type : WebhookType) : PaymentStatus :=
  (webhookStatus type).getD .pending

-- The two tables that govern the webhooks describe a linear order: an event moves a payment forward or
-- leaves it alone.
theorem mem_advanceFrom_iff {s target : PaymentStatus} {type : WebhookType}
    (h : webhookStatus type = some target) : s ∈ advanceFrom target ↔ s < target := by
  cases type <;> cases h <;> cases s <;> decide

section

variable {db : Store} {D : DeliveryId} {p : Payment} {x : Stmt}

def Store.paymentStatus (db : Store) (D : DeliveryId) : Option PaymentStatus :=
  (db.payments.table.find? D).map (·.status)

-- A payment stays in place, and is never set back.
theorem payment_mono (x : Stmt) (hp : db.payments.table.find? D = some p) :
    ∃ p', (x.exec db).snd.payments.table.find? D = some p' ∧ p'.intentId = p.intentId ∧
      p.status ≤ p'.status := by
  have hc := x.paymentChange db D
  generalize hp' : (x.exec db).snd.payments.table.find? D = p' at hc
  cases hc
  case same           => exact ⟨p, hp, rfl, le_rfl⟩
  case created hn     => simp [hn] at hp
  case notified target q _ ht hq ha =>
    obtain rfl := Option.some.inj <| hq.symm.trans hp
    exact ⟨_, rfl, rfl, ((mem_advanceFrom_iff ht).mp (of_decide_eq_true ha).right).le⟩
  case refunded hq _ _ _ =>
    obtain rfl := Option.some.inj <| hq.symm.trans hp
    exact ⟨_, rfl, rfl, PaymentStatus.le_refunded⟩

-- An event with an id has been handled before if its id has been recorded.
def StripeEvent.Unseen (db : Store) (event : StripeEvent) : Prop :=
  ∀ id ∈ event.id, db.payments.webhookEvents.find? id = none

-- The provider uses an id for one event only, however often it sends this event.
def StripeEvent.Consistent (events : List StripeEvent) : Prop :=
  ∀ event ∈ events, ∀ event' ∈ events, ∀ id ∈ event.id, id ∈ event'.id → event.type = event'.type

-- Handles the given events one after the other.
def handleEvents (events : List StripeEvent) (db : Store) : Store :=
  events.foldl (fun db event => (eval Stmt.exec (handleWebhookEvent event .committed) db).snd) db

theorem handleWebhookEvent_eval {event : StripeEvent} (h : event.intentId = some p.intentId) :
    (eval Stmt.exec (handleWebhookEvent event .committed) db).snd =
      ((Stmt.payment <| .webhook event.id event.type p.intentId).exec db).snd := by
  unfold handleWebhookEvent
  rw [h]
  dsimp only
  rw [eval_handle, eval_bind]
  dsimp only [attempt]
  rw [eval_tx]
  cases ((Stmt.payment <| .webhook event.id event.type p.intentId).exec db).fst
  case ok    => rfl
  case error =>
    dsimp only [id]
    split <;> rfl

theorem find?_applyStatus_self {ps : Payments} {type : WebhookType}
    (hp : ps.table.find? D = some p) :
    (ps.applyStatus type p.intentId).snd.table.find? D =
      some { p with status := max p.status type.target } := by
  unfold Payments.applyStatus WebhookType.target
  cases ht : webhookStatus type
  case none => simp [hp, PaymentStatus.pending_le]
  case some target =>
    simp only [Table.find?_updateMany, hp, Option.map_some, Payments.applies, Option.getD_some,
      mem_advanceFrom_iff ht, true_and, decide_eq_true_eq, Option.some.injEq]
    split
    case isTrue h  => rw [max_eq_right h.le]
    case isFalse h => rw [max_eq_left (not_lt.mp h)]

theorem webhookEvents_applyStatus {ps : Payments} {type : WebhookType} {I : IntentId} :
    (ps.applyStatus type I).snd.webhookEvents = ps.webhookEvents := by
  unfold Payments.applyStatus
  split <;> rfl

-- An event that has not been handled yet moves the payment forward, and its id is recorded. An event
-- that has been handled changes nothing.
theorem handleWebhook_cases {ps : Payments} {id : Option EventId} {type : WebhookType}
    (hp : ps.table.find? D = some p) :
    ((∀ i ∈ id, ps.webhookEvents.find? i = none) ∧
      (ps.handleWebhook id type p.intentId).snd.table.find? D =
        some { p with status := max p.status type.target } ∧
      ∀ i, ((ps.handleWebhook id type p.intentId).snd.webhookEvents.find? i).isSome ↔
        (ps.webhookEvents.find? i).isSome ∨ id = some i) ∨
    (∃ i ∈ id, (ps.webhookEvents.find? i).isSome) ∧
      (ps.handleWebhook id type p.intentId).snd = ps := by
  cases id
  case none =>
    refine .inl ⟨by simp, find?_applyStatus_self hp, fun i => ?_⟩
    simp [Payments.handleWebhook, webhookEvents_applyStatus]
  case some id =>
    cases hin : ps.webhookEvents.insert id type <;> simp only [Payments.handleWebhook, hin]
    case none    => exact .inr ⟨⟨id, rfl, Table.insert_eq_none_iff.mp hin⟩, trivial⟩
    case some es =>
      have hp' := @find?_applyStatus_self _ _ { ps with webhookEvents := es } type hp
      refine .inl ⟨?_, hp', fun i => ?_⟩
      case refine_1 =>
        intro i hi
        exact Option.some.inj hi ▸ Table.find?_of_insert hin
      case refine_2 =>
        rw [webhookEvents_applyStatus, Table.find?_insert hin]
        split
        case isTrue h  => simp [h]
        case isFalse h => simp [Ne.symm h]

-- The outcome of a list of events is the farthest status that is asked for.
theorem handleEvents_status {db₀ : Store} {events : List StripeEvent}
    (hp : db.payments.table.find? D = some p) (hi : ∀ event ∈ events, event.intentId = some p.intentId)
    (hc : StripeEvent.Consistent events)
    (hs : ∀ i, (db₀.payments.webhookEvents.find? i).isSome → (db.payments.webhookEvents.find? i).isSome)
    -- What has been handled since then has had its effect.
    (hd : ∀ event ∈ events, event.Unseen db₀ → ¬event.Unseen db → event.type.target ≤ p.status) :
    ∃ p', (handleEvents events db).payments.table.find? D = some p' ∧
      ∀ s, p'.status ≤ s ↔ p.status ≤ s ∧
        ∀ event ∈ events, event.Unseen db₀ → event.type.target ≤ s := by
  induction events generalizing db p
  case nil => exact ⟨p, hp, by simp⟩
  case cons event events ih =>
    obtain ⟨hi₁, hi⟩ := List.forall_mem_cons.mp hi
    obtain ⟨hd₁, hd⟩ := List.forall_mem_cons.mp hd
    have hc' : StripeEvent.Consistent events :=
      fun e he e' he' => hc e (.tail _ he) e' (.tail _ he')
    simp only [handleEvents, List.foldl_cons, handleWebhookEvent_eval hi₁] at ih ⊢
    simp only [Stmt.exec, PaymentStmt.exec]
    obtain ⟨hn, hp', he⟩ | ⟨⟨i, hi', hr⟩, he⟩ :=
      @handleWebhook_cases _ _ _ event.id event.type hp
    case inl =>
      have hn₀ : event.Unseen db₀ := by
        intro i hi
        have := hn i hi
        rw [← Option.not_isSome_iff_eq_none] at this ⊢
        exact fun h => this (hs i h)
      let db' : Store :=
        { db with payments := (db.payments.handleWebhook event.id event.type p.intentId).snd }
      -- An event that has been seen by now either was seen before or is the one just handled.
      have hd' (e : StripeEvent) (hm : e ∈ events) (hu : e.Unseen db₀) (hseen : ¬e.Unseen db') :
          e.type.target ≤ max p.status event.type.target := by
        by_cases hu' : e.Unseen db
        case neg => exact (hd e hm hu hu').trans (le_max_left ..)
        case pos =>
          simp only [StripeEvent.Unseen, not_forall] at hseen
          obtain ⟨i, hie, hseen⟩ := hseen
          have hid := ((he i).mp <| Option.isSome_iff_ne_none.mpr hseen).resolve_left <|
            Option.not_isSome_iff_eq_none.mpr <| hu' i hie
          rw [← hc event (.head _) e (.tail _ hm) i hid hie]
          exact le_max_right ..
      obtain ⟨q, hq, hle⟩ := @ih db' _ hp' hi hc' (fun i h => (he i).mpr <| .inl <| hs i h) hd'
      refine ⟨q, hq, fun s => ?_⟩
      rw [hle s, max_le_iff, List.forall_mem_cons, and_assoc]
      refine and_congr_right fun _ => and_congr_left fun _ => ?_
      exact ⟨fun h _ => h, fun h => h hn₀⟩
    case inr =>
      rw [he]
      obtain ⟨q, hq, hle⟩ := ih hp hi hc' hs hd
      refine ⟨q, hq, fun s => ?_⟩
      rw [hle s, List.forall_mem_cons]
      refine and_congr_right fun h => ?_
      refine (and_iff_right fun hu => (hd₁ hu fun hu' => ?_).trans h).symm
      simp [hu' i hi'] at hr

-- A payment leaves the status COMPLETED only to be refunded, and it never leaves the status REFUNDED.
structure SettledMove (s s' : Option PaymentStatus) : Prop where
  completed : s = some .completed → s' = some .completed ∨ s' = some .refunded
  refunded  : s = some .refunded → s' = some .refunded

theorem settledMove_of_le {db' : Store} (hp : db.payments.table.find? D = some p)
    {p' : Payment} (hp' : db'.payments.table.find? D = some p') (hle : p.status ≤ p'.status) :
    SettledMove (db.paymentStatus D) (db'.paymentStatus D) := by
  simp only [Store.paymentStatus, hp, hp', Option.map_some]
  constructor
  case completed =>
    intro h
    rw [Option.some.inj h, PaymentStatus.completed_le_iff] at hle
    exact hle.imp (congrArg some) (congrArg some)
  case refunded =>
    intro h
    rw [Option.some.inj h] at hle
    exact congrArg some <| PaymentStatus.le_refunded.antisymm hle

theorem settledMove_exec (x : Stmt) (db : Store) (D : DeliveryId) :
    SettledMove (db.paymentStatus D) ((x.exec db).snd.paymentStatus D) := by
  cases hp : db.payments.table.find? D
  case none   => constructor <;> simp [Store.paymentStatus, hp]
  case some p =>
    obtain ⟨p', hp', _, hle⟩ := payment_mono x hp
    exact settledMove_of_le hp hp' hle

theorem handleEvents_mono {events : List StripeEvent} (hp : db.payments.table.find? D = some p)
    (hi : ∀ event ∈ events, event.intentId = some p.intentId) :
    ∃ p', (handleEvents events db).payments.table.find? D = some p' ∧ p'.intentId = p.intentId ∧
      p.status ≤ p'.status := by
  induction events generalizing db p
  case nil => exact ⟨p, hp, rfl, le_rfl⟩
  case cons event events ih =>
    obtain ⟨hi₁, hi⟩ := List.forall_mem_cons.mp hi
    simp only [handleEvents, List.foldl_cons, handleWebhookEvent_eval hi₁] at ih ⊢
    obtain ⟨q, hq, hqi, hle⟩ :=
      payment_mono (.payment <| .webhook event.id event.type p.intentId) hp
    obtain ⟨p', hp', hpi, hle'⟩ := ih hq (hqi ▸ hi)
    exact ⟨p', hp', hpi.trans hqi, hle.trans hle'⟩

end

-- Two lists of events for the same payment lead to the same status if the same types of events
-- occur among those that have not been handled before. Along the way, and whatever else is done to the
-- payment in the meantime, a payment that has been settled remains so.
theorem webhook_confluence {db : Store} {D : DeliveryId} {p : Payment}
    (hp : db.payments.table.find? D = some p) {events events' : List StripeEvent}
    (hi : ∀ event ∈ events, event.intentId = some p.intentId)
    (hi' : ∀ event ∈ events', event.intentId = some p.intentId)
    (hc : StripeEvent.Consistent events) (hc' : StripeEvent.Consistent events')
    (hset : ∀ type, (∃ event ∈ events, event.Unseen db ∧ event.type = type) ↔
      ∃ event ∈ events', event.Unseen db ∧ event.type = type) :
    (handleEvents events db).paymentStatus D = (handleEvents events' db).paymentStatus D ∧
    (∀ earlier later, events = earlier ++ later → SettledMove
      ((handleEvents earlier db).paymentStatus D) ((handleEvents events db).paymentStatus D)) ∧
    ∀ (x : Stmt) (db' : Store),
      SettledMove (db'.paymentStatus D) ((x.exec db').snd.paymentStatus D) := by
  refine ⟨?_, fun earlier later he => ?_, fun x db' => settledMove_exec x db' D⟩
  case refine_1 =>
    obtain ⟨q, hq, hle⟩ := handleEvents_status hp hi hc (fun _ h => h) (fun _ _ h h' => absurd h h')
    obtain ⟨q', hq', hle'⟩ := handleEvents_status hp hi' hc' (fun _ h => h)
      (fun _ _ h h' => absurd h h')
    have same (s : PaymentStatus) : q.status ≤ s ↔ q'.status ≤ s := by
      rw [hle, hle']
      refine and_congr_right fun _ => ⟨fun h event' hm hu => ?_, fun h event hm hu => ?_⟩
      case refine_1 =>
        obtain ⟨event, hm, hu, ht⟩ := (hset event'.type).mpr ⟨event', hm, hu, rfl⟩
        exact ht ▸ h event hm hu
      case refine_2 =>
        obtain ⟨event', hm, hu, ht⟩ := (hset event.type).mp ⟨event, hm, hu, rfl⟩
        exact ht ▸ h event' hm hu
    rw [Store.paymentStatus, Store.paymentStatus, hq, hq', Option.map_some, Option.map_some]
    exact congrArg some <| ((same _).mpr le_rfl).antisymm ((same _).mp le_rfl)
  case refine_2 =>
    subst he
    obtain ⟨q, hq, hqi, _⟩ := handleEvents_mono hp fun e he => hi e (List.mem_append_left _ he)
    obtain ⟨q', hq', _, hle⟩ := handleEvents_mono hq fun e he =>
      hqi ▸ hi e (List.mem_append_right _ he)
    have hq' : (handleEvents (earlier ++ later) db).payments.table.find? D = some q' := by
      rw [handleEvents, List.foldl_append]
      exact hq'
    exact settledMove_of_le hq hq' hle

def Payment.small : Payment where
  intentId := 1
  amount   := 700
  status   := .pending

-- The first delivery has not been paid for yet.
def Store.unpaid : Store :=
  { Store.small with payments := { table := ⟨[(1, .small)], by decide⟩, webhookEvents := .empty } }

def StripeEvent.small (id : EventId) (type : WebhookType) : StripeEvent where
  id       := some id
  type     := type
  intentId := some 1

-- The events of a payment that succeeds at the second attempt, in the order in which they occur and in
-- another one.
def orderedEvents : List StripeEvent :=
  [.small 1 .processing, .small 2 .paymentFailed, .small 3 .succeeded]

def reorderedEvents : List StripeEvent :=
  [.small 3 .succeeded, .small 2 .paymentFailed, .small 3 .succeeded, .small 1 .processing]

theorem webhook_confluence_reordered :
    Store.unpaid.payments.table.find? 1 = some .small ∧
    (handleEvents orderedEvents .unpaid).paymentStatus 1 =
      (handleEvents reorderedEvents .unpaid).paymentStatus 1 := by
  have hp : Store.unpaid.payments.table.find? 1 = some .small := by decide
  have unseen (event : StripeEvent) : event.Unseen .unpaid := fun _ _ => rfl
  refine ⟨hp, (webhook_confluence hp (by decide) (by decide) ?_ ?_ fun type => ?_).left⟩
  case refine_1 => simp [StripeEvent.Consistent, orderedEvents, StripeEvent.small]
  case refine_2 => simp [StripeEvent.Consistent, reorderedEvents, StripeEvent.small]
  case refine_3 =>
    simp only [unseen, true_and]
    cases type <;> decide

-- The event has been handled for the given intent, successfully or as a duplicate.
def Handled (w : History) (type : WebhookType) (I : IntentId) : Prop :=
  ∃ e ∈ w.log, ∃ id, e.stmt = .payment (.webhook id type I)

-- The provider uses an id for one event only, and nothing has been paid initially.
def identified (provider : EventId → WebhookType × IntentId) : Policy Stmt.sig Store Call where
  step _ _ _ x := ∀ id type I, x = .payment (.webhook (some id) type I) → provider id = (type, I)

def Store.Unpaid (db : Store) : Prop :=
  db.Initial ∧ db.payments.webhookEvents = .empty

-- The runs in which no event is handled for an intent before its payment has been recorded.
def recordedFirst (provider : EventId → WebhookType × IntentId) : Policy Stmt.sig Store Call where
  step s t c x := (identified provider).step s t c x ∧
    ∀ D p, x = .payment (.create D p) → ∀ type, webhookStatus type ≠ none →
      ¬Handled s.world type p.intentId

section

variable {P : Params} {w : History} {t : Nat} {c : Call} {x : Stmt} {type : WebhookType}
variable {I : IntentId} {D : DeliveryId} {provider : EventId → WebhookType × IntentId}

theorem handled_exec : Handled (w.exec (system P) t c x) type I ↔
    Handled w type I ∨ ∃ id, x = .payment (.webhook id type I) := by
  simp only [Handled, World.exec_log, List.exists_mem_cons_iff]
  exact or_comm

-- The payment of a delivery has been refunded by an administrator.
def RefundedByAdmin (w : History) (D : DeliveryId) : Prop :=
  ∃ e ∈ w.log, ∃ U amount, e.stmt = .refundCharge .admin D U amount

-- The payment of a delivery was captured right when it was recorded.
def PaidAtOnce (w : History) (D : DeliveryId) : Prop :=
  ∃ e ∈ w.log, ∃ p, e.stmt = .payment (.create D p) ∧ .failed < p.status

-- What the payments say about the events that have been handled.
structure Balanced (provider : EventId → WebhookType × IntentId) (w : History) : Prop where
  identified : ∀ e ∈ w.log, ∀ id type I, e.stmt = .payment (.webhook (some id) type I) →
    provider id = (type, I)
  recorded   : ∀ id, (w.db.payments.webhookEvents.find? id).isSome →
    ∃ e ∈ w.log, ∃ type I, e.stmt = .payment (.webhook (some id) type I)
  lower      : ∀ {D p type}, w.db.payments.table.find? D = some p → Handled w type p.intentId →
    type.target ≤ p.status
  upper      : ∀ {D p}, w.db.payments.table.find? D = some p → .failed < p.status →
    Handled w .succeeded p.intentId ∨ PaidAtOnce w D ∨ RefundedByAdmin w D

-- Only webhooks record ids.
theorem webhookEvents_exec {db : Store} {i : EventId}
    (h : ((x.exec db).snd.payments.webhookEvents.find? i).isSome) :
    (db.payments.webhookEvents.find? i).isSome ∨ ∃ type I, x = .payment (.webhook (some i) type I) := by
  cases x
  case payment x =>
    cases x
    case find => exact .inl h
    case create E q =>
      simp only [Stmt.exec, PaymentStmt.exec] at h
      split at h <;> exact .inl h
    case webhook id type I =>
      simp only [Stmt.exec, PaymentStmt.exec] at h
      cases id
      case none =>
        rw [Payments.handleWebhook, webhookEvents_applyStatus] at h
        exact .inl h
      case some id =>
        cases hin : db.payments.webhookEvents.insert id type <;>
          simp only [Payments.handleWebhook, hin] at h
        case none    => exact .inl h
        case some es =>
          rw [webhookEvents_applyStatus, Table.find?_insert hin] at h
          split at h
          case isTrue hi  => exact .inr ⟨type, I, by rw [hi]⟩
          case isFalse    => exact .inl h
  case refundCharge ch E U a =>
    obtain he | ⟨_, _, _, _, _, _, _, _, rfl, he⟩ := Stmt.refundCharge_cases ch E U a db
    case inl => exact .inl (he ▸ h)
    case inr => rw [he] at h; exact .inl h
  case createDelivery E row booking =>
    simp only [Stmt.exec] at h
    obtain he | he := commit_snd (s := db) (r := db.createDelivery E row booking)
    case inl => rw [he] at h; exact .inl h
    case inr =>
      obtain ⟨hc⟩ := Store.createDelivery_ok he
      rw [hc.payments] at h
      exact .inl h
  case effect x => cases x <;> exact .inl h
  all_goals exact .inl h

theorem Balanced.exec {s : Pool Stmt.sig Store Call}
    (st : StepOf (system P) (recordedFirst provider) Store.Unpaid s t c x)
    (h : Balanced provider s.world) : Balanced provider (s.world.exec (system P) t c x) where
  identified := by
    intro e he
    obtain rfl | he := List.mem_cons.mp he
    case inl => exact st.allowed.left
    case inr => exact h.identified e he
  recorded i hi := by
    obtain hi | ⟨type, I, hx⟩ := webhookEvents_exec hi
    case inl =>
      obtain ⟨e, he, h⟩ := h.recorded i hi
      exact ⟨e, .tail _ he, h⟩
    case inr => exact ⟨_, .head _, type, I, hx⟩
  lower {D p' type} hp' hh := by
    have hp' : (x.exec s.db).snd.payments.table.find? D = some p' := hp'
    cases hp : s.db.payments.table.find? D
    case none =>
      -- The payment has just been recorded, so that no event has been handled for it yet.
      have hc := x.paymentChange s.db D
      rw [hp'] at hc
      generalize hq : some p' = q at hc
      cases hc
      case same           => exact absurd (hp.symm.trans hq.symm) (by simp)
      case notified hp₀ _ => simp [hp] at hp₀
      case refunded hp₀ _ _ _ => simp [hp] at hp₀
      case created hx _   =>
        obtain rfl := Option.some.inj hq
        by_cases ht : webhookStatus type = none
        case pos => rw [WebhookType.target, ht]; exact PaymentStatus.pending_le
        case neg =>
          refine absurd ((handled_exec.mp hh).resolve_right fun ⟨_, he⟩ => ?_) <|
            st.allowed.right D p' hx type ht
          simp [hx] at he
    case some p =>
      obtain ⟨q, hq, hi, hle⟩ := payment_mono x hp
      obtain rfl := Option.some.inj <| hq.symm.trans hp'
      rw [hi] at hh
      obtain hh | ⟨id, rfl⟩ := handled_exec.mp hh
      case inl => exact (h.lower hp hh).trans hle
      case inr =>
        obtain ⟨_, he, _⟩ | ⟨⟨i, hid, hr⟩, _⟩ := @handleWebhook_cases _ _ _ id type hp
        case inl =>
          obtain rfl := Option.some.inj <| hp'.symm.trans he
          exact le_max_right ..
        case inr =>
          -- A duplicate has been handled before.
          obtain ⟨e, he, type', I', hs⟩ := h.recorded i hr
          have h₁ := h.identified e he i type' I' hs
          have h₂ := st.allowed.left i type p.intentId (by rw [hid])
          obtain ⟨rfl, rfl⟩ := Prod.mk.inj <| h₁.symm.trans h₂
          exact (h.lower hp ⟨e, he, some i, hs⟩).trans hle
  upper {D p'} hp' hs := by
    have keep {p : Payment} (hp : s.db.payments.table.find? D = some p) (hs : .failed < p.status) :
        Handled (s.world.exec (system P) t c x) .succeeded p.intentId ∨
          PaidAtOnce (s.world.exec (system P) t c x) D ∨
          RefundedByAdmin (s.world.exec (system P) t c x) D := by
      obtain hh | ⟨e, he, h⟩ | ⟨e, he, h⟩ := h.upper hp hs
      case inl     => exact .inl <| handled_exec.mpr <| .inl hh
      case inr.inl => exact .inr <| .inl ⟨e, .tail _ he, h⟩
      case inr.inr => exact .inr <| .inr ⟨e, .tail _ he, h⟩
    have hp' : (x.exec s.db).snd.payments.table.find? D = some p' := hp'
    have hc := x.paymentChange s.db D
    rw [hp'] at hc
    generalize hq : some p' = q at hc
    cases hc
    case same         => exact keep hq.symm hs
    case created hx _ =>
      obtain rfl := Option.some.inj hq
      exact .inr <| .inl ⟨_, .head _, p', hx, hs⟩
    case notified id type I target p hx ht _ ha =>
      obtain rfl := Option.some.inj hq
      have hs : .failed < target := hs
      obtain rfl : type = .succeeded := by
        revert hs
        cases type <;> cases ht <;> decide
      exact .inl <| handled_exec.mpr <| .inr ⟨id, by rw [hx, (of_decide_eq_true ha).left]⟩
    case refunded ch U amount p r hx hp hr _ _ =>
      obtain rfl := Option.some.inj hq
      cases ch
      case admin     => exact .inr <| .inr ⟨_, .head _, U, amount, hx⟩
      case automatic =>
        have hs : p.status = .completed := of_decide_eq_true hr
        exact keep (p := p) hp (hs ▸ by decide)

end

-- If every payment is recorded before any event is handled for its intent, then the payment accounts for
-- all events that have been handled.
theorem no_webhook_lost {provider : EventId → WebhookType × IntentId} {P : Params}
    {s : Pool Stmt.sig Store Call}
    (h : Reachable (system P) (recordedFirst provider) Store.Unpaid s) {D : DeliveryId} {p : Payment}
    (hp : s.db.payments.table.find? D = some p) :
    (Handled s.world .succeeded p.intentId → p.status = .completed ∨ p.status = .refunded) ∧
    (∀ type, webhookStatus type = some .failed → Handled s.world type p.intentId →
      ¬Handled s.world .succeeded p.intentId → ¬PaidAtOnce s.world D → ¬RefundedByAdmin s.world D →
      p.status = .failed) := by
  have hb : Balanced provider s.world := h.invariant
    (fun hi => ⟨by simp, by simp [hi.right], by simp [hi.left.payments], by simp [hi.left.payments]⟩)
    fun st hi => hi.exec st
  refine ⟨fun hh => PaymentStatus.completed_le_iff.mp <| hb.lower hp hh, fun type ht hh hn hn₁ hn₂ => ?_⟩
  have hle : .failed ≤ p.status := by
    have := hb.lower hp hh
    rwa [WebhookType.target, ht] at this
  refine (hle.lt_or_eq.resolve_left fun hlt => ?_).symm
  obtain hh | hh | hh := hb.upper hp hlt
  case inl     => exact hn hh
  case inr.inl => exact hn₁ hh
  case inr.inr => exact hn₂ hh

-- The provider has charged nothing yet when the payment is recorded.
def CreateInput.unpaid : CreateInput :=
  { CreateInput.small with intent := .ok (1, .other) }

-- The only event of the first intent is its success.
def successOnly (_ : EventId) : WebhookType × IntentId :=
  (.succeeded, 1)

def Stmt.isWebhook : Stmt → Bool
  | .payment (.webhook ..) => true
  | _                      => false

-- The runs in which only this event is handled, and those in which all payments are recorded before.
def successes : Policy Stmt.sig Store Call where
  step _ _ _ x := match x with
    | .payment (.webhook (some id) type I) => successOnly id = (type, I)
    | _                                    => True

def paymentsFirst : Policy Stmt.sig Store Call where
  step s t c x := successes.step s t c x ∧ match x with
    | .payment (.create ..) => s.log.all fun e => !e.stmt.isWebhook
    | _                     => True

instance {s : Pool Stmt.sig Store Call} {t : Nat} {c : Call} {x : Stmt} :
    Decidable (successes.step s t c x) := by
  unfold successes; dsimp only; split <;> infer_instance

instance {s : Pool Stmt.sig Store Call} {t : Nat} {c : Call} {x : Stmt} :
    Decidable (paymentsFirst.step s t c x) := by
  unfold paymentsFirst; dsimp only; split <;> infer_instance

instance : DecidablePred successes.spawn     := fun _ => .isTrue trivial
instance : Decidable successes.crash         := .isTrue trivial
instance : DecidablePred paymentsFirst.spawn := fun _ => .isTrue trivial
instance : Decidable paymentsFirst.crash     := .isTrue trivial

theorem successes_identified {s : Pool Stmt.sig Store Call} {t : Nat} {c : Call} {x : Stmt}
    (h : successes.step s t c x) : (identified successOnly).step s t c x := by
  rintro id type I rfl
  exact h

def paidRun : List (Cmd Call) :=
  List.flatten [
    Cmd.run 1 (.create .unpaid) 9,
    Cmd.run 2 (.handleWebhookEvent (.small 1 .succeeded) .committed) 1]

theorem Store.small_unpaid : Store.small.Unpaid :=
  ⟨Store.small_initial, rfl⟩

-- The success of the first intent has been handled.
theorem handled_of_any {w : History}
    (h : w.log.any fun e => match e.stmt with
      | .payment (.webhook _ .succeeded 1) => true
      | _                                  => false) : Handled w .succeeded 1 := by
  obtain ⟨e, he, hs⟩ := List.any_eq_true.mp h
  split at hs
  case h_1 id hs' => exact ⟨e, he, id, hs'⟩
  case h_2        => contradiction

theorem no_webhook_lost_paid :
    ∃ s p, Reachable (system .small) (recordedFirst successOnly) Store.Unpaid s ∧
      s.db.payments.table.find? 1 = some p ∧ Handled s.world .succeeded p.intentId ∧
      (p.status = .completed ∨ p.status = .refunded) := by
  let s := (Pool.init .small).runCmds (system .small) paidRun
  have h : Reachable (system .small) (recordedFirst successOnly) Store.Unpaid s := by
    have h : Reachable (system .small) paymentsFirst Store.Unpaid s :=
      (Reachable.init Store.small_unpaid).runCmds (by decide)
    refine h.mono (fun _ _ => trivial) (fun s _ _ x h => ⟨?_, ?_⟩) id
    case refine_1 => exact successes_identified h.left
    case refine_2 =>
      rintro D p rfl type _ ⟨e, he, id, hs⟩
      have := List.all_eq_true.mp h.right e he
      simp [hs, Stmt.isWebhook] at this
  have hp : (s.db.payments.table.find? 1).any (·.intentId = 1) := by decide
  obtain ⟨p, hp, hi⟩ := (Option.any_eq_true _ _).mp hp
  have hh : Handled s.world .succeeded p.intentId := by
    rw [of_decide_eq_true hi]
    exact handled_of_any (by decide)
  exact ⟨s, p, h, hp, hh, (no_webhook_lost h hp).left hh⟩

-- The provider reports the success of the intent before the payment has been recorded.
def earlyWebhookRun : List (Cmd Call) :=
  List.flatten [
    Cmd.run 1 (.create .unpaid) 8,
    Cmd.run 2 (.handleWebhookEvent (.small 1 .succeeded) .committed) 1, [.exec 1]]

theorem no_webhook_lost_missed :
    ¬∀ (provider : EventId → WebhookType × IntentId) (P : Params) (s : Pool Stmt.sig Store Call),
      Reachable (system P) (identified provider) Store.Unpaid s → s.Quiescent →
      ∀ D p, s.db.payments.table.find? D = some p →
        Handled s.world .succeeded p.intentId → p.status = .completed ∨ p.status = .refunded := by
  intro h
  let s := (Pool.init .small).runCmds (system .small) earlyWebhookRun
  have hs : Reachable (system .small) (identified successOnly) Store.Unpaid s := by
    have h : Reachable (system .small) successes Store.Unpaid s :=
      (Reachable.init Store.small_unpaid).runCmds (by decide)
    exact h.mono (fun _ _ => trivial) (fun _ _ _ _ h => successes_identified h) id
  have hq : s.Quiescent := Pool.idle_runCmds (by decide)
  have hp : (s.db.payments.table.find? 1).any fun p => p.intentId = 1 ∧ p.status = .pending := by
    decide
  obtain ⟨p, hp, hi⟩ := (Option.any_eq_true _ _).mp hp
  obtain ⟨hi, hpend⟩ := of_decide_eq_true hi
  have hh : Handled s.world .succeeded p.intentId := by
    rw [hi]
    exact handled_of_any (by decide)
  obtain hc | hc := h successOnly .small s hs hq 1 p hp hh <;>
    exact absurd (hpend.symm.trans hc) (by decide)

end Drovery
