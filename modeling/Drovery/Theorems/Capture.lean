import Drovery.Theorems.Charge
import Drovery.Theorems.Payments

namespace Drovery

open Concurrency

-- A refund of the charge of the delivery `D`, through either channel, that books a credit.
structure Mints (db : Store) (D : DeliveryId) (x : Stmt) : Prop where
  refund : ∃ ch U amount, x = .refundCharge ch D U amount
  credit : ∃ r : WalletTransaction, r.cardLeg D ∧
    (x.exec db).snd.wallet.ledger.rows = r :: db.wallet.ledger.rows

-- The runs in which no administrator gets to refund a payment that waits for its charge or for which
-- the charge has failed.
def refundsSettled : Policy Stmt.sig Store Call where
  step s _ _ x := ∀ D U amount, x = .refundCharge .admin D U amount →
    ∀ status ∈ s.db.paymentStatus D, PaymentStatus.completed ≤ status

-- What is captured now has been captured by some statement.
def CaptureLogged (w : History) : Prop :=
  ∀ D, w.db.Captured D → ∃ e ∈ w.log, Captures e.pre D e.stmt

section

variable {P : Params} {s : Pool Stmt.sig Store Call} {t : Nat} {c : Call} {x : Stmt} {db : Store}
variable {D : DeliveryId} {U : UserId} {amount : Cents} {w : History}

-- A credit is only booked along with the mark on a payment that the channel may refund.
theorem Mints.refundable (h : Mints db D x) :
    ∃ ch U amount p, x = .refundCharge ch D U amount ∧ db.payments.table.find? D = some p ∧
      ch.refundable p.status := by
  have ⟨⟨ch, U, amount, hx⟩, r, _, hr⟩ := h
  subst hx
  obtain he | ⟨p, _, _, _, hp, hs, _⟩ := Stmt.refundCharge_cases ch D U amount db
  case inl =>
    rw [he] at hr
    exact absurd hr.symm <| List.cons_ne_self _ _
  case inr => exact ⟨ch, U, amount, p, rfl, hp, hs⟩

-- The automatic refund looks for the capture itself. For an administrator this is up to the run.
theorem Mints.captured (h : Mints db D x)
    (ha : ∀ U amount, x = .refundCharge .admin D U amount →
      ∀ status ∈ db.paymentStatus D, PaymentStatus.completed ≤ status) : db.Captured D := by
  have ⟨ch, U, amount, p, hx, hp, hs⟩ := h.refundable
  refine ⟨p, hp, ?_⟩
  cases ch
  case automatic => exact of_decide_eq_true hs
  case admin =>
    have hle : .completed ≤ p.status := ha U amount hx p.status (by simp [Store.paymentStatus, hp])
    exact (PaymentStatus.completed_le_iff.mp hle).resolve_right <| of_decide_eq_true hs

theorem CaptureLogged.exec (h : CaptureLogged w) : CaptureLogged (w.exec (system P) t c x) := by
  intro D hc
  by_cases hp : w.db.Captured D
  case pos =>
    have ⟨e, he, hx⟩ := h D hp
    exact ⟨e, .tail _ he, hx⟩
  case neg => exact ⟨_, .head _, hp, hc⟩

end

-- If no administrator refunds a payment that has not been settled, then a credit is only booked for a
-- charge that is captured at that moment, and that some earlier statement has captured.
theorem minted_captured {P : Params} {s : Pool Stmt.sig Store Call}
    (h : Reachable (system P) refundsSettled Store.Initial s)
    {newer older : List (Entry Stmt.sig Store Call)} {e : Entry Stmt.sig Store Call}
    {D : DeliveryId} (hl : s.log = newer ++ e :: older) (hm : Mints e.pre D e.stmt) :
    e.pre.Captured D ∧ ∃ e' ∈ older, Captures e'.pre D e'.stmt := by
  obtain ⟨s₀, st, hw, _⟩ := h.entry (R := fun _ _ => True) (fun _ => trivial) (fun _ _ => trivial)
    (fun _ => trivial) hl
  have hi : CaptureLogged s₀.world := st.reachable.invariant
    (fun hi D ⟨p, hp, _⟩ => by simp [hi.payments] at hp) fun _ hi => hi.exec
  have hd : s₀.db = e.pre := congrArg World.db hw
  have hc : e.pre.Captured D := hm.captured fun U amount hx => hd ▸ st.allowed D U amount hx
  rw [hw] at hi
  exact ⟨hc, hi D hc⟩

-- A refund by an administrator that books a credit for the first delivery.
def goodwill (db : Store) : Stmt → Bool
  | .refundCharge .admin 1 U amount =>
    let rows := ((Stmt.refundCharge .admin 1 U amount).exec db).snd.wallet.ledger.rows
    rows.head?.any (·.cardLeg 1) ∧ rows.tail = db.wallet.ledger.rows
  | _ => false

theorem mints_of_goodwill {db : Store} {x : Stmt} (h : goodwill db x) : Mints db 1 x := by
  unfold goodwill at h
  split at h
  case h_2 => contradiction
  case h_1 U amount =>
    have ⟨hr, ht⟩ := of_decide_eq_true h
    have ⟨r, hr, hl⟩ := (Option.any_eq_true _ _).mp hr
    exact ⟨⟨.admin, U, amount, rfl⟩, r, hl, ht ▸ List.eq_cons_of_mem_head? hr⟩

-- The same restriction as a check on the statement.
def settledFirst : Policy Stmt.sig Store Call where
  step s _ _ x := match x with
    | .refundCharge .admin D _ _ => ∀ status ∈ s.db.paymentStatus D, PaymentStatus.completed ≤ status
    | _                          => True

instance {s : Pool Stmt.sig Store Call} {t : Nat} {c : Call} {x : Stmt} :
    Decidable (settledFirst.step s t c x) := by
  unfold settledFirst; dsimp only; split <;> infer_instance

instance : DecidablePred settledFirst.spawn := fun _ => .isTrue trivial
instance : Decidable settledFirst.crash     := .isTrue trivial

-- A delivery is paid for and then refunded by an administrator.
def goodwillRun : List (Cmd Call) :=
  List.flatten [Cmd.run 1 (.create .small) 12, Cmd.run 2 (.adminRefund 1 none .committed) 2]

theorem minted_captured_goodwill :
    ∃ s newer e older, Reachable (system .small) refundsSettled Store.Initial s ∧
      s.log = newer ++ e :: older ∧ Mints e.pre 1 e.stmt ∧
      e.pre.Captured 1 ∧ ∃ e' ∈ older, Captures e'.pre 1 e'.stmt := by
  let s := (Pool.init .small).runCmds (system .small) goodwillRun
  have h : Reachable (system .small) refundsSettled Store.Initial s := by
    have h : Reachable (system .small) settledFirst Store.Initial s :=
      (Reachable.init Store.small_initial).runCmds (by decide +kernel)
    refine h.mono (fun _ _ => trivial) (fun s t c x h D U amount hx => ?_) id
    subst hx
    exact h
  have hm : s.log.any fun e => goodwill e.pre e.stmt := by decide +kernel
  have ⟨e, he, hm⟩ := List.any_eq_true.mp hm
  have ⟨newer, older, hl⟩ := List.append_of_mem he
  have hm := mints_of_goodwill hm
  exact ⟨s, newer, e, older, h, hl, hm, minted_captured h hl hm⟩

-- The provider has not charged anything yet, and the administrator refunds the delivery anyway.
def windfallRun : List (Cmd Call) :=
  List.flatten [Cmd.run 1 (.create .unpaid) 9, Cmd.run 2 (.adminRefund 1 none .committed) 2]

theorem uncaptured_minted :
    ¬∀ (P : Params) (s : Pool Stmt.sig Store Call), Reachable (system P) {} Store.Initial s →
      ∀ D, ∀ e ∈ s.log, Mints e.pre D e.stmt → e.pre.Captured D := by
  intro h
  let s := (Pool.init .small).runCmds (system .small) windfallRun
  have hs : Reachable (system .small) {} Store.Initial s :=
    Reachable.runCmds_of_free windfallRun (.init Store.small_initial)
  have hm : s.log.any fun e => goodwill e.pre e.stmt ∧ e.pre.paymentStatus 1 = some .pending := by
    decide +kernel
  obtain ⟨e, he, hm⟩ := List.any_eq_true.mp hm
  obtain ⟨hm, hp⟩ := of_decide_eq_true hm
  obtain ⟨p, hf, hc⟩ := h .small s hs 1 e he <| mints_of_goodwill hm
  rw [Store.paymentStatus, hf, Option.map_some, Option.some.injEq] at hp
  cases hp.symm.trans hc

end Drovery
