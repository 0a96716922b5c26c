import Mathlib.Data.List.Basic
import Mathlib.Logic.Relation
import Drovery.Objects.Command

namespace Drovery

-- The columns of a delivery that never change.
structure Delivery.SameOrder (d d' : Delivery) : Prop where
  userId          : d'.userId = d.userId
  estimatedPrice  : d'.estimatedPrice = d.estimatedPrice
  handoffCodeHash : d'.handoffCodeHash = d.handoffCodeHash

-- The row of a delivery to which nothing has happened yet.
structure Delivery.New (d : Delivery) : Prop where
  status          : d.status = .scheduled ∨ d.status = .pending
  handoffAttempts : d.handoffAttempts = 0

-- The columns of a command that never change.
structure DroneCommand.SameOrder (c c' : DroneCommand) : Prop where
  deliveryId : c'.deliveryId = c.deliveryId
  droneId    : c'.droneId = c.droneId
  type       : c'.type = c.type
  reason     : c'.reason = c.reason

namespace DeliveryStatus

-- The intended life cycle of a delivery.
inductive Edge : DeliveryStatus → DeliveryStatus → Prop
  | launch : Edge .scheduled .pending
  | advance {s s'} : s ∈ statusOrder → s' ∈ statusOrder → s' ≠ .delivered →
    statusOrder.idxOf s < statusOrder.idxOf s' → Edge s s'
  | deliver : Edge .awaitingHandoff .delivered
  | cancel {s} : ¬s.Terminal → Edge s .canceled
  | fail {s} : s = .scheduled ∨ s ∈ failableStatuses → Edge s .deliveryFailed
  | beginReturn {s} : s ∈ returnableStatuses → Edge s .returning
  | completeReturn : Edge .returning .returnedToBase

-- A delivery in the status `s` may get to the status `s'`.
abbrev Leads : DeliveryStatus → DeliveryStatus → Prop :=
  Relation.ReflTransGen Edge

-- The position of a status on every path through the life cycle.
def rank : DeliveryStatus → Nat
  | scheduled        => 0
  | pending          => 1
  | confirmed        => 2
  | droneAssigned    => 3
  | pickupInProgress => 4
  | inTransit        => 5
  | awaitingHandoff  => 6
  | returning        => 7
  | delivered        => 8
  | canceled         => 8
  | deliveryFailed   => 8
  | returnedToBase   => 8

variable {s s' : DeliveryStatus}

theorem Edge.rank_lt (h : Edge s s') : s.rank < s'.rank := by
  cases h
  case launch              => decide
  case deliver             => decide
  case completeReturn      => decide
  case advance hs hs' hn hi => cases s <;> cases s' <;> simp_all +decide
  case cancel h            => cases s <;> simp_all +decide
  case fail h              => cases s <;> simp_all +decide
  case beginReturn h       => cases s <;> simp_all +decide

-- No edge leads back to a scheduled delivery.
theorem Edge.ne_scheduled (h : Edge s s') : s' ≠ .scheduled := by
  rintro rfl
  exact absurd h.rank_lt (Nat.not_lt_zero _)

-- No edge leaves a terminal status.
theorem Edge.not_terminal (h : Edge s s') : ¬s.Terminal := by
  have hlt := h.rank_lt
  cases s <;> cases s' <;> simp_all +decide

theorem Leads.rank_le (h : Leads s s') : s.rank ≤ s'.rank := by
  induction h
  case refl      => exact le_rfl
  case tail e ih => exact ih.trans e.rank_lt.le

theorem Leads.of_terminal (h : Leads s s') (ht : s.Terminal) : s' = s := by
  induction h
  case refl      => rfl
  case tail e ih => exact absurd ht (ih ▸ e.not_terminal)

end DeliveryStatus

namespace Transition

open DeliveryStatus

-- The transitions that follow the life cycle.
def Lawful : Transition → Prop
  | advance target => target ≠ .delivered
  | fail allowed _ => ∀ s ∈ allowed, s = .scheduled ∨ s ∈ failableStatuses
  | _              => True

variable {tr : Transition} {s : DeliveryStatus}

-- Only a launch assigns an airframe.
theorem apply_assigned (tr : Transition) (now : Time) (d : Delivery) :
    (∃ X, tr = .launch (some X)) ∨
    (tr.apply now d).assignedDroneId = d.assignedDroneId ∧
      (tr.apply now d).trackingSource = d.trackingSource := by
  unfold apply
  split
  case h_1 => exact .inl ⟨_, rfl⟩
  all_goals exact .inr ⟨rfl, rfl⟩

theorem edge (h : tr.Lawful) (hs : tr.source s) : Edge s tr.target := by
  cases tr <;> simp only [source, decide_eq_true_eq, target] at hs ⊢
  case launch => exact hs ▸ .launch
  case advance target =>
    unfold statusesBefore at hs
    split at hs
    case isFalse => simp at hs
    case isTrue ht =>
      have hm := List.mem_of_mem_take hs
      exact .advance hm ht h <| (List.mem_take_iff_idxOf_lt hm).mp hs
  case cancel              => exact .cancel (by revert hs; cases s <;> decide)
  case forceCancelOnGround => exact .cancel fun ht => hs (List.mem_append_left _ ht)
  case forceCancelAirborne => exact .cancel (by revert hs; cases s <;> decide)
  case fail                => exact .fail (h s hs)
  case beginReturn         => exact .beginReturn hs
  case completeReturn      => exact hs ▸ .completeReturn
  case deliver             => exact hs ▸ .deliver

-- A scheduled delivery is launched or comes to its end.
theorem launch_or_terminal (h : tr.source .scheduled) :
    (∃ X, tr = .launch X) ∨ tr.target.Terminal := by
  cases tr
  case launch X       => exact .inl ⟨X, rfl⟩
  case advance target => exact absurd h <| by cases target <;> decide
  case beginReturn    => exact absurd h <| by simp [source, returnableStatuses]
  case completeReturn => exact absurd h <| by decide
  all_goals exact .inr <| by rw [target]; decide

end Transition

namespace DroneCommandType

open DeliveryStatus

variable {type : DroneCommandType} {s s' : DeliveryStatus}

-- The statuses of a delivery that has outlived the commands of this type.
def pastStatuses : DroneCommandType → List DeliveryStatus
  | returnToBase => .returning :: terminalStatuses
  | abort        => terminalStatuses

theorem past_of_edge (h : s ∈ type.pastStatuses) (e : Edge s s') : s' ∈ type.pastStatuses := by
  have ht := e.not_terminal
  cases type
  case abort => exact absurd h ht
  case returnToBase =>
    obtain rfl := (List.mem_cons.mp h).resolve_right ht
    cases e
    case advance h _ _ _ => exact absurd h (by decide)
    case beginReturn h   => exact absurd h (by decide)
    all_goals decide

theorem legal_or_past_of_edge (h : s ∈ type.legalStatuses) (e : Edge s s') :
    s' ∈ type.legalStatuses ∨ s' ∈ type.pastStatuses := by
  have hlt := e.rank_lt
  cases type <;> cases s <;> cases s' <;> simp_all +decide

-- A delivery never leaves the statuses in which a command may be issued, except for good.
theorem legal_or_past_of_leads (h : s ∈ type.legalStatuses ∨ s ∈ type.pastStatuses)
    (hl : Leads s s') : s' ∈ type.legalStatuses ∨ s' ∈ type.pastStatuses := by
  induction hl
  case refl => exact h
  case tail e ih =>
    obtain h | h := ih
    case inl => exact legal_or_past_of_edge h e
    case inr => exact .inr <| past_of_edge h e

theorem past_of_leads (h : s ∈ type.pastStatuses) (hl : Leads s s') : s' ∈ type.pastStatuses := by
  induction hl
  case refl      => exact h
  case tail e ih => exact past_of_edge ih e

variable {reason : DeliveryFailureReason}

@[simp]
theorem source_transition : (type.transition reason).source s ↔ s ∈ type.legalStatuses := by
  cases type <;> simp [transition, Transition.source, legalStatuses]

theorem target_transition : (type.transition reason).target ∈ type.pastStatuses := by
  cases type <;> simp [transition, Transition.target, pastStatuses, terminalStatuses]

theorem ne_scheduled_of_legal (h : s ∈ type.legalStatuses) : s ≠ .scheduled := by
  cases type <;> revert h <;> cases s <;> decide

theorem not_legal_of_past (h : s ∈ type.pastStatuses) : s ∉ type.legalStatuses := by
  cases type <;> cases s <;> revert h <;> decide

theorem transition_lawful : (type.transition reason).Lawful := by
  cases type
  case returnToBase => trivial
  case abort        => exact fun _ => .inr

end DroneCommandType

end Drovery
