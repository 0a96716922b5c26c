import Drovery.Services.Mqtt

namespace Drovery.MqttService

-- The client resends what it has buffered before it reports that it is connected, i.e. by then the
-- callbacks of these publishes have been fired.
def Resent (s : MqttService) : Event → Prop
  | .connect => s.buffered = 0
  | _        => True

def Resends (max : Nat) (s : MqttService) : List Event → Prop
  | []          => True
  | e :: events => s.Resent e ∧ Resends max (s.exec max e) events

-- What a publish or a callback does to the number of buffered publishes and to the counter.
inductive Change (max : Nat) (s s' : MqttService) : Prop
  | same (counter : s'.offlineQueued = s.offlineQueued) (buffered : s'.buffered = s.buffered)
  | queued (room : s.offlineQueued < max) (counter : s'.offlineQueued = s.offlineQueued + 1)
    (buffered : s'.buffered = s.buffered + 1)
  | fired (counter : s'.offlineQueued = s.offlineQueued - 1)
    (buffered : s.buffered = s'.buffered + 1)

-- The counter is exact.
structure Exact (max : Nat) (s : MqttService) : Prop where
  eq    : s.offlineQueued = s.buffered
  bound : s.buffered ≤ max

section

variable {s s' : MqttService} {max n : Nat} {e : Event} {events : List Event} {offline : Bool}

@[simp]
theorem dequeue_buffered : (s.dequeue offline).buffered = s.buffered := by
  unfold dequeue; split <;> rfl

theorem dequeue_false : s.dequeue false = s :=
  if_neg (by simp)

theorem dequeue_true : (s.dequeue true).offlineQueued = s.offlineQueued - 1 := by
  unfold dequeue
  split
  case isTrue => rfl
  case isFalse hn =>
    have : s.offlineQueued = 0 := by simpa using hn
    rw [this]

theorem publish_of_connected (hc : s.connected) : s.publish max false = { s with
    published := s.published + 1
    inflight  := { id := s.published, offline := false } :: s.inflight } := by
  simp [publish, hc]

theorem publish_full (hc : s.connected = false) (hq : max ≤ s.offlineQueued) {throws : Bool} :
    s.publish max throws = s := by
  simp [publish, hc, hq]

theorem publish_accepted (hc : s.connected = false) (hq : s.offlineQueued < max) :
    s.publish max false = { s with
      offlineQueued := s.offlineQueued + 1
      published     := s.published + 1
      inflight      := { id := s.published, offline := true } :: s.inflight } := by
  simp [publish, hc, Nat.not_le_of_lt hq]

-- What has been counted before the client throws is not counted any more.
theorem publish_thrown : s.publish max true = s := by
  obtain ⟨connected, _, _, _⟩ := s
  cases connected <;> simp [publish, dequeue]

theorem publish_change (max : Nat) (throws : Bool) : Change max s (s.publish max throws) := by
  cases throws
  case true =>
    rw [publish_thrown]
    exact .same rfl rfl
  case false =>
    cases hc : s.connected
    case true =>
      rw [publish_of_connected hc]
      exact .same rfl (by simp [buffered])
    case false =>
      by_cases hq : max ≤ s.offlineQueued
      case pos =>
        rw [publish_full hc hq]
        exact .same rfl rfl
      case neg =>
        have hq := Nat.lt_of_not_le hq
        rw [publish_accepted hc hq]
        exact .queued hq rfl (by simp [buffered])

theorem onPublished_change (max id : Nat) : Change max s (s.onPublished id) := by
  unfold onPublished
  split
  case h_1 => exact .same rfl rfl
  case h_2 p hf =>
    have ⟨hp, l, l', hl, hn⟩ := List.find?_eq_some_iff_append.mp hf
    have he : s.inflight.eraseP (·.id = id) = l ++ l' := by
      rw [hl, List.eraseP_append_right _ (by simpa using hn), List.eraseP_cons_of_pos (by exact hp)]
    have hb : s.buffered = (l ++ l').countP (·.offline) + if p.offline then 1 else 0 := by
      rw [buffered, hl, List.countP_append, List.countP_append, List.countP_cons, Nat.add_assoc]
    rw [he]
    cases ho : p.offline
    case false => exact .same (by rw [dequeue_false]) (by rw [dequeue_buffered, hb, ho]; rfl)
    case true  => exact .fired dequeue_true (by rw [dequeue_buffered, hb, ho]; rfl)

theorem Exact.change (h : s.Exact max) (hc : Change max s s') : s'.Exact max := by
  obtain ⟨he, hb⟩ := h
  cases hc <;> constructor <;> omega

theorem Exact.exec (h : s.Exact max) (hr : s.Resent e) : (s.exec max e).Exact max := by
  cases e
  case publish throws => exact h.change <| s.publish_change max throws
  case published id   => exact h.change <| s.onPublished_change max id
  case connack        => exact ⟨h.eq, h.bound⟩
  case close          => exact ⟨h.eq, h.bound⟩
  case connect        => exact ⟨hr.symm, h.bound⟩

theorem Exact.run (h : s.Exact max) (hr : Resends max s events) : (s.run max events).Exact max := by
  induction events generalizing s
  case nil => exact h
  case cons e events ih => exact ih (h.exec hr.left) hr.right

end

theorem Exact.init (max : Nat) : Exact max {} where
  eq    := rfl
  bound := Nat.zero_le _

instance Resent.decidable (s : MqttService) : (e : Event) → Decidable (s.Resent e)
  | .connect     => inferInstanceAs (Decidable (_ = _))
  | .publish _   => .isTrue trivial
  | .connack     => .isTrue trivial
  | .close       => .isTrue trivial
  | .published _ => .isTrue trivial

instance Resends.decidable (max : Nat) : (s : MqttService) → (events : List Event) →
    Decidable (Resends max s events)
  | _, []          => .isTrue trivial
  | s, e :: events =>
    @instDecidableAnd _ _ (Resent.decidable s e) (decidable max (s.exec max e) events)

end Drovery.MqttService
