import Drovery.Services.JobQueue

namespace Drovery

open SimulationService

section

variable {α : Type} [Add α] [Sub α] [Mul α] (num : ℚ → α)

-- The ids under which the jobs of the delivery `D` are enqueued.
inductive JobId (D : Uuid) : String → Prop
  | kickoff : JobId D (D.text ++ "-kickoff")
  | retry (attempt : Nat) : JobId D (D.text ++ "-kickoff-r" ++ toString attempt)
  | stage {i : Nat} : i < simStages.length → JobId D (D.text ++ ":stage:" ++ toString i)
  | pos {j : Nat} : j < positionTickCount num → JobId D (D.text ++ ":pos:" ++ toString j)

-- Every job has an id of its delivery.
def SimQueue.Named (q : SimQueue α) : Prop :=
  ∀ id job, q.find? id = some job → JobId num job.deliveryId id

-- The queue has been cleared of the jobs of the delivery `D`, and of nothing else.
structure SimQueue.Cleared (D : Uuid) (before after : SimQueue α) : Prop where
  own    : ∀ id job, after.find? id = some job → job.deliveryId = D → job.state ≠ .pending
  others : ∀ id job, before.find? id = some job → job.deliveryId ≠ D → after.find? id = some job

end

section

variable {α : Type} {q : SimQueue α} {D E : Uuid} {id : String} {n : Nat}

-- The id of a deferred kickoff is none of the others.
theorem retry_ne_kickoff : D.text ++ "-kickoff-r" ++ toString n ≠ D.text ++ "-kickoff" := by
  intro h
  rw [String.append_assoc] at h
  have h := congrArg (List.length ∘ String.toList) (Uuid.append_inj h).right
  simp at h

theorem retry_ne_colon {s t : String} (hs : s.toList.head? = some ':') :
    D.text ++ "-kickoff-r" ++ toString n ≠ D.text ++ s ++ t := by
  intro h
  rw [String.append_assoc, String.append_assoc] at h
  have h := congrArg (List.head? ∘ String.toList) (Uuid.append_inj h).right
  simp [hs] at h

theorem find?_foldl_remove {ids : List String} : (ids.foldl SimQueue.remove q).find? id =
    (q.find? id).filter fun job => ¬(id ∈ ids ∧ job.state ≠ .active) := by
  induction ids generalizing q
  case nil => cases hf : q.find? id <;> simp [hf, Option.filter]
  case cons head ids ih =>
    rw [List.foldl_cons, ih, SimQueue.remove, Table.find?_deleteMany, Option.filter_filter]
    congr
    funext job
    simp only [List.mem_cons, ← Bool.decide_and, ← decide_not]
    grind

end

section

variable {α : Type} [Add α] [Sub α] [Mul α] {num : ℚ → α} {D E : Uuid} {id : String} {job : Job α}
variable {q : SimQueue α} {n : Nat}

theorem length_ticks (w : FlightWindow α) :
    (w.ticks num).length = (w.endMs - w.startMs) / positionUpdateMs - 1 := by
  rw [FlightWindow.ticks, List.length_map, List.length_range']

-- The number of the ticks does not depend on the coordinates.
theorem length_buildPositionTicks (c : DeliveryCoords α) :
    (buildPositionTicks num c).length = positionTickCount num := by
  simp only [positionTickCount, buildPositionTicks, flightWindows, List.flatMap_cons, List.flatMap_nil,
    List.length_append, length_ticks]

namespace JobId

theorem append (h : JobId num D id) : ∃ s, id = D.text ++ s := by
  cases h
  case kickoff => exact ⟨_, rfl⟩
  all_goals exact ⟨_, String.append_assoc⟩

theorem eq (h : JobId num D id) (h' : JobId num E id) : D = E := by
  have ⟨_, hD⟩ := h.append
  have ⟨_, hE⟩ := h'.append
  exact (Uuid.append_inj <| hD.symm.trans hE).left

theorem of_mem_stoppedIds (h : id ∈ stoppedIds num D) : JobId num D id := by
  obtain h | h := List.mem_append.mp h
  case inr =>
    have ⟨j, hj, he⟩ := List.mem_map.mp h
    exact he ▸ .pos (List.mem_range.mp hj)
  case inl =>
    obtain h | h := List.mem_append.mp h
    case inl => exact List.mem_singleton.mp h ▸ .kickoff
    case inr =>
      have ⟨i, hi, he⟩ := List.mem_map.mp h
      exact he ▸ .stage (List.mem_range.mp hi)

-- All of the ids are removed, but those of the deferred kickoffs.
theorem stopped_or_retry (h : JobId num D id) :
    id ∈ stoppedIds num D ∨ ∃ n : Nat, id = D.text ++ "-kickoff-r" ++ toString n := by
  cases h
  case kickoff  => exact .inl <| List.mem_append_left _ <| List.mem_append_left _ <| .head _
  case retry n  => exact .inr ⟨n, rfl⟩
  case stage hi =>
    exact .inl <| List.mem_append_left _ <| List.mem_append_right _ <|
      List.mem_map_of_mem <| List.mem_range.mpr hi
  case pos hj   =>
    exact .inl <| List.mem_append_right _ <| List.mem_map_of_mem <| List.mem_range.mpr hj

end JobId

theorem retry_not_mem_stoppedIds : D.text ++ "-kickoff-r" ++ toString n ∉ stoppedIds num D := by
  intro h
  obtain h | h := List.mem_append.mp h
  case inr =>
    have ⟨_, _, he⟩ := List.mem_map.mp h
    exact retry_ne_colon rfl he.symm
  case inl =>
    obtain h | h := List.mem_append.mp h
    case inl => exact retry_ne_kickoff <| List.mem_singleton.mp h
    case inr =>
      have ⟨_, _, he⟩ := List.mem_map.mp h
      exact retry_ne_colon rfl he.symm

-- What remains of the jobs when those of a delivery have been removed.
theorem find?_stopSimulation : (stopSimulation num D q).find? id = some job ↔
    q.find? id = some job ∧ (id ∈ stoppedIds num D → job.state = .active) := by
  rw [stopSimulation, find?_foldl_remove, Option.filter_eq_some_iff]
  refine and_congr_right fun _ => ?_
  rw [decide_eq_true_iff, not_and, not_not]

namespace SimQueue.Named

theorem empty : Named num .empty :=
  fun _ _ h => nomatch h

theorem add (h : q.Named num) (hid : JobId num job.deliveryId id) : (q.add id job).Named num := by
  unfold SimQueue.add
  cases hi : q.insert id job
  case none => exact h
  case some =>
    intro id' job' hf
    rw [Option.getD_some, Table.find?_insert hi] at hf
    split at hf
    case isFalse => exact h id' job' hf
    case isTrue he =>
      cases hf
      exact he ▸ hid

theorem addBulk {jobs : List (String × Job α)} (h : q.Named num)
    (hid : ∀ job ∈ jobs, JobId num job.snd.deliveryId job.fst) : (q.addBulk jobs).Named num := by
  induction jobs generalizing q
  case nil => exact h
  case cons job jobs ih =>
    have ⟨hj, hjs⟩ := List.forall_mem_cons.mp hid
    exact ih (h.add hj) hjs

theorem startSimulation {coords : Option (PartialCoords α)} (h : q.Named num) :
    (startSimulation num D coords q).Named num := by
  refine h.addBulk fun job hj => ?_
  obtain hj | hj := List.mem_append.mp hj
  case inl =>
    have ⟨(stage, i), hm, he⟩ := List.mem_map.mp hj
    have ⟨_, hi, _⟩ := List.mem_zipIdx hm
    exact he ▸ .stage (by simpa using hi)
  case inr =>
    have ⟨(tick, j), hm, he⟩ := List.mem_map.mp hj
    have ⟨_, hj, _⟩ := List.mem_zipIdx hm
    rw [zero_add, length_buildPositionTicks] at hj
    exact he ▸ .pos hj

theorem exec (h : q.Named num) (op : SimOp α) : (op.exec num q).Named num := by
  cases op
  case startSimulation    => exact h.startSimulation
  case scheduleKickoff    => exact h.add .kickoff
  case deferKickoff n     => exact h.add (.retry n)
  case stopSimulation     => exact fun id job hf => h id job (find?_stopSimulation.mp hf).left
  case drop               => exact fun id job hf => h id job <| Table.find?_erase_eq_some hf
  case move jobId state   =>
    intro id job hf
    rw [SimOp.exec, Table.find?_modify] at hf
    split at hf
    case isFalse => exact h id job hf
    case isTrue he =>
      have ⟨job', hf, he'⟩ := Option.map_eq_some_iff.mp hf
      exact he ▸ he' ▸ h jobId job' hf

-- Every job that is enqueued is found under an id of its delivery, whatever happens.
theorem after (ops : List (SimOp α)) : (SimQueue.after num ops).Named num :=
  List.foldlRecOn ops _ empty fun _ h op _ => h.exec op

end SimQueue.Named

-- After any history, no pending job of a delivery survives its end if and only if no deferred kickoff
-- of the delivery is pending. The jobs of other deliveries always survive.
theorem stopSimulation_cleared_iff (ops : List (SimOp α)) (D : Uuid) :
    SimQueue.Cleared D (.after num ops) (stopSimulation num D (.after num ops)) ↔
      ∀ (attempt : Nat) job, (SimQueue.after num ops).find?
        (D.text ++ "-kickoff-r" ++ toString attempt) = some job → job.state ≠ .pending := by
  have named : (SimQueue.after num ops).Named num := .after ops
  constructor
  case mp =>
    intro h n job hf
    have hD := (named _ job hf).eq (.retry n)
    exact h.own _ job (find?_stopSimulation.mpr ⟨hf, fun hm => absurd hm retry_not_mem_stoppedIds⟩) hD
  case mpr =>
    intro h
    refine { own := fun id job hf hD hp => ?_, others := fun id job hf hD => ?_ }
    case refine_1 =>
      have ⟨hf, hs⟩ := find?_stopSimulation.mp hf
      obtain hm | ⟨n, rfl⟩ := (named id job hf).stopped_or_retry
      case inl => exact nomatch hp.symm.trans <| hs <| hD ▸ hm
      case inr => exact h n job (hD ▸ hf) hp
    case refine_2 =>
      refine find?_stopSimulation.mpr ⟨hf, fun hm => absurd ?_ hD⟩
      exact (named id job hf).eq <| .of_mem_stoppedIds hm

end

-- A kickoff is deferred because of the weather, and then the delivery is canceled.
def deferredOps : List (SimOp ℚ) := [
    .scheduleKickoff .small none 3600000 0,
    .move (Uuid.small.text ++ "-kickoff") .active,
    .deferKickoff .small (defaultCoords id) 1,
    .move (Uuid.small.text ++ "-kickoff") .finished
  ]

theorem deferred_not_cleared : ¬∀ (ops : List (SimOp ℚ)) (D : Uuid),
    SimQueue.Cleared D (.after id ops) (stopSimulation id D (.after id ops)) := by
  intro h
  let q := stopSimulation id .small (.after id deferredOps)
  have hq : (q.find? (Uuid.small.text ++ "-kickoff-r1")).any fun job =>
      job.deliveryId = .small ∧ job.state = .pending := by decide +kernel
  have ⟨job, hf, hj⟩ := (Option.any_eq_true _ _).mp hq
  have ⟨hD, hp⟩ := of_decide_eq_true hj
  exact (h deferredOps .small).own _ job hf hD hp

end Drovery
