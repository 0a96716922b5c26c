import Mathlib.Data.Prod.Lex
import Drovery.Data.Ranking
import Drovery.Theorems.Energy

namespace Drovery.FlightFeasibility

section Order

variable {a b c : RankedCandidate}

-- The lexicographic order of the candidates.
noncomputable def RankedCandidate.key (c : RankedCandidate) : ℝ ×ₗ ℝ ×ₗ Nat :=
  toLex (c.drone.maxPayloadKg, toLex (c.missionKm, c.drone.id))

theorem rankLE_iff : rankLE a b ↔ a.key ≤ b.key := by
  rw [rankLE, RankedCandidate.key, RankedCandidate.key, Prod.Lex.toLex_le_toLex, Prod.Lex.toLex_le_toLex]

instance : Std.Total rankLE where
  total _ _ := by simp only [rankLE_iff]; exact le_total _ _

instance : IsTrans RankedCandidate rankLE where
  trans _ _ _ := by simp only [rankLE_iff]; exact le_trans

theorem id_eq_of_key (h : a.key = b.key) : a.drone.id = b.drone.id :=
  congrArg (fun k => (ofLex (ofLex k).snd).snd) h

theorem id_eq_of_rankLE (h : rankLE a b) (h' : rankLE b a) : a.drone.id = b.drone.id :=
  id_eq_of_key <| le_antisymm (rankLE_iff.mp h) (rankLE_iff.mp h')

-- Only candidates of one aircraft are equal in the order.
theorem key_lt_of_rankLE (h : rankLE a b) (hi : a.drone.id ≠ b.drone.id) : a.key < b.key :=
  lt_of_le_of_ne (rankLE_iff.mp h) (hi ∘ id_eq_of_key)

end Order

section Candidates

variable {drones drones' : List FeasibilityAircraft} {route : MissionRoute} {payloadKg : ℝ}

theorem filterMap_rankCandidate : drones.filterMap (rankCandidate route payloadKg) =
    (drones.filter fun drone => (assessFeasibility drone route payloadKg).feasible).map
      fun drone => ⟨drone, missionDistanceKm drone route⟩ := by
  induction drones
  case nil => rfl
  case cons drone drones ih =>
    by_cases h : (assessFeasibility drone route payloadKg).feasible
    case pos => simp [rankCandidate, h, ih]
    case neg => simp [rankCandidate, h, ih]

-- Every aircraft that is feasible is a candidate with its own distance, and there are no others.
theorem rankCandidates_perm : (rankCandidates drones route payloadKg).Perm
    ((drones.filter fun drone => (assessFeasibility drone route payloadKg).feasible).map
      fun drone => ⟨drone, missionDistanceKm drone route⟩) :=
  filterMap_rankCandidate ▸ List.perm_insertionSort rankLE _

theorem rankCandidates_nodup (hn : (drones.map (·.id)).Nodup) :
    ((rankCandidates drones route payloadKg).map (·.drone.id)).Nodup := by
  have hp := (@rankCandidates_perm drones route payloadKg).map (·.drone.id)
  rw [List.map_map] at hp
  exact hp.nodup_iff.mpr <| hn.sublist <| List.filter_sublist.map _

theorem rankCandidates_sorted (hn : (drones.map (·.id)).Nodup) :
    (rankCandidates drones route payloadKg).Pairwise (·.key < ·.key) := by
  have hs := List.pairwise_insertionSort rankLE (drones.filterMap <| rankCandidate route payloadKg)
  have hi := List.pairwise_map.mp <| @rankCandidates_nodup drones route payloadKg hn
  exact (hs.and hi).imp fun h => key_lt_of_rankLE h.left h.right

-- A list has only one strictly sorted permutation.
theorem rankCandidates_eq_of_perm (hn : (drones.map (·.id)).Nodup) (hp : drones'.Perm drones) :
    rankCandidates drones' route payloadKg = rankCandidates drones route payloadKg := by
  have hn' : (drones'.map (·.id)).Nodup := (hp.map _).nodup_iff.mpr hn
  have hr : (rankCandidates drones' route payloadKg).Perm (rankCandidates drones route payloadKg) :=
    rankCandidates_perm.trans <| ((hp.filter _).map _).trans rankCandidates_perm.symm
  have antisymm (a b : RankedCandidate) (h : a.key < b.key) (h' : b.key < a.key) : a = b :=
    absurd h' h.not_gt
  exact hr.eq_of_pairwise (fun a b _ _ => antisymm a b) (rankCandidates_sorted hn') (rankCandidates_sorted hn)

-- The ranking does not depend on the order in which the database returns the aircraft.
theorem rankCandidates_canonical (hn : (drones.map (·.id)).Nodup) :
    (rankCandidates drones route payloadKg).Perm
      ((drones.filter fun drone => (assessFeasibility drone route payloadKg).feasible).map
        fun drone => ⟨drone, missionDistanceKm drone route⟩) ∧
    (rankCandidates drones route payloadKg).Pairwise (·.key < ·.key) ∧
    ∀ drones', drones'.Perm drones →
      rankCandidates drones' route payloadKg = rankCandidates drones route payloadKg :=
  ⟨rankCandidates_perm, rankCandidates_sorted hn, fun _ => rankCandidates_eq_of_perm hn⟩

end Candidates

-- Two identical aircraft, in either order.
theorem rankCandidates_canonical_twins :
    let route : MissionRoute := ⟨0, 0, 0, 1⟩
    let drone : FeasibilityAircraft := ⟨1, 5, 1000, 100, 0, 0, none, none⟩
    let twin : FeasibilityAircraft := ⟨2, 5, 1000, 100, 0, 0, none, none⟩
    rankCandidates [twin, drone] route 0 = rankCandidates [drone, twin] route 0 :=
  have ⟨_, _, h⟩ := rankCandidates_canonical (by simp)
  h _ (.swap _ _ _)

end Drovery.FlightFeasibility
