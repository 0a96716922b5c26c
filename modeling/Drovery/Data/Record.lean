import Mathlib.Data.List.Basic

-- A partial assignment of values to keys, where the first value that is given for a key counts.
abbrev Record (κ ν : Type) := List (κ × ν)

namespace Record

variable {κ ν : Type} [DecidableEq κ]

-- The values of those keys among the given ones that are defined.
def pick (r : Record κ ν) (keys : List κ) : Record κ ν :=
  keys.filterMap fun key => (r.lookup key).map (key, ·)

-- The values that the latest of some records gives, where the latest record comes first.
def replay : List (Record κ ν) → κ → Option ν
  | [],      _   => none
  | r :: rs, key => r.lookup key <|> replay rs key

-- Overlays `after` and drops the keys that are only in `before`.
def patch (r before after : Record κ ν) : Record κ ν :=
  (after ++ r).filter fun e => e.fst ∉ before.map Prod.fst ∨ e.fst ∈ after.map Prod.fst

-- Replaying the records yields the given values of all keys.
def Explains (rs : List (Record κ ν)) (keys : List κ) (r : Record κ ν) : Prop :=
  ∀ key ∈ keys, replay rs key = r.lookup key

section

variable [DecidableEq ν]

-- The keys that two records disagree on.
def changed (b a : Record κ ν) : List κ :=
  (b.map Prod.fst ++ a.map Prod.fst).eraseDups.filter fun key => b.lookup key ≠ a.lookup key

end

variable {r r' a b : Record κ ν} {rs : List (Record κ ν)} {keys : List κ} {key : κ}

theorem lookup_eq_none (h : key ∉ r.map Prod.fst) : r.lookup key = none :=
  List.lookup_eq_none_iff.mpr fun e he => bne_iff_ne.mpr fun hk =>
    h <| List.mem_map.mpr ⟨e, he, hk.symm⟩

theorem isSome_lookup (h : key ∈ r.map Prod.fst) : (r.lookup key).isSome := by
  refine Option.isSome_iff_ne_none.mpr fun hn => ?_
  have ⟨e, he, hk⟩ := List.mem_map.mp h
  exact bne_iff_ne.mp (List.lookup_eq_none_iff.mp hn e he) hk.symm

theorem lookup_pick : (pick r keys).lookup key = if key ∈ keys then r.lookup key else none := by
  induction keys
  case nil => rfl
  case cons k keys ih =>
    cases hk : r.lookup k
    case none =>
      rw [pick, List.filterMap_cons_none (by rw [hk, Option.map_none]), ← pick, ih]
      by_cases h : key = k
      case pos => rw [h, hk, ite_self, ite_self]
      case neg => simp [h]
    case some v =>
      rw [pick, List.filterMap_cons_some (by rw [hk, Option.map_some]), ← pick, List.lookup_cons, ih]
      by_cases h : key = k
      case pos => simp [h, hk]
      case neg => simp [h, beq_eq_false_iff_ne.mpr h]

theorem keys_pick_subset : (pick r keys).map Prod.fst ⊆ keys := by
  intro key h
  have ⟨⟨k, v⟩, he, hk⟩ := List.mem_map.mp h
  have ⟨k', hm, hv⟩ := List.mem_filterMap.mp he
  have ⟨_, _, hv⟩ := Option.map_eq_some_iff.mp hv
  have := (Prod.mk.inj hv).left
  exact hk ▸ this ▸ hm

theorem mem_keys_iff : key ∈ r.map Prod.fst ↔ (r.lookup key).isSome := by
  constructor
  case mp => exact isSome_lookup
  case mpr =>
    intro h
    by_contra hn
    simp [lookup_eq_none hn] at h

theorem lookup_append : (r ++ r').lookup key = (r.lookup key).or (r'.lookup key) := by
  induction r
  case nil => rfl
  case cons e r ih =>
    rw [List.cons_append, List.lookup_cons, List.lookup_cons, ih]
    split <;> rfl

theorem lookup_filter {p : κ → Bool} :
    (r.filter fun e => p e.fst).lookup key = if p key then r.lookup key else none := by
  induction r
  case nil => simp
  case cons e r ih =>
    have hk : key = e.fst ∨ (key == e.fst) = false := or_iff_not_imp_left.mpr beq_eq_false_iff_ne.mpr
    by_cases hp : p e.fst
    case pos =>
      rw [List.filter_cons, if_pos hp, List.lookup_cons, List.lookup_cons, ih]
      cases hk
      case inl hk => simp [hk, hp]
      case inr hk => simp [hk]
    case neg =>
      rw [List.filter_cons, if_neg hp, List.lookup_cons, ih]
      cases hk
      case inl hk => simp [hk, hp]
      case inr hk => simp [hk]

theorem lookup_patch : (patch r b a).lookup key =
    if (b.lookup key).isSome ∧ a.lookup key = none then none else (a.lookup key).or (r.lookup key) := by
  rw [patch, lookup_filter (p := fun k => k ∉ b.map Prod.fst ∨ k ∈ a.map Prod.fst), lookup_append]
  simp only [mem_keys_iff, decide_eq_true_eq]
  cases b.lookup key <;> cases a.lookup key <;> simp

section

variable [DecidableEq ν]

theorem mem_changed_iff : key ∈ changed b a ↔ b.lookup key ≠ a.lookup key := by
  rw [changed, List.mem_filter, List.mem_eraseDups, decide_eq_true_iff, and_iff_right_iff_imp]
  intro hne
  by_contra hn
  have ⟨hb, ha⟩ := not_or.mp <| mt List.mem_append.mpr hn
  exact hne <| (lookup_eq_none hb).trans (lookup_eq_none ha).symm

theorem lookup_pick_changed : (pick a <| changed b a).lookup key =
    if b.lookup key ≠ a.lookup key then a.lookup key else none := by
  rw [lookup_pick]
  exact if_congr mem_changed_iff rfl rfl

theorem mem_keys_changed_iff : key ∈ (pick b <| changed b a).map Prod.fst ∨
    key ∈ (pick a <| changed b a).map Prod.fst ↔ b.lookup key ≠ a.lookup key := by
  rw [mem_keys_iff, mem_keys_iff, lookup_pick, lookup_pick]
  simp only [mem_changed_iff]
  cases b.lookup key <;> cases a.lookup key <;> simp

-- The values that have changed, on both sides, lead from one record to the other.
theorem lookup_patch_changed : (patch b (pick b <| changed b a) (pick a <| changed b a)).lookup key =
    a.lookup key := by
  rw [lookup_patch, lookup_pick, lookup_pick]
  simp only [mem_changed_iff]
  cases hb : b.lookup key <;> cases ha : a.lookup key <;> simp
  case some.some v w =>
    by_cases h : v = w
    case pos => simp [h]
    case neg => simp [h]

theorem lookup_patch_changed' : (patch a (pick a <| changed b a) (pick b <| changed b a)).lookup key =
    b.lookup key := by
  have hc : (pick a <| changed b a).lookup key = (pick a <| changed a b).lookup key := by
    simp only [lookup_pick, mem_changed_iff, ne_comm]
  have hc' : (pick b <| changed b a).lookup key = (pick b <| changed a b).lookup key := by
    simp only [lookup_pick, mem_changed_iff, ne_comm]
  rw [lookup_patch, hc, hc', ← lookup_patch, lookup_patch_changed]

-- Recording what has changed since an earlier state `b` explains the new state `a` if and only if
-- what is the same as in the earlier state has not been changed at all.
theorem explains_changed_iff (h : Explains rs keys r) (ha : ∀ key ∈ keys, (a.lookup key).isSome) :
    Explains (pick a (changed b a) :: rs) keys a ↔
      ∀ key ∈ keys, b.lookup key = a.lookup key → r.lookup key = a.lookup key := by
  refine forall₂_congr fun key hk => ?_
  have ⟨v, hv⟩ := Option.isSome_iff_exists.mp <| ha key hk
  rw [replay, lookup_pick_changed, h key hk]
  by_cases hne : b.lookup key = a.lookup key
  case pos =>
    rw [if_neg (not_not.mpr hne), forall_prop_of_true hne]
    rfl
  case neg =>
    rw [if_pos hne, hv]
    exact iff_of_true rfl fun he => absurd (he.trans hv.symm) hne

end

end Record
