import Drovery.Objects.AuditFields

namespace Drovery.AuditFields

-- The allowed projection of a record.
def allowed (action : AdminAuditAction) (source : Option Fields) : Image :=
  (pickAllowed action source).getD []

-- The returned images of what was before and of what is after.
def beforeImage (action : AdminAuditAction) (before after : Option Fields) : Image :=
  (diffAllowed action before after).fst.getD []

def afterImage (action : AdminAuditAction) (before after : Option Fields) : Image :=
  (diffAllowed action before after).snd.getD []

section

variable {action : AdminAuditAction} {before after source : Option Fields} {b a out : Image} {key : String}

@[simp]
theorem getD_captured : (captured out).getD [] = out := by
  cases out <;> rfl

theorem bounded_normalize {v : Value} : (normalize v).bounded = normalize v := by
  cases v
  case json v h => exact h
  case date     => rw [normalize, Json.bounded.eq_def]

-- The text of a value determines it, so that the texts of two values differ whenever they do.
theorem texts_eq_iff {v w : Option Value} :
    (v.map normalize).map Json.stringify = (w.map normalize).map Json.stringify ↔
      v.map normalize = w.map normalize := by
  cases v <;> cases w
  case some.some => simp [Json.stringify_inj, bounded_normalize]
  all_goals simp

theorem lookup_allowed : (allowed action source).lookup key =
    if key ∈ allowlist action then (source.bind (·.get key)).map normalize else none := by
  cases source
  case none => exact (ite_self _).symm
  case some source =>
    rw [allowed, pickAllowed, Option.bind_some, getD_captured, Option.bind_some]
    generalize allowlist action = keys
    induction keys
    case nil => rfl
    case cons k keys ih =>
      cases hk : source.get k
      case none =>
        rw [List.filterMap_cons_none (by rw [hk, Option.map_none]), ih]
        by_cases h : key = k
        case pos => rw [h, hk, Option.map_none, ite_self, ite_self]
        case neg => simp [h]
      case some v =>
        rw [List.filterMap_cons_some (by rw [hk, Option.map_some]), List.lookup_cons, ih]
        by_cases h : key = k
        case pos => simp [h, hk]
        case neg => simp [h, beq_eq_false_iff_ne.mpr h]

theorem changed_eq : (((allowed action before).map Prod.fst ++
    (allowed action after).map Prod.fst).eraseDups.filter fun key =>
      ((allowed action before).lookup key).map Json.stringify ≠
        ((allowed action after).lookup key).map Json.stringify) =
      (allowed action before).changed (allowed action after) := by
  refine List.filter_congr fun key _ => decide_eq_decide.mpr <| not_congr ?_
  rw [lookup_allowed, lookup_allowed]
  by_cases h : key ∈ allowlist action
  case pos => rw [if_pos h, if_pos h, texts_eq_iff]
  case neg => simp [if_neg h]

theorem beforeImage_eq : beforeImage action before after =
    (allowed action before).pick ((allowed action before).changed (allowed action after)) := by
  rw [beforeImage, diffAllowed, ← changed_eq, getD_captured]
  rfl

theorem afterImage_eq : afterImage action before after =
    (allowed action after).pick ((allowed action before).changed (allowed action after)) := by
  rw [afterImage, diffAllowed, ← changed_eq, getD_captured]
  rfl

-- Both images list allowed keys only, namely those whose allowed values differ. Together they lead from
-- what was allowed of the one record to what is allowed of the other.
theorem diffAllowed_exact (action : AdminAuditAction) (before after : Option Fields) :
    (∀ key, key ∈ (beforeImage action before after).map Prod.fst ∨
        key ∈ (afterImage action before after).map Prod.fst → key ∈ allowlist action) ∧
    (∀ key, key ∈ (beforeImage action before after).map Prod.fst ∨
        key ∈ (afterImage action before after).map Prod.fst ↔ key ∈ allowlist action ∧
          (before.bind (·.get key)).map normalize ≠ (after.bind (·.get key)).map normalize) ∧
    (∀ key, ((allowed action before).patch (beforeImage action before after)
        (afterImage action before after)).lookup key = (allowed action after).lookup key) ∧
    (∀ key, ((allowed action after).patch (afterImage action before after)
        (beforeImage action before after)).lookup key = (allowed action before).lookup key) := by
  have differ (key : String) : key ∈ (beforeImage action before after).map Prod.fst ∨
      key ∈ (afterImage action before after).map Prod.fst ↔ key ∈ allowlist action ∧
        (before.bind (·.get key)).map normalize ≠ (after.bind (·.get key)).map normalize := by
    rw [beforeImage_eq, afterImage_eq, Record.mem_keys_changed_iff, lookup_allowed, lookup_allowed]
    by_cases h : key ∈ allowlist action
    case pos => simp [h]
    case neg => simp [h]
  refine ⟨fun key h => ((differ key).mp h).left, differ, fun key => ?forward, fun key => ?backward⟩
  case forward  => rw [beforeImage_eq, afterImage_eq, Record.lookup_patch_changed]
  case backward =>
    rw [beforeImage_eq, afterImage_eq, Record.lookup_patch_changed']

end

end Drovery.AuditFields
