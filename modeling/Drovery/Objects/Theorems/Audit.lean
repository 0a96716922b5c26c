import Drovery.Objects.Audit

namespace Drovery

-- Every recorded field is on the allowlist of the action.
def Fields.Allowed (action : AdminAuditAction) (payload : Option Fields) : Prop :=
  ∀ fs ∈ payload, fs.map Prod.fst ⊆ auditFieldAllowlist action

structure AuditEntry.Permitted (e : AuditEntry) : Prop where
  before : Fields.Allowed e.action e.before
  after  : Fields.Allowed e.action e.after
  args   : Fields.Allowed e.action e.args

variable {action : AdminAuditAction} {fs b a : Fields} {source before after : Option Fields}
variable {key : Field}

namespace Fields

@[simp]
theorem getD_captured : (captured fs).getD [] = fs := by
  cases fs <;> rfl

theorem lookup_normalize : (normalize fs).lookup key = (fs.lookup key).map Value.normalize := by
  induction fs
  case nil => rfl
  case cons e fs ih =>
    rw [normalize, List.map_cons, List.lookup_cons, List.lookup_cons, ← normalize, ih]
    split <;> rfl

theorem Allowed.none : Allowed action none :=
  nofun

theorem Allowed.captured (h : fs.map Prod.fst ⊆ auditFieldAllowlist action) :
    Allowed action (captured fs) := by
  intro fs' hf
  unfold Fields.captured at hf
  split at hf
  case isTrue  => contradiction
  case isFalse => exact Option.some.inj hf ▸ h

theorem keys_normalize : (normalize fs).map Prod.fst = fs.map Prod.fst :=
  List.map_map ..

end Fields

theorem allowed_pickAllowed : Fields.Allowed action (pickAllowed action source) := by
  cases source
  case none => exact .none
  case some fs =>
    refine .captured ?_
    rw [Fields.keys_normalize]
    exact Record.keys_pick_subset

theorem lookup_pickAllowed : ((pickAllowed action (some fs)).getD []).lookup key =
    if key ∈ auditFieldAllowlist action then (fs.lookup key).map Value.normalize else none := by
  rw [pickAllowed, Option.bind_some, Fields.getD_captured, Fields.lookup_normalize,
    Record.lookup_pick]
  split <;> rfl

-- What is on the allowlist and what is recorded of a row are the same fields.
theorem allowed_changed (hb : Fields.Allowed action before) (ha : Fields.Allowed action after) :
    Record.changed (before.getD []) (after.getD []) ⊆ auditFieldAllowlist action := by
  have allowed {payload : Option Fields} (h : Fields.Allowed action payload) :
      (payload.getD []).map Prod.fst ⊆ auditFieldAllowlist action := by
    cases payload
    case none    => exact List.nil_subset _
    case some fs => exact h fs rfl
  intro key hk
  have hk := List.mem_eraseDups.mp <| List.mem_of_mem_filter hk
  cases List.mem_append.mp hk
  case inl hk => exact allowed hb hk
  case inr hk => exact allowed ha hk

theorem allowed_diffAllowed : Fields.Allowed action (diffAllowed action before after).fst ∧
    Fields.Allowed action (diffAllowed action before after).snd := by
  have changed := @allowed_changed action (pickAllowed action before) (pickAllowed action after)
    allowed_pickAllowed allowed_pickAllowed
  exact ⟨.captured <| List.Subset.trans Record.keys_pick_subset changed,
    .captured <| List.Subset.trans Record.keys_pick_subset changed⟩

end Drovery
