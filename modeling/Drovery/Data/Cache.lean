import Mathlib.Algebra.GroupWithZero.Nat
import Mathlib.Data.List.Basic
import Mathlib.Logic.Function.Basic

-- A map whose entries expire. The clock is part of it, and an entry is gone as soon as the clock
-- reaches the end of its life.
structure Cache (κ ν : Type) where
  entries : κ → Option (ν × Nat) := fun _ => none
  now     : Nat                  := 0

namespace Cache

inductive Op (κ ν : Type)
  | set (k : κ) (v : ν) (ttl : Nat)
  | del (k : κ)
  | tick (d : Nat)

variable {κ ν : Type} [DecidableEq κ]

def get (c : Cache κ ν) (k : κ) : Option ν :=
  ((c.entries k).filter fun (_, expiry) => c.now < expiry).map Prod.fst

def set (c : Cache κ ν) (k : κ) (v : ν) (ttl : Nat) : Cache κ ν :=
  { c with entries := Function.update c.entries k <| some (v, c.now + ttl) }

def del (c : Cache κ ν) (k : κ) : Cache κ ν :=
  { c with entries := Function.update c.entries k none }

def tick (c : Cache κ ν) (d : Nat) : Cache κ ν :=
  { c with now := c.now + d }

def exec (c : Cache κ ν) : Op κ ν → Cache κ ν
  | .set k v ttl => c.set k v ttl
  | .del k       => c.del k
  | .tick d      => c.tick d

-- What remains of a cache after some operations, where the latest operation comes first.
def after : List (Op κ ν) → Cache κ ν
  | []        => {}
  | op :: ops => (after ops).exec op

-- The operation replaces or drops what is cached for a key.
def Op.Overwrites (k : κ) : Op κ ν → Prop
  | set k' ..  => k' = k
  | del k'     => k' = k
  | tick _     => False

def Op.duration : Op κ ν → Nat
  | tick d => d
  | _      => 0

-- The time that the operations take.
def elapsed (ops : List (Op κ ν)) : Nat :=
  (ops.map Op.duration).sum

variable {c : Cache κ ν} {k k' : κ} {v : ν} {ttl d expiry : Nat} {op : Op κ ν}
variable {ops newer older : List (Op κ ν)}

theorem entries_exec (h : ¬op.Overwrites k) : (c.exec op).entries k = c.entries k := by
  cases op
  case set  => exact Function.update_of_ne (Ne.symm h) ..
  case del  => exact Function.update_of_ne (Ne.symm h) ..
  case tick => rfl

theorem now_exec : (c.exec op).now = c.now + op.duration := by
  cases op <;> rfl

theorem now_after (ops : List (Op κ ν)) : (after ops).now = elapsed ops := by
  induction ops
  case nil => rfl
  case cons op ops ih => simp [after, now_exec, ih, elapsed, Nat.add_comm]

-- What is cached has been stored by the latest operation on its key.
theorem entries_after (h : (after ops).entries k = some (v, expiry)) :
    ∃ newer ttl older, ops = newer ++ .set k v ttl :: older ∧ expiry = (after older).now + ttl ∧
      ∀ op ∈ newer, ¬op.Overwrites k := by
  induction ops
  case nil => cases h
  case cons op ops ih =>
    by_cases ho : op.Overwrites k
    case neg =>
      rw [after, entries_exec ho] at h
      obtain ⟨newer, ttl, older, hl, he, hn⟩ := ih h
      refine ⟨op :: newer, ttl, older, by rw [hl, List.cons_append], he, ?_⟩
      simpa using ⟨ho, hn⟩
    case pos =>
      cases op
      case tick => cases ho
      case del k' =>
        cases ho
        simp [after, exec, del] at h
      case set k' v' ttl =>
        cases ho
        simp only [after, exec, set, Function.update_self, Option.some.injEq, Prod.mk.injEq] at h
        exact ⟨[], ttl, ops, by rw [h.left, List.nil_append], h.right.symm, by simp⟩

-- What a cache answers has been stored less than its time to live ago, and neither replaced nor
-- dropped since.
theorem get_after (h : (after ops).get k = some v) :
    ∃ newer ttl older, ops = newer ++ .set k v ttl :: older ∧ elapsed newer < ttl ∧
      ∀ op ∈ newer, ¬op.Overwrites k := by
  obtain ⟨⟨v', expiry⟩, hf, hv⟩ := Option.map_eq_some_iff.mp h
  obtain ⟨he, hlt⟩ := Option.filter_eq_some_iff.mp hf
  cases hv
  obtain ⟨newer, ttl, older, hl, hx, hn⟩ := entries_after he
  refine ⟨newer, ttl, older, hl, ?_, hn⟩
  rw [decide_eq_true_eq, now_after, hl, hx, now_after] at hlt
  simp [elapsed, Op.duration] at hlt ⊢
  omega

end Cache
