import Mathlib.Algebra.Order.Group.Nat
import Drovery.Data.Table

-- A table whose keys are drawn from a counter, so that no key is ever used twice.
structure Serial (ρ : Type) where
  table : Table Nat ρ
  next  : Nat
  fresh : ∀ k r, table.find? k = some r → k < next

namespace Serial

variable {ρ ι : Type}

abbrev find? (t : Serial ρ) (k : Nat) : Option ρ :=
  t.table.find? k

def empty : Serial ρ where
  table     := .empty
  next      := 0
  fresh _ _ := nofun

-- Adds a row under the next key.
def create (t : Serial ρ) (r : ρ) : Serial ρ where
  table := {
    rows  := t.table.rows ++ [(t.next, r)]
    nodup := by
      rw [List.map_append, List.nodup_append]
      refine ⟨t.table.nodup, List.nodup_singleton _, fun k hk k' hk' he => ?_⟩
      have ⟨⟨_, r'⟩, hr', hk⟩ := List.mem_map.mp hk
      have hlt := t.fresh k r' <| Table.find?_eq_some_iff.mpr <| hk ▸ hr'
      rw [he, List.mem_singleton.mp hk'] at hlt
      exact lt_irrefl _ hlt
  }
  next  := t.next + 1
  fresh k r' h := by
    cases List.mem_append.mp <| Table.find?_eq_some_iff.mp h
    case inl h => exact (t.fresh k r' <| Table.find?_eq_some_iff.mpr h).trans <| Nat.lt_succ_self _
    case inr h =>
      have := (Prod.mk.inj <| List.mem_singleton.mp h).left
      exact this ▸ Nat.lt_succ_self _

def updateMany (t : Serial ρ) (p : Nat → ρ → Bool) (f : ρ → ρ) : Serial ρ where
  table := t.table.updateMany p f
  next  := t.next
  fresh k r h := by
    rw [Table.find?_updateMany] at h
    have ⟨r', hr', _⟩ := Option.map_eq_some_iff.mp h
    exact t.fresh k r' hr'

def modify (t : Serial ρ) (k : Nat) (f : ρ → ρ) : Serial ρ :=
  t.updateMany (fun k' _ => k' = k) f

def erase (t : Serial ρ) (k : Nat) : Serial ρ where
  table     := t.table.erase k
  next      := t.next
  fresh _ _ := fun h => t.fresh _ _ <| Table.find?_erase_eq_some h

variable {t t' t'' : Serial ρ} {owner : ρ → ι} {k k' : Nat} {r : ρ} {i : ι} {f : ρ → ρ}
variable {p : Nat → ρ → Bool}

theorem insert_next : t.table.insert t.next r = some (t.create r).table := by
  have hn : t.next ∉ t.table.rows.map Prod.fst := by
    refine Table.find?_eq_none_iff.mp <| Option.eq_none_iff_forall_ne_some.mpr fun r' hr' => ?_
    exact lt_irrefl _ <| t.fresh _ r' hr'
  rw [Table.insert, dif_neg hn]
  rfl

theorem find?_create : (t.create r).find? k = if k = t.next then some r else t.find? k :=
  Table.find?_insert insert_next

theorem find?_updateMany :
    (t.updateMany p f).find? k = (t.find? k).map fun r => if p k r then f r else r :=
  Table.find?_updateMany

theorem find?_modify : (t.modify k f).find? k' = if k' = k then (t.find? k).map f else t.find? k' :=
  Table.find?_modify

theorem find?_erase : (t.erase k).find? k' = if k' = k then none else t.find? k' :=
  Table.find?_erase

-- What no operation violates: a row keeps its owner, and new rows have new keys.
structure Descends (owner : ρ → ι) (t t' : Serial ρ) : Prop where
  next : t.next ≤ t'.next
  rows : ∀ k r', t'.find? k = some r' →
    (∃ r, t.find? k = some r ∧ owner r = owner r') ∨ k = t.next ∧ k < t'.next

-- The key `k` is taken, and the only row that can have it belongs to `i`.
structure Owned (t : Serial ρ) (owner : ρ → ι) (k : Nat) (i : ι) : Prop where
  taken : k < t.next
  owner : ∀ r, t.find? k = some r → owner r = i

theorem Owned.of_find? (h : t.find? k = some r) : t.Owned owner k (owner r) where
  taken    := t.fresh k r h
  owner _  := fun h' => congrArg owner <| Option.some.inj <| h'.symm.trans h

theorem Owned.descends (h : t.Owned owner k i) (hd : Descends owner t t') :
    t'.Owned owner k i := by
  refine ⟨h.taken.trans_le hd.next, fun r hr => ?_⟩
  cases hd.rows k r hr
  case inl hold =>
    have ⟨r', hr', ho⟩ := hold
    exact ho ▸ h.owner r' hr'
  case inr hnew => exact absurd hnew.left h.taken.ne

namespace Descends

theorem refl : Descends owner t t where
  next     := le_rfl
  rows _ _ := fun h => .inl ⟨_, h, rfl⟩

theorem create : Descends owner t (t.create r) := by
  refine ⟨Nat.le_succ _, fun k r' hr => ?_⟩
  rw [find?_create] at hr
  split at hr
  case isTrue hk => exact .inr ⟨hk, hk ▸ Nat.lt_succ_self _⟩
  case isFalse   => exact .inl ⟨r', hr, rfl⟩

theorem updateMany (hf : ∀ r, owner (f r) = owner r) : Descends owner t (t.updateMany p f) := by
  refine ⟨le_rfl, fun k r hr => .inl ?_⟩
  rw [find?_updateMany] at hr
  have ⟨r', hr', he⟩ := Option.map_eq_some_iff.mp hr
  refine ⟨r', hr', ?_⟩
  split at he
  case isTrue  => exact he ▸ (hf r').symm
  case isFalse => exact he ▸ rfl

theorem erase : Descends owner t (t.erase k) where
  next     := le_rfl
  rows _ r := fun h => .inl ⟨r, Table.find?_erase_eq_some h, rfl⟩

theorem trans (h : Descends owner t t') (h' : Descends owner t' t'') (hn : t'.next = t.next) :
    Descends owner t t'' := by
  refine ⟨h.next.trans h'.next, fun k r hr => ?_⟩
  cases h'.rows k r hr
  case inr hnew => exact .inr <| hn ▸ hnew
  case inl hold =>
    have ⟨r', hr', ho⟩ := hold
    refine (h.rows k r' hr').imp (fun ⟨r'', hr'', ho'⟩ => ⟨r'', hr'', ho'.trans ho⟩) fun hnew => ?_
    exact ⟨hnew.left, hnew.right.trans_le h'.next⟩

end Descends

end Serial
