import Mathlib.Data.List.Flatten
import Mathlib.Data.List.Nodup
import Mathlib.Data.List.Pairwise
import Mathlib.Data.List.Perm.Basic
import Mathlib.Order.Basic
import Mathlib.Order.Lattice
import Mathlib.Tactic.ByContra
import Mathlib.Tactic.SplitIfs

-- A leaf of a partitioned table holds the rows whose keys lie in its range.
structure Leaf (ν α ρ : Type) where
  name : ν
  lo   : α
  hi   : α
  rows : List ρ

namespace Leaf

variable {ν α ρ : Type} [LinearOrder α]

def Covers (l : Leaf ν α ρ) (a : α) : Prop :=
  l.lo ≤ a ∧ a < l.hi

instance {l : Leaf ν α ρ} : DecidablePred l.Covers :=
  fun _ => inferInstanceAs (Decidable (_ ∧ _))

def Overlaps (l l' : Leaf ν α ρ) : Prop :=
  l.lo < l'.hi ∧ l'.lo < l.hi

instance {l l' : Leaf ν α ρ} : Decidable (l.Overlaps l') :=
  inferInstanceAs (Decidable (_ ∧ _))

theorem Covers.overlaps {l l' : Leaf ν α ρ} {a : α} (h : l.Covers a) (h' : l'.Covers a) :
    l.Overlaps l' :=
  ⟨h.left.trans_lt h'.right, h'.left.trans_lt h.right⟩

end Leaf

-- A table that is partitioned by ranges of keys, where the default partition holds the rows that no
-- leaf covers.
@[ext]
structure Partitioned (ν : Type) {α ρ : Type} [LinearOrder α] (key : ρ → α) where
  leaves  : List (Leaf ν α ρ)
  default : List ρ
  named   : (leaves.map (·.name)).Nodup
  apart   : leaves.Pairwise fun l l' => ∀ a, l.Covers a → ¬l'.Covers a
  within  : ∀ l ∈ leaves, ∀ r ∈ l.rows, l.Covers (key r)
  rest    : ∀ r ∈ default, ∀ l ∈ leaves, ¬l.Covers (key r)

-- The reasons for which a table cannot become a leaf.
inductive AttachError
  | nameTaken
  | emptyRange
  | overlap
  | defaultHoldsRow
  | rowOutsideRange
  deriving DecidableEq

namespace Partitioned

variable {ν α ρ : Type} [LinearOrder α] {key : ρ → α}

def rows (t : Partitioned ν key) : List ρ :=
  t.leaves.flatMap (·.rows) ++ t.default

def names (t : Partitioned ν key) : List ν :=
  t.leaves.map (·.name)

def empty : Partitioned ν key where
  leaves  := []
  default := []
  named   := .nil
  apart   := .nil
  within  := List.forall_mem_nil _
  rest    := List.forall_mem_nil _

-- Maps the leaves to ones of the same names and ranges.
def mapLeaves (t : Partitioned ν key) (f : Leaf ν α ρ → List ρ) (default : List ρ)
    (within : ∀ l ∈ t.leaves, ∀ r ∈ f l, l.Covers (key r))
    (rest : ∀ r ∈ default, ∀ l ∈ t.leaves, ¬l.Covers (key r)) : Partitioned ν key where
  leaves  := t.leaves.map fun l => { l with rows := f l }
  default := default
  named   := by simpa [Function.comp_def] using t.named
  apart   := List.pairwise_map.mpr t.apart
  within l hl := by
    have ⟨l', hl', he⟩ := List.mem_map.mp hl
    exact he ▸ within l' hl'
  rest r hr l hl := by
    have ⟨l', hl', he⟩ := List.mem_map.mp hl
    exact he ▸ rest r hr l' hl'

-- A row goes to the leaf that covers its key.
def insert (t : Partitioned ν key) (r : ρ) : Partitioned ν key :=
  t.mapLeaves
    (fun l => if l.Covers (key r) then r :: l.rows else l.rows)
    (if ∃ l ∈ t.leaves, l.Covers (key r) then t.default else r :: t.default)
    (fun l hl r' hr' => by
      split at hr'
      case isFalse   => exact t.within l hl r' hr'
      case isTrue hc =>
        cases List.mem_cons.mp hr'
        case inl he  => exact he ▸ hc
        case inr hr' => exact t.within l hl r' hr')
    (fun r' hr' l hl => by
      split at hr'
      case isTrue     => exact t.rest r' hr' l hl
      case isFalse hn =>
        cases List.mem_cons.mp hr'
        case inl he  => exact fun hc => hn ⟨l, hl, he ▸ hc⟩
        case inr hr' => exact t.rest r' hr' l hl)

-- Deletes rows from all partitions.
def delete (t : Partitioned ν key) (p : ρ → Bool) : Partitioned ν key :=
  t.mapLeaves (fun l => l.rows.filter (!p ·)) (t.default.filter (!p ·))
    (fun l hl r hr => t.within l hl r <| List.mem_of_mem_filter hr)
    (fun r hr => t.rest r <| List.mem_of_mem_filter hr)

-- Deletes rows from the default partition.
def deleteDefault (t : Partitioned ν key) (p : ρ → Bool) : Partitioned ν key where
  leaves     := t.leaves
  default    := t.default.filter (!p ·)
  named      := t.named
  apart      := t.apart
  within     := t.within
  rest r hr  := t.rest r <| List.mem_of_mem_filter hr

-- Drops a leaf with its rows.
def drop [DecidableEq ν] (t : Partitioned ν key) (name : ν) : Partitioned ν key where
  leaves         := t.leaves.filter (·.name ≠ name)
  default        := t.default
  named          := t.named.sublist <| List.filter_sublist.map _
  apart          := t.apart.filter _
  within l hl    := t.within l <| List.mem_of_mem_filter hl
  rest r hr l hl := t.rest r hr l <| List.mem_of_mem_filter hl

-- Makes a table a leaf. Its rows and those of the default partition are checked against its range.
def attach [DecidableEq ν] (t : Partitioned ν key) (l : Leaf ν α ρ) :
    Except AttachError (Partitioned ν key) :=
  if hn : l.name ∈ t.names then
    .error .nameTaken
  else if l.hi ≤ l.lo then
    .error .emptyRange
  else if ho : ∃ l' ∈ t.leaves, l.Overlaps l' then
    .error .overlap
  else if hd : ∃ r ∈ t.default, l.Covers (key r) then
    .error .defaultHoldsRow
  else if hr : ∃ r ∈ l.rows, ¬l.Covers (key r) then
    .error .rowOutsideRange
  else
    .ok {
      leaves  := l :: t.leaves
      default := t.default
      named   := List.nodup_cons.mpr ⟨hn, t.named⟩
      apart   := List.pairwise_cons.mpr
        ⟨fun l' hl' _ h h' => ho ⟨l', hl', h.overlaps h'⟩, t.apart⟩
      within  := List.forall_mem_cons.mpr
        ⟨fun r h => not_not.mp fun hc => hr ⟨r, h, hc⟩, t.within⟩
      rest    := fun r h => List.forall_mem_cons.mpr ⟨fun hc => hd ⟨r, h, hc⟩, t.rest r h⟩
    }

section

variable {t t' : Partitioned ν key} {l l' : Leaf ν α ρ} {r : ρ} {p : ρ → Bool} {name : ν}

theorem mem_rows : r ∈ t.rows ↔ (∃ l ∈ t.leaves, r ∈ l.rows) ∨ r ∈ t.default := by
  simp [rows]

theorem eq_of_covers {a : α} (h : l ∈ t.leaves) (h' : l' ∈ t.leaves) (hc : l.Covers a)
    (hc' : l'.Covers a) : l = l' := by
  by_contra hne
  have : Std.Symm fun l l' : Leaf ν α ρ => ∀ a, l.Covers a → ¬l'.Covers a :=
    ⟨fun _ _ h a h₁ h₂ => h a h₂ h₁⟩
  exact t.apart.forall h h' hne a hc hc'

-- Every row is found in the leaf that covers it.
theorem mem_of_covers (hr : r ∈ t.rows) (hl : l ∈ t.leaves) (hc : l.Covers (key r)) :
    r ∈ l.rows := by
  cases mem_rows.mp hr
  case inr hd => exact absurd hc <| t.rest r hd l hl
  case inl h  =>
    have ⟨l', hl', hr'⟩ := h
    exact eq_of_covers hl hl' hc (t.within l' hl' r hr') ▸ hr'

theorem rows_insert : (t.insert r).rows.Perm (r :: t.rows) := by
  -- At most one of the leaves receives the row.
  have leaves (ls : List (Leaf ν α ρ))
      (h : ls.Pairwise fun l l' => ∀ a, l.Covers a → ¬l'.Covers a) :
      (ls.flatMap fun l => if l.Covers (key r) then r :: l.rows else l.rows).Perm
        ((if ∃ l ∈ ls, l.Covers (key r) then [r] else []) ++ ls.flatMap (·.rows)) := by
    induction ls
    case nil => simp
    case cons l ls ih =>
      have ⟨hl, h⟩ := List.pairwise_cons.mp h
      by_cases hc : l.Covers (key r)
      case pos =>
        have others : ls.flatMap (fun l => if l.Covers (key r) then r :: l.rows else l.rows) =
            ls.flatMap (·.rows) :=
          List.flatMap_congr fun l' hl' => if_neg <| hl l' hl' _ hc
        simp [hc, others]
      case neg =>
        simp only [List.flatMap_cons, List.exists_mem_cons_iff, hc, if_false, false_or]
        exact (ih h).append_left _ |>.trans <| List.perm_append_comm_assoc ..
  simp only [rows, insert, mapLeaves, List.flatMap_map]
  refine (leaves t.leaves t.apart).append_right _ |>.trans ?_
  split
  case isTrue  => simp
  case isFalse => simp

theorem rows_delete : (t.delete p).rows = t.rows.filter (!p ·) := by
  simp [rows, delete, mapLeaves, List.flatMap_map, List.filter_append, List.filter_flatMap]

@[simp]
theorem names_delete : (t.delete p).names = t.names := by
  simp [names, delete, mapLeaves, Function.comp_def]

theorem rows_deleteDefault :
    (t.default.filter p ++ (t.deleteDefault p).rows).Perm t.rows := by
  refine List.perm_append_comm_assoc .. |>.trans ?_
  exact (List.filter_append_perm p t.default).append_left _

theorem rows_drop [DecidableEq ν] (h : l ∈ t.leaves) :
    (l.rows ++ (t.drop l.name).rows).Perm t.rows := by
  have leaves (ls : List (Leaf ν α ρ)) (hn : (ls.map (·.name)).Nodup) (hl : l ∈ ls) :
      (l.rows ++ (ls.filter (·.name ≠ l.name)).flatMap (·.rows)).Perm (ls.flatMap (·.rows)) := by
    induction ls
    case nil => contradiction
    case cons l' ls ih =>
      have ⟨hn', hn⟩ := List.nodup_cons.mp hn
      have other {m : Leaf ν α ρ} (hm : m ∈ ls) : m.name ≠ l'.name :=
        fun he => hn' <| List.mem_map.mpr ⟨m, hm, he⟩
      cases List.mem_cons.mp hl
      case inl he =>
        have others : ls.filter (·.name ≠ l.name) = ls :=
          List.filter_eq_self.mpr fun m hm => decide_eq_true <| he ▸ other hm
        rw [List.filter_cons_of_neg <| by simp [he], others, he]
        exact .refl _
      case inr hl =>
        rw [List.filter_cons_of_pos <| by simp [(other hl).symm]]
        exact List.perm_append_comm_assoc .. |>.trans <| (ih hn hl).append_left _
  simp only [rows, drop, ← List.append_assoc]
  exact (leaves t.leaves t.named h).append_right _

theorem mem_names_drop [DecidableEq ν] {name' : ν} :
    name' ∈ (t.drop name).names ↔ name' ∈ t.names ∧ name' ≠ name := by
  simp only [names, drop, List.mem_map, List.mem_filter, decide_eq_true_eq]
  constructor
  case mp =>
    intro ⟨l, ⟨hl, hn⟩, he⟩
    exact ⟨⟨l, hl, he⟩, he ▸ hn⟩
  case mpr =>
    intro ⟨⟨l, hl, he⟩, hn⟩
    exact ⟨l, ⟨hl, he ▸ hn⟩, he⟩

theorem rows_drop_sublist [DecidableEq ν] : (t.drop name).rows.Sublist t.rows :=
  List.filter_sublist.flatMap _ |>.append_right _

theorem attach_ok [DecidableEq ν] (hn : l.name ∉ t.names) (he : l.lo < l.hi)
    (ho : ∀ l' ∈ t.leaves, ¬l.Overlaps l') (hd : ∀ r ∈ t.default, ¬l.Covers (key r))
    (hr : ∀ r ∈ l.rows, l.Covers (key r)) :
    ∃ t', t.attach l = .ok t' ∧ t'.leaves = l :: t.leaves ∧ t'.default = t.default := by
  have ho : ¬∃ l' ∈ t.leaves, l.Overlaps l' := fun ⟨l', hl', h⟩ => ho l' hl' h
  have hd : ¬∃ r ∈ t.default, l.Covers (key r) := fun ⟨r, hr, h⟩ => hd r hr h
  have hr : ¬∃ r ∈ l.rows, ¬l.Covers (key r) := fun ⟨r, h, hc⟩ => hc <| hr r h
  rw [attach, dif_neg hn, if_neg <| not_le.mpr he, dif_neg ho, dif_neg hd, dif_neg hr]
  exact ⟨_, rfl, rfl, rfl⟩

theorem rows_attach [DecidableEq ν] (h : t.attach l = .ok t') : t'.rows = l.rows ++ t.rows := by
  unfold attach at h
  split_ifs at h
  exact Except.ok.inj h ▸ by simp [rows]

end

end Partitioned
