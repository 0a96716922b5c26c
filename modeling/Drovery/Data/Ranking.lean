import Mathlib.Data.List.Sort

-- Lists that are sorted by a total preorder, and prefixes of such lists.
namespace Ranking

variable {α : Type} {r : α → α → Prop} {l l' : List α} {a x : α} {n : Nat}

-- The element `a` comes before `b` in any case.
def Strictly (r : α → α → Prop) (a b : α) : Prop :=
  r a b ∧ ¬r b a

instance [DecidableRel r] : DecidableRel (Strictly r) :=
  fun _ _ => inferInstanceAs (Decidable (_ ∧ _))

theorem pairwise_strictly (hs : l.Pairwise r) (hn : l.Nodup)
    (ha : ∀ a ∈ l, ∀ b ∈ l, r a b → r b a → a = b) : l.Pairwise (Strictly r) :=
  (hs.and hn).imp_of_mem fun hm hm' h => ⟨h.left, fun h' => h.right <| ha _ hm _ hm' h.left h'⟩

variable [DecidableRel r]

-- An element is among the first `n` elements if and only if less than `n` elements come before it.
theorem mem_take_iff (h : l.Pairwise (Strictly r)) :
    x ∈ l.take n ↔ x ∈ l ∧ l.countP (Strictly r · x) < n := by
  induction l generalizing n
  case nil => simp
  case cons a l ih =>
    have ⟨ha, hl⟩ := List.pairwise_cons.mp h
    cases n
    case zero => simp
    case succ n =>
      rw [List.take_succ_cons, List.mem_cons, List.mem_cons, ih hl]
      by_cases hx : x = a
      case pos =>
        subst hx
        have none : (x :: l).countP (Strictly r · x) = 0 := by
          refine List.countP_eq_zero.mpr <| List.forall_mem_cons.mpr ⟨?_, fun y hy => ?_⟩
          case refine_1 => simp [Strictly]
          case refine_2 => simp [Strictly, (ha y hy).left]
        simp [none]
      case neg =>
        refine (or_iff_right hx).trans <| Iff.trans (and_congr_right fun hm => ?_)
          (and_congr_left' <| (or_iff_right hx).symm)
        rw [List.countP_cons_of_pos (by simpa using ha x hm)]
        exact Nat.add_lt_add_iff_right.symm

variable [Std.Total r] [IsTrans α r]

-- The first element of a sorted list is a least one.
theorem least_of_insertionSort (h : l.insertionSort r = a :: l') : a ∈ l ∧ ∀ b ∈ l, r a b := by
  have hs := List.pairwise_insertionSort r l
  rw [h] at hs
  refine ⟨(List.mem_insertionSort r).mp <| h ▸ .head _, fun b hb => ?_⟩
  have hb : b ∈ a :: l' := h ▸ (List.mem_insertionSort r).mpr hb
  cases hb
  case head    => exact (Std.Total.total a a).elim id id
  case tail hb => exact (List.pairwise_cons.mp hs).left b hb

theorem exists_least (h : l ≠ []) : ∃ a ∈ l, ∀ b ∈ l, r a b := by
  cases hs : l.insertionSort r
  case cons a _ => exact ⟨a, least_of_insertionSort hs⟩
  case nil =>
    have := List.length_insertionSort r l
    rw [hs] at this
    exact absurd (List.length_eq_zero_iff.mp this.symm) h

end Ranking
