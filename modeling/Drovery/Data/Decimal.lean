import Mathlib.Algebra.Group.Nat.Defs
import Mathlib.Data.List.Basic
import Mathlib.Data.List.Induction
import Mathlib.Order.Lattice
import Mathlib.Order.MinMax

-- Decimal numerals with leading zeros.
namespace Decimal

-- The numeral of a number, with at least `w` digits.
def pad (w n : Nat) : List Char :=
  (Nat.toDigits 10 n).leftpad w '0'

def value (cs : List Char) : Nat :=
  Nat.ofDigitChars 10 cs 0

def IsNumeral (cs : List Char) : Prop :=
  ∀ c ∈ cs, c.isDigit

instance : DecidablePred IsNumeral :=
  fun cs => decidable_of_iff (cs.all Char.isDigit) List.all_eq_true

variable {w n : Nat} {cs cs' : List Char} {c : Char}

theorem isNumeral_pad : IsNumeral (pad w n) := by
  intro c hc
  cases List.mem_append.mp hc
  case inl hc => exact (List.eq_of_mem_replicate hc).symm ▸ rfl
  case inr hc => exact Nat.isDigit_of_mem_toDigits (by decide) le_rfl hc

@[simp]
theorem value_pad : value (pad w n) = n := by
  simp [value, pad, List.leftpad, Nat.ofDigitChars_append]

theorem length_pad_iff (hw : 0 < w) : (pad w n).length = w ↔ n < 10 ^ w := by
  rw [← Nat.length_toDigits_le_iff (by decide) hw, pad, List.length_leftpad]
  exact max_eq_left_iff

-- No zeros are added to a number that has enough digits.
theorem pad_of_le (hw : 0 < w) (h : 10 ^ w ≤ n) : pad (w + 1) n = Nat.toDigits 10 n := by
  have : w < (Nat.toDigits 10 n).length :=
    not_le.mp <| mt (Nat.length_toDigits_le_iff (by decide) hw).mp <| not_lt.mpr h
  rw [pad, List.leftpad, Nat.sub_eq_zero_of_le this, List.replicate_zero, List.nil_append]

theorem pad_injective : Function.Injective (pad w) :=
  fun n m h => by simpa using congrArg value h

theorem value_concat : value (cs ++ [c]) = 10 * value cs + (c.toNat - 48) := by
  simp [value, Nat.ofDigitChars_append, Nat.ofDigitChars_cons]

theorem toNat_of_isDigit (h : c.isDigit) : 48 ≤ c.toNat ∧ c.toNat ≤ 57 := by
  have ⟨h₁, h₂⟩ := Bool.and_eq_true .. |>.mp h
  exact ⟨of_decide_eq_true h₁, of_decide_eq_true h₂⟩

-- Numerals of the same length that have the same value are equal.
theorem eq_of_value_eq (h : IsNumeral cs) (h' : IsNumeral cs') (hl : cs.length = cs'.length)
    (hv : value cs = value cs') : cs = cs' := by
  induction cs using List.reverseRecOn generalizing cs'
  case nil => exact (List.length_eq_zero_iff.mp hl.symm).symm
  case append_singleton cs c ih =>
    cases List.eq_nil_or_concat' cs'
    case inl hn => simp [hn] at hl
    case inr hc =>
      have ⟨cs', c', hc⟩ := hc
      subst hc
      rw [value_concat, value_concat] at hv
      have ⟨h₁, h₂⟩ := toNat_of_isDigit <| h c (by simp)
      have ⟨h₃, h₄⟩ := toNat_of_isDigit <| h' c' (by simp)
      have hc : c = c' := Char.toNat_inj.mp (by omega)
      have hcs : cs = cs' :=
        ih (fun d hd => h d (by simp [hd])) (fun d hd => h' d (by simp [hd])) (by simpa using hl)
          (by omega)
      rw [hc, hcs]

theorem value_lt (h : IsNumeral cs) : value cs < 10 ^ cs.length := by
  induction cs using List.reverseRecOn
  case nil => decide
  case append_singleton cs c ih =>
    have := ih fun d hd => h d (by simp [hd])
    have ⟨h₁, h₂⟩ := toNat_of_isDigit <| h c (by simp)
    rw [value_concat, List.length_append, List.length_singleton, Nat.pow_succ]
    omega

theorem pad_value (h : IsNumeral cs) (hw : cs.length = w) (hw₀ : 0 < w) :
    pad w (value cs) = cs := by
  refine eq_of_value_eq isNumeral_pad h ?_ value_pad
  rw [length_pad_iff hw₀ |>.mpr (hw ▸ value_lt h), hw]

end Decimal
