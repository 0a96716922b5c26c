import Mathlib.Data.Rat.Cast.Order
import Drovery.Data.Double
import Drovery.Data.Numeral

-- A finite number of JavaScript. Both zeros are the same.
@[ext]
structure JsNumber where
  negative      : Bool
  units         : Nat
  representable : Double.Representable units
  finite        : units < Double.bound
  canonical     : units = 0 → negative = false
  deriving DecidableEq

namespace Numeral

-- The shortest numeral of a number.
def ofUnits (negative : Bool) (u : Nat) : Numeral :=
  .ofDecimal negative (Double.toDecimal u).fst (Double.toDecimal u).snd

def units (x : Numeral) : Nat :=
  Double.ofDecimal x.coefficient x.exponent

end Numeral

namespace JsNumber

-- There is no number if the magnitude is infinite.
def ofUnits (negative : Bool) (u : Nat) (h : Double.Representable u) : Option JsNumber :=
  if hb : u < Double.bound then
    some {
      negative      := negative && u ≠ 0
      units         := u
      representable := h
      finite        := hb
      canonical     := by rintro rfl; simp
    }
  else
    none

-- The number that is nearest to a numeral.
def ofNumeral (x : Numeral) : Option JsNumber :=
  ofUnits x.negative x.units Double.representable_ofDecimal

-- The number that is nearest to the value of an expression.
def ofRat (q : ℚ) : Option JsNumber :=
  ofUnits (q < 0) (Double.round (q.num.natAbs * Double.one) q.den) Double.representable_round

def ofNat (n : Nat) (h : n ≤ 2 ^ 53) : JsNumber where
  negative      := false
  units         := n * Double.one
  representable := Double.representable_natural h
  finite        := Double.natural_lt_bound h
  canonical _   := rfl

def zero : JsNumber :=
  ofNat 0 (Nat.zero_le _)

def toRat (x : JsNumber) : ℚ :=
  (if x.negative then -1 else 1) * x.units / Double.one

def numeral (x : JsNumber) : Numeral :=
  .ofUnits x.negative x.units

def chars (x : JsNumber) : List Char :=
  x.numeral.chars

def text (x : JsNumber) : String :=
  .ofList x.chars

end JsNumber

namespace Numeral

variable {s : Nat} {e : Int} {b : Bool}

theorem units_ofDecimal : (ofDecimal b s e).units = Double.ofDecimal s e := by
  by_cases h₀ : s = 0
  case pos => simp [h₀, ofDecimal, zero, units, Double.ofDecimal_zero]
  case neg =>
    obtain ⟨he, hm⟩ := @strip_mul s s e (Nat.pos_of_ne_zero h₀)
    have hz : (strip s s e).snd = e + ((strip s s e).snd - e).toNat := by omega
    have hu := @Double.ofDecimal_mul_pow (strip s s e).fst ((strip s s e).snd - e).toNat e
    rw [hm, ← hz] at hu
    simp [ofDecimal, h₀, units, hu]

end Numeral

namespace JsNumber

variable {x y : JsNumber} {n : Nat} {h : n ≤ 2 ^ 53}

theorem units_numeral : x.numeral.units = x.units := by
  rw [numeral, Numeral.ofUnits, Numeral.units_ofDecimal, Double.ofDecimal_toDecimal x.representable]

theorem negative_numeral : (x.numeral.negative && x.units ≠ 0) = x.negative := by
  by_cases hu : x.units = 0
  case pos => simp [hu, x.canonical hu]
  case neg =>
    have hs : (Double.toDecimal x.units).fst ≠ 0 := by
      intro hs
      have hd := Double.ofDecimal_toDecimal x.representable
      rw [hs, Double.ofDecimal_zero] at hd
      exact hu hd.symm
    simp [hu, numeral, Numeral.ofUnits, Numeral.ofDecimal, hs]

-- Every number is the nearest one to its shortest numeral.
theorem ofNumeral_numeral : ofNumeral x.numeral = some x := by
  have hu := @units_numeral x
  have hn := @negative_numeral x
  have hf := x.finite
  simp only [ofNumeral, ofUnits, hu, hn, hf, dif_pos]

theorem text_injective : Function.Injective text := by
  intro x y h
  have hc := congrArg String.toList h
  rw [text, text, String.toList_ofList, String.toList_ofList] at hc
  have hx := @Numeral.read_chars x.numeral [] nofun
  have hy := @Numeral.read_chars y.numeral [] nofun
  rw [← chars, hc, chars, hy] at hx
  have he := (Prod.mk.inj <| Option.some.inj hx).left
  exact Option.some.inj <| ofNumeral_numeral.symm.trans <| (congrArg ofNumeral he.symm).trans ofNumeral_numeral

theorem numeral_ofNat (hn : n < 2 ^ 53) : (ofNat n h).numeral = .ofNat n := by
  obtain ⟨s, z, he, hs⟩ :=
    @Double.shortest_natural n (Nat.toDigits 10 (n * Double.one / Double.one)).length hn
  have hd : Numeral.ofDecimal false n 0 = .ofDecimal false s z := hs ▸ Numeral.ofDecimal_mul_pow
  rw [numeral, ofNat, Numeral.ofUnits, Double.toDecimal_def, he, Numeral.ofNat, hd]

theorem toRat_ofNat : (ofNat n h).toRat = n := by
  have := Double.one_pos.ne'
  simp [toRat, ofNat, this]

-- Moderate integers are exact.
theorem ofRat_intCast {i : Int} (hi : i.natAbs ≤ 2 ^ 53) : ∃ y, ofRat i = some y ∧ y.toRat = i := by
  have hu : Double.round (i.natAbs * Double.one * 1) 1 = i.natAbs * Double.one :=
    Double.round_mul (Double.representable_natural hi) Nat.one_pos
  have hb := Double.natural_lt_bound hi
  have h₀ := Double.one_pos.ne'
  rw [Nat.mul_one] at hu
  simp only [ofRat, ofUnits, Rat.num_intCast, Rat.den_intCast, hu, hb, dif_pos]
  refine ⟨_, rfl, ?_⟩
  by_cases hn : i < 0
  case pos =>
    have hz : i.natAbs ≠ 0 := by omega
    have hv : (i.natAbs : ℚ) = -i := by rw [Nat.cast_natAbs, abs_of_neg hn, Int.cast_neg]
    simp [toRat, hn, hz, h₀, hv]
  case neg =>
    have hv : (i.natAbs : ℚ) = i := by rw [Nat.cast_natAbs, abs_of_nonneg (not_lt.mp hn)]
    simp [toRat, hn, h₀, hv]

end JsNumber
