import Mathlib.Algebra.Order.Group.Nat
import Mathlib.Algebra.Order.Ring.Nat
import Mathlib.Data.Nat.Log
import Mathlib.Tactic.Ring

-- Magnitudes of binary floating-point numbers with 53 bits. They count the least one of them.
namespace Double

@[irreducible]
def places : Nat := 1074

def one : Nat := 2 ^ places

-- From here on, magnitudes are infinite.
def bound : Nat := 2 ^ (places + 1024)

-- What the last bit of a magnitude stands for.
def ulp (u : Nat) : Nat :=
  2 ^ (u.log2 - 52)

def Representable (u : Nat) : Prop :=
  ulp u ∣ u

instance : DecidablePred Representable :=
  fun u => Nat.decidable_dvd (ulp u) u

-- The integer that is nearest to `n / d`, or the even one of two.
def nearest (n d : Nat) : Nat :=
  if 2 * (n % d) < d ∨ 2 * (n % d) = d ∧ n / d % 2 = 0 then n / d else n / d + 1

-- The magnitude that is nearest to `n / d`, as if there was no bound.
def round (n d : Nat) : Nat :=
  nearest n (d * ulp (n / d)) * ulp (n / d)

@[irreducible]
def ofDecimal (s : Nat) (e : Int) : Nat :=
  round (s * 10 ^ e.toNat * one) (10 ^ (-e).toNat)

-- The digits up to the position `e` of a decimal number that is rounded to `u`. Of those next to `u`,
-- the nearest ones come first.
def digits (u : Nat) (e : Int) : Option Nat :=
  let n := u * 10 ^ (-e).toNat
  let d := one * 10 ^ e.toNat
  [nearest n d, 2 * (n / d) + 1 - nearest n d].find? (ofDecimal · e = u)

-- The shortest decimal number that is rounded to `u`. Its last digit is searched from the position
-- `n - places` downwards, until there are all digits.
def shortest (u : Nat) : Nat → Nat × Int
  | 0     => (u * 5 ^ places, -places)
  | n + 1 => (digits u (n + 1 - places)).elim (shortest u n) (·, n + 1 - places)

def toDecimal (u : Nat) : Nat × Int :=
  shortest u ((Nat.toDigits 10 (u / one)).length + places)

variable {n n' d d' c k u s z : Nat} {e : Int}

theorem round_def : round n d = nearest n (d * ulp (n / d)) * ulp (n / d) :=
  rfl

theorem toDecimal_def : toDecimal u = shortest u ((Nat.toDigits 10 (u / one)).length + places) :=
  rfl

-- There is no use in calculating with numbers of this size.
attribute [irreducible] round toDecimal

theorem ulp_pos : 0 < ulp u :=
  Nat.two_pow_pos _

theorem one_pos : 0 < one :=
  Nat.two_pow_pos _

theorem le_nearest : n / d ≤ nearest n d := by
  rw [nearest]
  split <;> omega

theorem nearest_le : nearest n d ≤ n / d + 1 := by
  rw [nearest]
  split <;> omega

theorem nearest_mul (hd : 0 < d) : nearest (k * d) d = k := by
  have hm : 2 * (k * d % d) < d := by rwa [Nat.mul_mod_left]
  rw [nearest, if_pos (.inl hm), Nat.mul_div_cancel _ hd]

theorem nearest_mul_right (hc : 0 < c) : nearest (n * c) (d * c) = nearest n d := by
  have hm : 2 * (n * c % (d * c)) = 2 * (n % d) * c := by rw [Nat.mul_mod_mul_right, Nat.mul_assoc]
  simp only [nearest, hm, Nat.mul_div_mul_right _ _ hc, Nat.mul_lt_mul_right hc,
    Nat.mul_left_inj hc.ne']

theorem round_mul_right (hc : 0 < c) : round (n * c) (d * c) = round n d := by
  rw [round_def, round_def, Nat.mul_div_mul_right _ _ hc, Nat.mul_right_comm, nearest_mul_right hc]

-- Rounding depends on the quotient only.
theorem round_congr (hd : 0 < d) (hd' : 0 < d') (h : n * d' = n' * d) : round n d = round n' d' :=
  calc
    round n d = round (n * d') (d * d')  := (round_mul_right hd').symm
    _         = round (n' * d) (d' * d)  := by rw [h, Nat.mul_comm d d']
    _         = round n' d'              := round_mul_right hd

theorem round_mul (hu : Representable u) (hd : 0 < d) : round (u * d) d = u := by
  obtain ⟨k, hk⟩ := hu
  have hn : u * d = k * (d * ulp u) := by
    conv_lhs => rw [hk]
    ring
  rw [round_def, Nat.mul_div_cancel _ hd, hn, nearest_mul (Nat.mul_pos hd ulp_pos), Nat.mul_comm, ← hk]

theorem div_ulp_lt : u / ulp u < 2 ^ 53 := by
  rw [ulp, Nat.div_lt_iff_lt_mul (Nat.two_pow_pos _), ← pow_add]
  exact Nat.lt_log2_self.trans_le <| Nat.pow_le_pow_right (by decide) (by omega)

theorem representable_mul (h : n ≤ 2 ^ 53) : Representable (n * 2 ^ k) := by
  by_cases hn : n < 2 ^ 53
  case pos =>
    by_cases h₀ : n = 0
    case pos => rw [h₀, Nat.zero_mul]; exact Nat.dvd_zero _
    case neg =>
      have hl : (n * 2 ^ k).log2 < 53 + k := by
        rw [Nat.log2_lt (Nat.mul_ne_zero h₀ (Nat.two_pow_pos k).ne'), pow_add]
        exact Nat.mul_lt_mul_of_pos_right hn (Nat.two_pow_pos k)
      exact (Nat.pow_dvd_pow 2 (by omega)).trans <| Nat.dvd_mul_left _ _
  case neg =>
    obtain rfl : n = 2 ^ 53 := by omega
    rw [← pow_add, Representable, ulp, Nat.log2_two_pow]
    exact Nat.pow_dvd_pow 2 (by omega)

theorem representable_round : Representable (round n d) := by
  rw [round_def]
  refine representable_mul ?_
  have hq : n / (d * ulp (n / d)) < 2 ^ 53 := by
    rw [← Nat.div_div_eq_div_mul]
    exact div_ulp_lt
  exact nearest_le.trans hq

theorem pow_le_round (h : 2 ^ k ≤ n / d) : 2 ^ k ≤ round n d := by
  have h₀ : n / d ≠ 0 := by
    have := Nat.two_pow_pos k
    omega
  have hl : 2 ^ (n / d).log2 = 2 ^ ((n / d).log2 - ((n / d).log2 - 52)) * ulp (n / d) := by
    rw [ulp, ← pow_add]
    congr 1
    omega
  have hq : 2 ^ ((n / d).log2 - ((n / d).log2 - 52)) ≤ n / (d * ulp (n / d)) := by
    rw [← Nat.div_div_eq_div_mul, Nat.le_div_iff_mul_le ulp_pos, ← hl]
    exact Nat.log2_self_le h₀
  calc
    2 ^ k ≤ 2 ^ (n / d).log2 := Nat.pow_le_pow_right (by decide) <| (Nat.le_log2 h₀).mpr h
    _     = _                := hl
    _     ≤ _                := Nat.mul_le_mul_right _ <| hq.trans le_nearest
    _     = round n d        := round_def.symm

theorem representable_natural (h : n ≤ 2 ^ 53) : Representable (n * one) :=
  representable_mul h

theorem natural_lt_bound (h : n ≤ 2 ^ 53) : n * one < bound := by
  have hp : 53 + places < places + 1024 := by omega
  calc
    n * one ≤ 2 ^ 53 * 2 ^ places := Nat.mul_le_mul_right _ h
    _       = 2 ^ (53 + places)   := (pow_add ..).symm
    _       < bound               := Nat.pow_lt_pow_right (by decide) hp

theorem representable_ofDecimal : Representable (ofDecimal s e) := by
  unfold ofDecimal
  exact representable_round

theorem round_zero (hd : 0 < d) : round 0 d = 0 := by
  have := round_mul (Nat.dvd_zero _) hd
  rwa [Nat.zero_mul] at this

theorem ofDecimal_zero : ofDecimal 0 e = 0 := by
  unfold ofDecimal
  rw [Nat.zero_mul, Nat.zero_mul]
  exact round_zero <| Nat.pow_pos (by decide)

-- A decimal number does not change when zeros are moved to its exponent.
theorem ofDecimal_mul_pow : ofDecimal (s * 10 ^ z) e = ofDecimal s (e + z) := by
  have h₀ (n : Nat) : 0 < 10 ^ n := Nat.pow_pos (by decide)
  unfold ofDecimal
  refine round_congr (h₀ _) (h₀ _) ?_
  have hz : z + e.toNat + (-(e + z)).toNat = (e + z).toNat + (-e).toNat := by omega
  calc
    s * 10 ^ z * 10 ^ e.toNat * one * 10 ^ (-(e + z)).toNat
      = s * one * 10 ^ (z + e.toNat + (-(e + z)).toNat)       := by ring
    _ = s * one * 10 ^ ((e + z).toNat + (-e).toNat)           := by rw [hz]
    _ = s * 10 ^ (e + z).toNat * one * 10 ^ (-e).toNat        := by ring

theorem ofDecimal_natural (h : n ≤ 2 ^ 53) : ofDecimal n 0 = n * one := by
  have hn : n * 10 ^ (0 : Int).toNat * one = n * one * 1 := by
    rw [Int.toNat_zero, pow_zero, Nat.mul_one, Nat.mul_one]
  have hd : 10 ^ (-0 : Int).toNat = 1 := by
    rw [Int.neg_zero, Int.toNat_zero, pow_zero]
  unfold ofDecimal
  rw [hn, hd]
  exact round_mul (representable_natural h) Nat.one_pos

theorem digits_spec (h : digits u e = some s) : ofDecimal s e = u :=
  of_decide_eq_true <| List.find?_some (p := fun s => ofDecimal s e = u) h

theorem shortest_zero : shortest u 0 = (u * 5 ^ places, -(places : Int)) :=
  rfl

theorem shortest_succ : shortest u (n + 1) =
    (digits u (n + 1 - places)).elim (shortest u n) (·, (n : Int) + 1 - places) :=
  rfl

theorem ofDecimal_expansion (hu : Representable u) : ofDecimal (u * 5 ^ places) (-places) = u := by
  have hd : (- -(places : Int)).toNat = places := by rw [Int.neg_neg, Int.toNat_natCast]
  have hn : u * 5 ^ places * 10 ^ (-(places : Int)).toNat * one = u * 10 ^ places := by
    rw [Int.toNat_neg_natCast, pow_zero, Nat.mul_one, Nat.mul_assoc, one, ← Nat.mul_pow]
  unfold ofDecimal
  rw [hn, hd]
  exact round_mul hu <| Nat.pow_pos (by decide)

theorem ofDecimal_shortest (hu : Representable u) :
    ofDecimal (shortest u n).fst (shortest u n).snd = u := by
  induction n
  case zero => exact shortest_zero ▸ ofDecimal_expansion hu
  case succ n ih =>
    rw [shortest_succ]
    cases hd : digits u (n + 1 - places)
    case none   => exact ih
    case some s => exact digits_spec hd

-- Every magnitude is read back from its shortest digits.
theorem ofDecimal_toDecimal (hu : Representable u) :
    ofDecimal (toDecimal u).fst (toDecimal u).snd = u := by
  rw [toDecimal_def]
  exact ofDecimal_shortest hu

theorem pow_le_ofDecimal (h : 2 ^ k ≤ n * one) : 2 ^ k ≤ ofDecimal n 0 := by
  have hn : n * 10 ^ (0 : Int).toNat * one / 10 ^ (-0 : Int).toNat = n * one := by
    rw [Int.neg_zero, Int.toNat_zero, pow_zero, Nat.mul_one, Nat.div_one]
  unfold ofDecimal
  exact pow_le_round (h.trans_eq hn.symm)

theorem natural_unique (h : n < 2 ^ 53) (hc : ofDecimal c 0 = n * one) : c = n := by
  by_cases hn : c < 2 ^ 53
  case pos =>
    rw [ofDecimal_natural hn.le] at hc
    exact Nat.eq_of_mul_eq_mul_right one_pos hc
  case neg =>
    have hp : 2 ^ (53 + places) ≤ c * one := by
      rw [pow_add]
      exact Nat.mul_le_mul_right _ <| not_lt.mp hn
    have hl : 2 ^ 53 * one ≤ n * one :=
      calc
        2 ^ 53 * one = 2 ^ (53 + places) := (pow_add ..).symm
        _            ≤ ofDecimal c 0     := pow_le_ofDecimal hp
        _            = n * one           := hc
    exact absurd h <| not_lt.mpr <| Nat.le_of_mul_le_mul_right hl one_pos

-- The shortest digits of a natural number are its own, up to zeros at the end.
theorem shortest_natural (h : n < 2 ^ 53) :
    ∃ s z : Nat, shortest (n * one) (k + places) = (s, (z : Int)) ∧ s * 10 ^ z = n := by
  obtain ⟨p, hp⟩ : ∃ p, places = p + 1 := ⟨1073, by rw [places]⟩
  have step (k : Nat) : shortest (n * one) (k + places) =
      (digits (n * one) k).elim (shortest (n * one) (k + p)) (·, (k : Int)) := by
    have he : ((k + p : Nat) : Int) + 1 - places = k := by omega
    rw [hp, ← Nat.add_assoc, shortest_succ, he]
  have found {k s : Nat} (h' : digits (n * one) k = some s) : s * 10 ^ k = n := by
    refine natural_unique h ?_
    rw [ofDecimal_mul_pow, zero_add]
    exact digits_spec h'
  have last : digits (n * one) 0 = some n := by
    have hn : nearest (n * one * 10 ^ (-0 : Int).toNat) (one * 10 ^ (0 : Int).toNat) = n := by
      rw [Int.neg_zero, Int.toNat_zero, pow_zero, Nat.mul_one, Nat.mul_one, nearest_mul one_pos]
    unfold digits
    dsimp only
    rw [hn]
    exact List.find?_cons_of_pos <| decide_eq_true <| ofDecimal_natural h.le
  induction k
  case zero =>
    refine ⟨n, 0, ?_, Nat.mul_one n⟩
    rw [step, Int.natCast_zero, last, Option.elim_some]
  case succ k ih =>
    have hk : k + 1 + p = k + places := by omega
    obtain hd | ⟨s, hd⟩ := Option.eq_none_or_eq_some (digits (n * one) ↑(k + 1))
    case inl =>
      rw [step, hd, Option.elim_none, hk]
      exact ih
    case inr => exact ⟨s, k + 1, by rw [step, hd, Option.elim_some], found hd⟩

end Double
