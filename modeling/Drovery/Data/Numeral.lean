import Mathlib.Algebra.Order.Ring.Nat
import Mathlib.Tactic.Ring
import Drovery.Data.Decimal

-- A decimal number whose coefficient has no trailing zeros.
@[ext]
structure Numeral where
  negative    : Bool
  coefficient : Nat
  exponent    : Int
  canonical   : coefficient % 10 ≠ 0 ∨ coefficient = 0 ∧ exponent = 0 ∧ negative = false
  deriving DecidableEq

namespace Numeral

open Decimal

def zero : Numeral where
  negative    := false
  coefficient := 0
  exponent    := 0
  canonical   := .inr ⟨rfl, rfl, rfl⟩

-- Moves up to `n` trailing zeros from the coefficient to the exponent.
def strip : Nat → Nat → Int → Nat × Int
  | 0,     s, e => (s, e)
  | n + 1, s, e => if s % 10 = 0 then strip n (s / 10) (e + 1) else (s, e)

theorem strip_canonical {n s : Nat} {e : Int} (h₀ : 0 < s) (h : s ≤ n) : (strip n s e).fst % 10 ≠ 0 := by
  induction n generalizing s e
  case zero => omega
  case succ n ih =>
    rw [strip]
    split
    case isTrue hs  => exact ih (by omega) (by omega)
    case isFalse hs => exact hs

def ofDecimal (negative : Bool) (s : Nat) (e : Int) : Numeral :=
  if h : s = 0 then
    zero
  else {
    negative
    coefficient := (strip s s e).fst
    exponent    := (strip s s e).snd
    canonical   := .inl <| strip_canonical (Nat.pos_of_ne_zero h) le_rfl
  }

def ofNat (n : Nat) : Numeral :=
  ofDecimal false n 0

-- The digits in front of the point, those behind it and the exponent.
structure Literal where
  whole    : List Char
  fraction : List Char
  exponent : Option Int

namespace Literal

def fractionChars (ds : List Char) : List Char :=
  if ds = [] then [] else '.' :: ds

def exponentChars : Option Int → List Char
  | none   => []
  | some e => 'e' :: (if 0 ≤ e then '+' else '-') :: Nat.toDigits 10 e.natAbs

def chars (l : Literal) : List Char :=
  l.whole ++ (fractionChars l.fraction ++ exponentChars l.exponent)

-- The notation that is chosen for the digits `ds` when the point belongs behind the first `n` of them.
def ofDigits (ds : List Char) (n : Int) : Literal :=
  if ds.length ≤ n ∧ n ≤ 21 then
    ⟨ds ++ .replicate (n - ds.length).toNat '0', [], none⟩
  else if 0 < n ∧ n ≤ 21 then
    ⟨ds.take n.toNat, ds.drop n.toNat, none⟩
  else if -6 < n ∧ n ≤ 0 then
    ⟨['0'], .replicate (-n).toNat '0' ++ ds, none⟩
  else
    ⟨ds.take 1, ds.drop 1, some (n - 1)⟩

end Literal

def digits (x : Numeral) : List Char :=
  Nat.toDigits 10 x.coefficient

def literal (x : Numeral) : Literal :=
  .ofDigits x.digits (x.digits.length + x.exponent)

def sign (negative : Bool) : List Char :=
  if negative then ['-'] else []

def chars (x : Numeral) : List Char :=
  sign x.negative ++ x.literal.chars

-- Reading a literal. The rest of the text follows it.
def readDigits (cs : List Char) : Option (List Char × List Char) :=
  match cs.takeWhile Char.isDigit with
  | [] => none
  | ds => some (ds, cs.dropWhile Char.isDigit)

def readSign : List Char → Bool × List Char
  | '-' :: cs => (true, cs)
  | cs        => (false, cs)

def readWhole : List Char → Option (List Char × List Char)
  | '0' :: cs => some (['0'], cs)
  | cs        => readDigits cs

def readFraction : List Char → Option (List Char × List Char)
  | '.' :: cs => readDigits cs
  | cs        => some ([], cs)

def readExponent : List Char → Option (Int × List Char)
  | c :: cs =>
    if c = 'e' ∨ c = 'E' then
      match cs with
      | '-' :: cs => (readDigits cs).map fun (ds, cs) => (-(value ds : Int), cs)
      | '+' :: cs => (readDigits cs).map fun (ds, cs) => ((value ds : Int), cs)
      | cs        => (readDigits cs).map fun (ds, cs) => ((value ds : Int), cs)
    else
      some (0, c :: cs)
  | [] => some (0, [])

def read (cs : List Char) : Option (Numeral × List Char) := do
  let (negative, cs) := readSign cs
  let (whole, cs) ← readWhole cs
  let (fraction, cs) ← readFraction cs
  let (exponent, cs) ← readExponent cs
  some (ofDecimal negative (value (whole ++ fraction)) (exponent - fraction.length), cs)

-- What may follow a number.
def Ends (r : List Char) : Prop :=
  ∀ c ∈ r.head?, ¬c.isDigit ∧ c ≠ '.' ∧ c ≠ 'e' ∧ c ≠ 'E'

variable {x : Numeral} {c : Char} {r ds : List Char} {s z n : Nat} {e : Int} {b : Bool}

theorem strip_mul_pow (hs : s % 10 ≠ 0) (h : z ≤ n) : strip n (s * 10 ^ z) e = (s, e + z) := by
  induction z generalizing n e
  case zero =>
    cases n
    case zero => simp [strip]
    case succ => simp [strip, hs]
  case succ z ih =>
    cases n
    case zero => omega
    case succ n =>
      have hz : s * 10 ^ (z + 1) = s * 10 ^ z * 10 := by rw [Nat.pow_succ, Nat.mul_assoc]
      rw [strip, if_pos (by omega), hz, Nat.mul_div_cancel _ (by decide), ih (by omega)]
      exact Prod.ext rfl (by omega)

theorem eq_zero_of_coefficient (h : x.coefficient = 0) : x = zero := by
  have := x.canonical
  ext1 <;> simp_all [zero]

-- A coefficient with additional zeros stands for the same number.
theorem ofDecimal_eq (x : Numeral) (z : Nat) :
    ofDecimal x.negative (x.coefficient * 10 ^ z) (x.exponent - z) = x := by
  by_cases h : x.coefficient = 0
  case pos =>
    rw [h, Nat.zero_mul, eq_zero_of_coefficient h]
    rfl
  case neg =>
    have hs : x.coefficient % 10 ≠ 0 := x.canonical.resolve_right (h ·.left)
    have hp : x.coefficient * 10 ^ z ≠ 0 := Nat.mul_ne_zero h (Nat.pow_pos (by decide)).ne'
    have hz : z ≤ x.coefficient * 10 ^ z :=
      (Nat.lt_pow_self (by decide)).le.trans <| Nat.le_mul_of_pos_left _ <| Nat.pos_of_ne_zero h
    have := @strip_mul_pow _ _ _ (x.exponent - z) hs hz
    ext1 <;> simp [ofDecimal, hp, this]

theorem isNumeral_digits : IsNumeral x.digits :=
  fun _ => Nat.isDigit_of_mem_toDigits (by decide) le_rfl

theorem head_toDigits (h : 0 < n) : ∃ c cs, Nat.toDigits 10 n = c :: cs ∧ c ≠ '0' := by
  cases hd : Nat.toDigits 10 n
  case nil => exact absurd hd Nat.toDigits_ne_nil
  case cons c cs =>
    refine ⟨c, cs, rfl, fun hc => ?_⟩
    have hv : value cs = n := by
      have := @Nat.ofDigitChars_ten_toDigits n
      rw [hd, hc] at this
      simpa [value, Nat.ofDigitChars_cons] using this
    have hn : IsNumeral cs := fun c hc =>
      Nat.isDigit_of_mem_toDigits (by decide) le_rfl <| hd ▸ List.mem_cons_of_mem _ hc
    cases cs
    case nil => exact absurd hv h.ne
    case cons c' cs =>
      have hl := (Nat.length_toDigits_le_iff (by decide) (Nat.succ_pos cs.length)).mpr <| hv ▸ value_lt hn
      rw [hd] at hl
      exact absurd hl (by simp)

theorem takeWhile_append (hd : IsNumeral ds) (hr : ∀ c ∈ r.head?, ¬c.isDigit) :
    (ds ++ r).takeWhile Char.isDigit = ds ∧ (ds ++ r).dropWhile Char.isDigit = r := by
  induction ds
  case nil =>
    cases r
    case nil  => exact ⟨rfl, rfl⟩
    case cons => simp_all
  case cons d ds ih =>
    have ⟨ht, hw⟩ := ih fun c hc => hd c <| .tail _ hc
    simp [hd d (.head _), ht, hw]

theorem readDigits_append (hd : IsNumeral ds) (hn : ds ≠ []) (hr : ∀ c ∈ r.head?, ¬c.isDigit) :
    readDigits (ds ++ r) = some (ds, r) := by
  have ⟨ht, hw⟩ := takeWhile_append hd hr
  rw [readDigits, ht, hw]
  cases ds
  case nil  => contradiction
  case cons => rfl

theorem readSign_append (hr : ∀ c ∈ r.head?, c ≠ '-') : readSign (sign b ++ r) = (b, r) := by
  cases b
  case true => rfl
  case false =>
    cases r
    case nil => rfl
    case cons c r =>
      have hc : c ≠ '-' := hr c rfl
      simp [sign, readSign, hc]

theorem readWhole_append (hd : IsNumeral ds) (hz : ds = ['0'] ∨ ∃ c cs, ds = c :: cs ∧ c ≠ '0')
    (hr : ∀ c ∈ r.head?, ¬c.isDigit) : readWhole (ds ++ r) = some (ds, r) := by
  obtain rfl | ⟨c, cs, rfl, hc⟩ := hz
  case inl => rfl
  case inr =>
    have hw : readWhole (c :: cs ++ r) = readDigits (c :: cs ++ r) := by simp [readWhole, hc]
    rw [hw, readDigits_append hd (List.cons_ne_nil _ _) hr]

theorem readFraction_append (hd : IsNumeral ds) (hr : ∀ c ∈ r.head?, ¬c.isDigit ∧ c ≠ '.') :
    readFraction (Literal.fractionChars ds ++ r) = some (ds, r) := by
  by_cases hn : ds = []
  case neg =>
    rw [Literal.fractionChars, if_neg hn]
    exact readDigits_append hd hn fun c hc => (hr c hc).left
  case pos =>
    rw [Literal.fractionChars, if_pos hn, hn, List.nil_append]
    cases r
    case nil => rfl
    case cons c r =>
      have hc : c ≠ '.' := (hr c rfl).right
      simp [readFraction, hc]

theorem readExponent_append {e : Option Int} (hr : Ends r) :
    readExponent (Literal.exponentChars e ++ r) = some (e.getD 0, r) := by
  cases e
  case none =>
    cases r
    case nil => rfl
    case cons c r =>
      have ⟨_, _, he, hE⟩ := hr c rfl
      simp [Literal.exponentChars, readExponent, he, hE]
  case some e =>
    have hd : IsNumeral (Nat.toDigits 10 e.natAbs) := fun _ => Nat.isDigit_of_mem_toDigits (by decide) le_rfl
    have hv : value (Nat.toDigits 10 e.natAbs) = e.natAbs := Nat.ofDigitChars_ten_toDigits
    have hr := readDigits_append hd Nat.toDigits_ne_nil fun c hc => (hr c hc).left
    by_cases he : 0 ≤ e
    case pos =>
      have hs : readExponent ('e' :: '+' :: (Nat.toDigits 10 e.natAbs ++ r)) = some ((e.natAbs : Int), r) := by
        simp only [readExponent, true_or, if_true, hr, hv, Option.map_some]
      rw [Literal.exponentChars, if_pos he]
      exact hs.trans <| by rw [Int.natAbs_of_nonneg he]; rfl
    case neg =>
      have hs : readExponent ('e' :: '-' :: (Nat.toDigits 10 e.natAbs ++ r)) = some (-(e.natAbs : Int), r) := by
        simp only [readExponent, true_or, if_true, hr, hv, Option.map_some]
      rw [Literal.exponentChars, if_neg he]
      exact hs.trans <| by rw [Int.ofNat_natAbs_of_nonpos (by omega), Int.neg_neg]; rfl

namespace Literal

-- The literal is one that can be read back.
structure Valid (l : Literal) : Prop where
  whole    : IsNumeral l.whole
  fraction : IsNumeral l.fraction
  zero     : l.whole = ['0'] ∨ ∃ c cs, l.whole = c :: cs ∧ c ≠ '0'

end Literal

theorem Literal.Valid.exists_cons {l : Literal} (hl : l.Valid) : ∃ c cs, l.whole = c :: cs := by
  obtain h | ⟨c, cs, h, _⟩ := hl.zero
  case inl => exact ⟨_, _, h⟩
  case inr => exact ⟨_, _, h⟩

theorem head_exponentChars {e : Option Int} (hr : Ends r) :
    ∀ c ∈ (Literal.exponentChars e ++ r).head?, ¬c.isDigit ∧ c ≠ '.' := by
  intro c hc
  cases e
  case none => exact ⟨(hr c hc).left, (hr c hc).right.left⟩
  case some =>
    obtain rfl := Option.some.inj hc
    decide

theorem head_fractionChars {e : Option Int} (hr : Ends r) :
    ∀ c ∈ (Literal.fractionChars ds ++ (Literal.exponentChars e ++ r)).head?, ¬c.isDigit := by
  intro c hc
  rw [Literal.fractionChars] at hc
  split at hc
  case isTrue => exact (head_exponentChars hr c hc).left
  case isFalse =>
    obtain rfl := Option.some.inj hc
    decide

theorem read_literal {l : Literal} (hl : l.Valid) (hr : Ends r) :
    read (sign b ++ (l.chars ++ r)) = some
      (ofDecimal b (value (l.whole ++ l.fraction)) (l.exponent.getD 0 - l.fraction.length), r) := by
  have he := @head_exponentChars r l.exponent hr
  have hf := @head_fractionChars r l.fraction l.exponent hr
  have hs : ∀ c ∈ (l.chars ++ r).head?, c ≠ '-' := by
    have ⟨d, ds, hw⟩ := hl.exists_cons
    have hd := hl.whole d (hw ▸ .head _)
    intro c hc hm
    rw [Literal.chars, hw] at hc
    obtain rfl := Option.some.inj hc
    exact absurd (hm ▸ hd) (by decide)
  rw [read, readSign_append hs, Literal.chars, List.append_assoc, List.append_assoc]
  dsimp only
  rw [readWhole_append hl.whole hl.zero hf, Option.bind_eq_bind, Option.bind_some]
  dsimp only
  rw [readFraction_append hl.fraction he, Option.bind_eq_bind, Option.bind_some]
  dsimp only
  rw [readExponent_append hr]
  rfl

theorem value_append_zeros : value (ds ++ .replicate z '0') = value ds * 10 ^ z := by
  rw [value, Nat.ofDigitChars_append, Nat.ofDigitChars_replicate_zero, Nat.mul_comm, value]

theorem value_zeros_append : value ('0' :: (.replicate z '0' ++ ds)) = value ds := by
  simp [value, Nat.ofDigitChars_cons, Nat.ofDigitChars_append]

theorem isNumeral_append {ds' : List Char} (h : IsNumeral ds) (h' : IsNumeral ds') : IsNumeral (ds ++ ds') :=
  fun c hc => (List.mem_append.mp hc).elim (h c) (h' c)

theorem isNumeral_zeros : IsNumeral (.replicate z '0') :=
  fun _ hc => List.eq_of_mem_replicate hc ▸ rfl

theorem isNumeral_zero : IsNumeral ['0'] := by
  decide

theorem literal_valid (x : Numeral) : x.literal.Valid := by
  by_cases h : x.coefficient = 0
  case pos =>
    have hz : x.literal = ⟨['0'], [], none⟩ := by rw [eq_zero_of_coefficient h]; rfl
    rw [hz]
    exact ⟨by decide, by decide, .inl rfl⟩
  case neg =>
    have ⟨c, cs, hd, hc⟩ := head_toDigits (Nat.pos_of_ne_zero h)
    have hn : IsNumeral (c :: cs) := hd ▸ x.isNumeral_digits
    rw [literal, digits, hd, Literal.ofDigits]
    split_ifs
    case pos => exact ⟨isNumeral_append hn isNumeral_zeros, nofun, .inr ⟨c, _, rfl, hc⟩⟩
    case pos hp =>
      have ⟨m, hm⟩ := Nat.exists_eq_succ_of_ne_zero (Int.lt_toNat.mpr hp.left).ne'
      rw [hm]
      exact ⟨fun d hd => hn d <| List.mem_of_mem_take hd, fun d hd => hn d <| List.mem_of_mem_drop hd,
        .inr ⟨c, _, rfl, hc⟩⟩
    case pos => exact ⟨isNumeral_zero, isNumeral_append isNumeral_zeros hn, .inl rfl⟩
    case neg =>
      exact ⟨fun d hd => hn d <| List.mem_of_mem_take hd, fun d hd => hn d <| List.mem_of_mem_drop hd,
        .inr ⟨c, _, rfl, hc⟩⟩

-- Whatever the notation, it has the digits of the number, and the exponent accounts for the point.
theorem literal_value (x : Numeral) :
    ofDecimal x.negative (value (x.literal.whole ++ x.literal.fraction))
      (x.literal.exponent.getD 0 - x.literal.fraction.length) = x := by
  have hv : value x.digits = x.coefficient := Nat.ofDigitChars_ten_toDigits
  have hl : 0 < x.digits.length := Nat.length_toDigits_pos
  have exact (e : Int) (he : e = x.exponent) : ofDecimal x.negative (value x.digits) e = x := by
    have := ofDecimal_eq x 0
    rwa [Nat.pow_zero, Nat.mul_one, ← hv, Int.natCast_zero, Int.sub_zero, ← he] at this
  rw [literal, Literal.ofDigits]
  split_ifs
  case pos h =>
    have he : x.exponent - ((x.digits.length + x.exponent - x.digits.length).toNat : Int) = 0 := by omega
    have hz := ofDecimal_eq x (x.digits.length + x.exponent - x.digits.length).toNat
    rw [← hv, ← value_append_zeros, he] at hz
    rwa [List.append_nil]
  case pos h _ =>
    rw [List.take_append_drop]
    refine exact _ ?_
    simp
    omega
  case pos h _ =>
    dsimp only
    rw [List.singleton_append, value_zeros_append]
    refine exact _ ?_
    simp
    omega
  case neg =>
    rw [List.take_append_drop]
    refine exact _ ?_
    simp
    omega

theorem head_chars (x : Numeral) : ∃ c cs, x.chars = c :: cs ∧ (c = '-' ∨ c.isDigit) := by
  have hl := x.literal_valid
  have ⟨d, ds, hw⟩ := hl.exists_cons
  have hd := hl.whole d (hw ▸ .head _)
  rw [chars]
  cases x.negative
  case true  => exact ⟨_, _, rfl, .inl rfl⟩
  case false => exact ⟨d, _, by rw [Literal.chars, hw]; rfl, .inr hd⟩

-- Every number is read back from its text.
theorem read_chars (hr : Ends r) : read (x.chars ++ r) = some (x, r) := by
  rw [chars, List.append_assoc, read_literal x.literal_valid hr, literal_value]

-- The coefficient takes over what the exponent does not account for.
theorem strip_mul (h : 0 < s) :
    e ≤ (strip n s e).snd ∧ (strip n s e).fst * 10 ^ ((strip n s e).snd - e).toNat = s := by
  induction n generalizing s e
  case zero => simp [strip]
  case succ n ih =>
    rw [strip]
    split
    case isFalse => simp
    case isTrue hs =>
      obtain ⟨hle, hm⟩ := @ih (s / 10) (e + 1) (by omega)
      have hz : ((strip n (s / 10) (e + 1)).snd - e).toNat =
          ((strip n (s / 10) (e + 1)).snd - (e + 1)).toNat + 1 := by omega
      rw [hz, pow_succ, ← mul_assoc, hm]
      exact ⟨by omega, by omega⟩

-- Zeros at the end may be counted by the exponent.
theorem ofDecimal_mul_pow : ofDecimal b (s * 10 ^ z) 0 = ofDecimal b s z := by
  by_cases h₀ : s = 0
  case pos => simp [h₀, ofDecimal]
  case neg =>
    obtain ⟨he, hm⟩ := @strip_mul s s z (Nat.pos_of_ne_zero h₀)
    have hb : (ofDecimal b s z).negative = b := by simp [ofDecimal, h₀]
    have hc : (ofDecimal b s z).coefficient = (strip s s z).fst := by simp [ofDecimal, h₀]
    have hx : (ofDecimal b s z).exponent = (strip s s z).snd := by simp [ofDecimal, h₀]
    rw [← hc, ← hx] at hm
    rw [← hx] at he
    have hv := ofDecimal_eq (ofDecimal b s z) (ofDecimal b s z).exponent.toNat
    have hz : (ofDecimal b s z).exponent.toNat = ((ofDecimal b s z).exponent - z).toNat + z := by omega
    rwa [hb, hz, pow_add, ← Nat.mul_assoc, hm, ← hz, Int.toNat_of_nonneg (by omega), sub_self] at hv

-- A moderate natural number is written with its digits only.
theorem isNumeral_ofNat (h₀ : 0 < n) (h : n < 10 ^ 21) : IsNumeral (ofNat n).chars := by
  obtain ⟨he, hm⟩ := @strip_mul n n 0 h₀
  have hc : (ofNat n).coefficient = (strip n n 0).fst := by simp [ofNat, ofDecimal, h₀.ne']
  have hx : (ofNat n).exponent = (strip n n 0).snd := by simp [ofNat, ofDecimal, h₀.ne']
  have hn : (ofNat n).negative = false := by simp [ofNat, ofDecimal, h₀.ne']
  rw [← hc, ← hx, sub_zero] at hm
  rw [← hx] at he
  have hp : 0 < (ofNat n).coefficient := Nat.pos_of_mul_pos_right (hm ▸ h₀)
  generalize (ofNat n) = x at *
  obtain ⟨z, hz⟩ := Int.eq_ofNat_of_zero_le he
  rw [hz, Int.toNat_natCast] at hm
  have hz' : z < 21 := (Nat.pow_lt_pow_iff_right (a := 10) (by decide)).mp <|
    (Nat.le_mul_of_pos_left _ hp).trans_lt (hm ▸ h)
  have hl : x.digits.length ≤ 21 - z := by
    refine (Nat.length_toDigits_le_iff (by decide) (by omega)).mpr ?_
    refine (Nat.mul_lt_mul_right (a := 10 ^ z) (Nat.pow_pos (by decide))).mp ?_
    rw [hm, ← pow_add, Nat.sub_add_cancel hz'.le]
    exact h
  have hd : x.literal = ⟨x.digits ++ .replicate ((x.digits.length + x.exponent) - x.digits.length).toNat '0',
      [], none⟩ := by
    rw [literal, Literal.ofDigits, if_pos (by omega)]
  rw [chars, hn, hd]
  simpa [sign, Literal.chars, Literal.fractionChars, Literal.exponentChars] using
    isNumeral_append x.isNumeral_digits isNumeral_zeros

-- The characters of a number.
def IsNumberChar (c : Char) : Prop :=
  c.isDigit ∨ c = '-' ∨ c = '.' ∨ c = 'e' ∨ c = '+'

theorem isNumberChar_of_mem (h : c ∈ x.chars) : IsNumberChar c := by
  have hl := x.literal_valid
  obtain h | h := List.mem_append.mp h
  case inl =>
    cases hn : x.negative <;> rw [hn] at h
    case true  => exact .inr <| .inl <| List.mem_singleton.mp h
    case false => contradiction
  case inr =>
    obtain h | h := List.mem_append.mp h
    case inl => exact .inl <| hl.whole c h
    case inr =>
      obtain h | h := List.mem_append.mp h
      case inl =>
        rw [Literal.fractionChars] at h
        split at h
        case isTrue => contradiction
        case isFalse =>
          cases h
          case head   => exact .inr <| .inr <| .inl rfl
          case tail h => exact .inl <| hl.fraction c h
      case inr =>
        cases he : x.literal.exponent <;> rw [he] at h
        case none => contradiction
        case some e =>
          rw [Literal.exponentChars] at h
          cases h
          case head => exact .inr <| .inr <| .inr <| .inl rfl
          case tail h =>
            cases h
            case head   => by_cases he : 0 ≤ e <;> simp [IsNumberChar, he]
            case tail h => exact .inl <| Nat.isDigit_of_mem_toDigits (by decide) le_rfl h

theorem IsNumberChar.toNat_mem (h : IsNumberChar c) :
    48 ≤ c.toNat ∧ c.toNat ≤ 57 ∨ c.toNat = 45 ∨ c.toNat = 46 ∨ c.toNat = 101 ∨ c.toNat = 43 := by
  obtain h | rfl | rfl | rfl | rfl := h
  case inl => exact .inl <| toNat_of_isDigit h
  all_goals decide

end Numeral
