import Drovery.Data.Json
import Drovery.Data.JsString

-- How JavaScript converts JSON values. What is undefined is no value.
namespace Json

open Decimal JsString

-- A property of a parsed value, where the last one of its name counts.
def get : Json → String → Option Json
  | object ps, key => ps.reverse.lookup key
  | _,         _   => none

def truthy : Option Json → Bool
  | none              => false
  | some null         => false
  | some (bool b)     => b
  | some (number x)   => x.units ≠ 0
  | some (infinite _) => true
  | some (string s)   => s ≠ ""
  | some (array _)    => true
  | some (object _)   => true

def infinity (negative : Bool) : String :=
  if negative then "-Infinity" else "Infinity"

-- The conversion to a string. It throws for an object that has an own property `toString`, since this
-- cannot be called, and where more arrays are nested than the stack is deep.
mutual

def text : Nat → Json → Option String
  | _,     null        => some "null"
  | _,     bool true   => some "true"
  | _,     bool false  => some "false"
  | _,     number x    => some x.text
  | _,     infinite b  => some <| infinity b
  | _,     string s    => some s
  | 0,     array _     => none
  | d + 1, array xs    => (elementTexts d xs).map (",".intercalate ·)
  | _,     object ps   => if "toString" ∈ ps.map Prod.fst then none else some "[object Object]"

def elementTexts : Nat → List Json → Option (List String)
  | _, []         => some []
  | d, null :: xs => (elementTexts d xs).map ("" :: ·)
  | d, x :: xs    => do
    let s ← text d x
    let ss ← elementTexts d xs
    some (s :: ss)

end

inductive Numeric
  | nan
  | infinite (negative : Bool)
  | finite (x : JsNumber)
  deriving DecidableEq

namespace Numeric

def ofNumeral (x : Numeral) : Numeric :=
  (JsNumber.ofNumeral x).elim (infinite x.negative) finite

def ofRat (q : ℚ) : Numeric :=
  (JsNumber.ofRat q).elim (infinite (q < 0)) finite

-- The difference of a number and a value.
def subFrom (q : ℚ) : Numeric → Numeric
  | nan        => nan
  | infinite b => infinite !b
  | finite x   => ofRat (q - x.toRat)

-- The comparisons, which NaN never passes.
def lt (q : ℚ) : Numeric → Bool
  | nan        => false
  | infinite b => !b
  | finite x   => q < x.toRat

end Numeric

def radix (c : Char) : Option Nat :=
  if c = 'x' ∨ c = 'X' then some 16
  else if c = 'o' ∨ c = 'O' then some 8
  else if c = 'b' ∨ c = 'B' then some 2
  else none

def digitValue (c : Char) : Nat :=
  if c.isDigit then c.toNat - 48
  else if c.isLower then c.toNat - 87
  else if c.isUpper then c.toNat - 55
  else 36

def integerOfRadix (b : Nat) (cs : List Char) : Numeric :=
  if cs ≠ [] ∧ cs.all (digitValue · < b) then
    .ofNumeral <| .ofNat <| cs.foldl (fun n c => n * b + digitValue c) 0
  else
    .nan

-- The digits behind the point, which may be missing.
def fractionDigits : List Char → List Char × List Char
  | '.' :: cs => (cs.takeWhile Char.isDigit, cs.dropWhile Char.isDigit)
  | cs        => ([], cs)

def unsignedDecimal (negative : Bool) (cs : List Char) : Numeric :=
  if cs = "Infinity".toList then
    .infinite negative
  else
    let whole := cs.takeWhile Char.isDigit
    let (fraction, cs) := fractionDigits <| cs.dropWhile Char.isDigit
    if whole = [] ∧ fraction = [] then
      .nan
    else
      match Numeral.readExponent cs with
      | some (e, []) => .ofNumeral <| .ofDecimal negative (value (whole ++ fraction)) (e - fraction.length)
      | _            => .nan

def decimal : List Char → Numeric
  | '-' :: cs => unsignedDecimal true cs
  | '+' :: cs => unsignedDecimal false cs
  | cs        => unsignedDecimal false cs

def stringToNumber (s : String) : Numeric :=
  match trim s.toList with
  | []             => .finite .zero
  | '0' :: c :: cs =>
    match radix c with
    | some b => integerOfRadix b cs
    | none   => decimal ('0' :: c :: cs)
  | cs             => decimal cs

-- The conversion to a number, which throws under the same conditions.
def toNumber (d : Nat) : Json → Option Numeric
  | null       => some <| .finite .zero
  | bool true  => some <| .finite <| .ofNat 1 (by decide)
  | bool false => some <| .finite .zero
  | number x   => some <| .finite x
  | infinite b => some <| .infinite b
  | string s   => some <| stringToNumber s
  | array xs   => (text d <| array xs).map stringToNumber
  | object ps  => (text d <| object ps).map stringToNumber

open Numeral

variable {x : Numeral} {y : JsNumber} {c : Char} {ds r : List Char} {d : Nat} {b : Bool}

@[simp]
theorem text_number : (number y).text d = some y.text := by
  rw [text]

@[simp]
theorem text_infinite : (infinite b).text d = some (infinity b) := by
  rw [text]

@[simp]
theorem text_string {s : String} : (string s).text d = some s := by
  rw [text]

theorem isWhite_eq_false (h : IsNumberChar c) : isWhite c = false := by
  have hc := h.toNat_mem
  simp [isWhite]
  omega

theorem radix_eq_none (h : IsNumberChar c) : radix c = none := by
  have hx : ¬(c = 'x' ∨ c = 'X') := by rintro (rfl | rfl) <;> exact absurd h.toNat_mem (by decide)
  have ho : ¬(c = 'o' ∨ c = 'O') := by rintro (rfl | rfl) <;> exact absurd h.toNat_mem (by decide)
  have hb : ¬(c = 'b' ∨ c = 'B') := by rintro (rfl | rfl) <;> exact absurd h.toNat_mem (by decide)
  rw [radix, if_neg hx, if_neg ho, if_neg hb]

theorem trim_chars : trim x.chars = x.chars := by
  have not_white (c : Char) (h : c ∈ x.chars) : ¬isWhite c = true :=
    Bool.eq_false_iff.mp <| isWhite_eq_false <| isNumberChar_of_mem h
  have hd : x.chars.dropWhile isWhite = x.chars :=
    List.dropWhile_eq_self_iff.mpr fun _ => not_white _ <| List.getElem_mem _
  have hr : x.chars.rdropWhile isWhite = x.chars :=
    List.rdropWhile_eq_self_iff.mpr fun _ => not_white _ <| List.getLast_mem _
  rw [trim, hd, hr]

theorem fractionDigits_append (hd : IsNumeral ds) (hr : ∀ c ∈ r.head?, ¬c.isDigit ∧ c ≠ '.') :
    fractionDigits (Literal.fractionChars ds ++ r) = (ds, r) := by
  by_cases hn : ds = []
  case neg =>
    have ⟨ht, hw⟩ := takeWhile_append hd fun c hc => (hr c hc).left
    rw [Literal.fractionChars, if_neg hn, List.cons_append, fractionDigits, ht, hw]
  case pos =>
    rw [Literal.fractionChars, if_pos hn, hn, List.nil_append]
    cases r
    case nil => rfl
    case cons c r =>
      have hc : c ≠ '.' := (hr c rfl).right
      simp [fractionDigits, hc]

theorem unsignedDecimal_literal : unsignedDecimal x.negative x.literal.chars = .ofNumeral x := by
  have hl := x.literal_valid
  obtain ⟨c, cs, hw⟩ := hl.exists_cons
  have hi : x.literal.chars ≠ "Infinity".toList := by
    rw [Literal.chars, hw]
    intro h
    have hc : c = 'I' := (List.cons.inj h).left
    exact absurd (hl.whole c (hw ▸ .head _)) (by rw [hc]; decide)
  have hr : Ends [] := by simp [Ends]
  obtain ⟨ht, hd⟩ := takeWhile_append hl.whole <| @head_fractionChars [] x.literal.fraction x.literal.exponent hr
  have hf := fractionDigits_append hl.fraction <| @head_exponentChars [] x.literal.exponent hr
  have he := @readExponent_append [] x.literal.exponent hr
  rw [List.append_nil] at ht hd hf he
  rw [unsignedDecimal, if_neg hi, Literal.chars, ht, hd, hf]
  dsimp only
  rw [if_neg (by simp [hw]), he]
  exact congrArg Numeric.ofNumeral x.literal_value

theorem decimal_chars : decimal x.chars = .ofNumeral x := by
  have hu := @unsignedDecimal_literal x
  rw [chars]
  cases hn : x.negative <;> rw [hn] at hu
  case true => exact hu
  case false =>
    obtain ⟨c, cs, hw⟩ := x.literal_valid.exists_cons
    have hd := x.literal_valid.whole c (hw ▸ .head _)
    have hc : c ≠ '-' ∧ c ≠ '+' := by
      constructor
      case left  => rintro rfl; exact absurd hd (by decide)
      case right => rintro rfl; exact absurd hd (by decide)
    rw [Literal.chars, hw] at hu ⊢
    simpa [sign, decimal, hc] using hu

theorem Numeric.ofNumeral_numeral : ofNumeral y.numeral = finite y := by
  rw [ofNumeral, JsNumber.ofNumeral_numeral, Option.elim_some]

theorem ne_text {s : String} {c : Char} (hc : c ∈ s.toList) (hn : ¬IsNumberChar c) : s ≠ y.text := by
  rintro rfl
  rw [JsNumber.text, String.toList_ofList] at hc
  exact hn <| isNumberChar_of_mem hc

-- The text of a number is converted back to it.
theorem stringToNumber_text : stringToNumber y.text = .finite y := by
  have ht : trim y.text.toList = y.numeral.chars := by
    rw [JsNumber.text, String.toList_ofList, JsNumber.chars, trim_chars]
  obtain ⟨c, cs, hc, _⟩ := y.numeral.head_chars
  rw [← Numeric.ofNumeral_numeral, stringToNumber, ht]
  split
  case h_1 he => rw [hc] at he; contradiction
  case h_2 c cs he =>
    have hn : IsNumberChar c := isNumberChar_of_mem (x := y.numeral) (he ▸ .tail _ (.head _))
    rw [radix_eq_none hn, ← he]
    exact decimal_chars
  case h_3 => exact decimal_chars

-- Whatever has the text of a number is converted to it.
theorem toNumber_of_text {v : Json} (h : v.text d = some y.text) : v.toNumber d = some (.finite y) := by
  have ne {s : String} {c : Char} (hc : c ∈ s.toList) (hn : ¬IsNumberChar c) : some s ≠ some y.text :=
    fun h => ne_text hc hn <| Option.some.inj h
  cases v
  case null     => exact absurd h <| ne (c := 'n') (by decide) (by unfold IsNumberChar; decide)
  case bool b   =>
    cases b
    case true  => exact absurd h <| ne (c := 't') (by decide) (by unfold IsNumberChar; decide)
    case false => exact absurd h <| ne (c := 'f') (by decide) (by unfold IsNumberChar; decide)
  case number z =>
    rw [text_number] at h
    exact congrArg (some ∘ Numeric.finite) <| JsNumber.text_injective <| Option.some.inj h
  case infinite b =>
    rw [text_infinite] at h
    have hc : 'I' ∈ (infinity b).toList := by cases b <;> decide
    exact absurd h <| ne hc (by unfold IsNumberChar; decide)
  case string s =>
    rw [text_string] at h
    obtain rfl := Option.some.inj h
    exact congrArg some stringToNumber_text
  case array    => rw [toNumber, h, Option.map_some, stringToNumber_text]
  case object   => rw [toNumber, h, Option.map_some, stringToNumber_text]

end Json
