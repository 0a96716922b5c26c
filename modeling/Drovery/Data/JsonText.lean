import Drovery.Data.Json

-- The texts of JSON values, and what is read from a text.
namespace Json

def quote        : Char := '\x22'
def backslash    : Char := '\x5c'
def leftBracket  : Char := '\x5b'
def rightBracket : Char := '\x5d'
def leftBrace    : Char := '\x7b'
def rightBrace   : Char := '\x7d'

-- The characters with a short escape.
def escapes : List (Char × Char) :=
  [(quote, quote), (backslash, backslash), ('\x08', 'b'), ('\x0c', 'f'), ('\x0a', 'n'), ('\x0d', 'r'),
    ('\x09', 't')]

def escape (c : Char) : List Char :=
  match escapes.lookup c with
  | some e => [backslash, e]
  | none   =>
    if c.toNat < 32 then
      [backslash, 'u', '0', '0', Nat.digitChar (c.toNat / 16), Nat.digitChar (c.toNat % 16)]
    else
      [c]

def quoted (s : List Char) : List Char :=
  quote :: (s.flatMap escape ++ [quote])

-- A numeral beyond all numbers.
def overflow : Numeral.Literal where
  whole    := ['1']
  fraction := []
  exponent := some 999

-- A text from which the value can be read.
mutual

def chars : Json → List Char
  | null                  => ['n', 'u', 'l', 'l']
  | bool true             => ['t', 'r', 'u', 'e']
  | bool false            => ['f', 'a', 'l', 's', 'e']
  | number x              => x.chars
  | infinite b            => Numeral.sign b ++ overflow.chars
  | string s              => quoted s.toList
  | array []              => [leftBracket, rightBracket]
  | array (x :: xs)       => leftBracket :: (chars x ++ elementChars xs)
  | object []             => [leftBrace, rightBrace]
  | object ((k, v) :: ps) => leftBrace :: (quoted k.toList ++ ':' :: (chars v ++ propertyChars ps))

def elementChars : List Json → List Char
  | []      => [rightBracket]
  | x :: xs => ',' :: (chars x ++ elementChars xs)

def propertyChars : List (String × Json) → List Char
  | []           => [rightBrace]
  | (k, v) :: ps => ',' :: (quoted k.toList ++ ':' :: (chars v ++ propertyChars ps))

end

-- What is left of a value in a text, where infinities are not written.
mutual

def bounded : Json → Json
  | infinite _ => null
  | array xs   => array <| boundedElements xs
  | object ps  => object <| boundedProperties ps
  | v          => v

def boundedElements : List Json → List Json
  | []      => []
  | x :: xs => bounded x :: boundedElements xs

def boundedProperties : List (String × Json) → List (String × Json)
  | []           => []
  | (k, v) :: ps => (k, bounded v) :: boundedProperties ps

end

def stringify (v : Json) : String :=
  .ofList v.bounded.chars

def isSpace (c : Char) : Bool :=
  c = ' ' || c = '\x09' || c = '\x0a' || c = '\x0d'

def skipSpace (cs : List Char) : List Char :=
  cs.dropWhile isSpace

def hexValue (c : Char) : Option Nat :=
  if c.isDigit then some (c.toNat - 48)
  else if 97 ≤ c.toNat ∧ c.toNat ≤ 102 then some (c.toNat - 87)
  else if 65 ≤ c.toNat ∧ c.toNat ≤ 70 then some (c.toNat - 55)
  else none

-- The four digits of an escaped code unit.
def readUnit : List Char → Option (Nat × List Char)
  | a :: b :: c :: d :: cs => do
    let a ← hexValue a
    let b ← hexValue b
    let c ← hexValue c
    let d ← hexValue d
    some (((a * 16 + b) * 16 + c) * 16 + d, cs)
  | _ => none

def isHigh (u : Nat) : Prop := 0xd800 ≤ u ∧ u < 0xdc00
def isLow (u : Nat) : Prop := 0xdc00 ≤ u ∧ u < 0xe000

instance : DecidablePred isHigh := fun _ => inferInstanceAs (Decidable (_ ∧ _))
instance : DecidablePred isLow := fun _ => inferInstanceAs (Decidable (_ ∧ _))

-- Two surrogates form one character. A lone surrogate is not a character.
def readUnicode (cs : List Char) : Option (Char × List Char) := do
  let (u, cs) ← readUnit cs
  if isLow u then
    some ('\ufffd', cs)
  else if isHigh u then
    match cs with
    | '\x5c' :: 'u' :: ds =>
      let (l, ds) ← readUnit ds
      if isLow l then
        some (.ofNat (0x10000 + (u - 0xd800) * 0x400 + (l - 0xdc00)), ds)
      else
        some ('\ufffd', cs)
    | _ => some ('\ufffd', cs)
  else
    some (.ofNat u, cs)

def unescape (e : Char) : Option Char :=
  if e = '/' then some '/' else (escapes.find? (·.snd = e)).map Prod.fst

def readChar : List Char → Option (Char × List Char)
  | []      => none
  | c :: cs =>
    if c = backslash then
      match cs with
      | []      => none
      | e :: cs => if e = 'u' then readUnicode cs else (unescape e).map (·, cs)
    else if c.toNat < 32 then
      none
    else
      some (c, cs)

-- The rest of a string, up to its closing quote. The numbers bound the depth of the recursion, where
-- the length of the text is enough.
def readString : Nat → List Char → Option (List Char × List Char)
  | n + 1, c :: cs =>
    if c = quote then
      some ([], cs)
    else do
      let (d, cs) ← readChar (c :: cs)
      let (s, cs) ← readString n cs
      some (d :: s, cs)
  | _, _ => none

def readKeyword : List Char → Option (Json × List Char)
  | 'n' :: 'u' :: 'l' :: 'l' :: cs        => some (null, cs)
  | 't' :: 'r' :: 'u' :: 'e' :: cs        => some (bool true, cs)
  | 'f' :: 'a' :: 'l' :: 's' :: 'e' :: cs => some (bool false, cs)
  | _                                     => none

-- The given character, behind spaces.
def expect (c : Char) (cs : List Char) : Option (List Char) :=
  match skipSpace cs with
  | d :: cs => if d = c then some cs else none
  | []      => none

def ofNumeral (x : Numeral) : Json :=
  (JsNumber.ofNumeral x).elim (infinite x.negative) number

mutual

def readValue : Nat → List Char → Option (Json × List Char)
  | n + 1, cs =>
    match skipSpace cs with
    | [] => none
    | c :: cs =>
      if c = leftBracket then
        match expect rightBracket cs with
        | some cs => some (array [], cs)
        | none    => do
          let (x, cs) ← readValue n cs
          let (xs, cs) ← readElements n cs
          some (array (x :: xs), cs)
      else if c = leftBrace then
        match expect rightBrace cs with
        | some cs => some (object [], cs)
        | none    => do
          let (p, cs) ← readProperty n cs
          let (ps, cs) ← readProperties n cs
          some (object (p :: ps), cs)
      else if c = quote then
        (readString n cs).map fun (s, cs) => (string (.ofList s), cs)
      else
        readKeyword (c :: cs) <|> (Numeral.read (c :: cs)).map fun (x, cs) => (ofNumeral x, cs)
  | 0, _ => none

def readElements : Nat → List Char → Option (List Json × List Char)
  | n + 1, cs =>
    match expect rightBracket cs with
    | some cs => some ([], cs)
    | none    => do
      let cs ← expect ',' cs
      let (x, cs) ← readValue n cs
      let (xs, cs) ← readElements n cs
      some (x :: xs, cs)
  | 0, _ => none

def readProperty : Nat → List Char → Option ((String × Json) × List Char)
  | n + 1, cs => do
    let cs ← expect quote cs
    let (k, cs) ← readString n cs
    let cs ← expect ':' cs
    let (v, cs) ← readValue n cs
    some ((.ofList k, v), cs)
  | 0, _ => none

def readProperties : Nat → List Char → Option (List (String × Json) × List Char)
  | n + 1, cs =>
    match expect rightBrace cs with
    | some cs => some ([], cs)
    | none    => do
      let cs ← expect ',' cs
      let (p, cs) ← readProperty n cs
      let (ps, cs) ← readProperties n cs
      some (p :: ps, cs)
  | 0, _ => none

end

-- The value of a text, or nothing if this is not JSON.
def parse (s : String) : Option Json :=
  match readValue (s.toList.length + 1) s.toList with
  | some (v, cs) => if skipSpace cs = [] then some v else none
  | none         => none

section

variable {c d e : Char} {cs r s : List Char} {n : Nat} {v : Json} {k : String} {b : Bool}

theorem skipSpace_cons (h : isSpace c = false) : skipSpace (c :: cs) = c :: cs := by
  simp [skipSpace, h]

theorem expect_self (h : isSpace c = false) : expect c (c :: cs) = some cs := by
  simp [expect, skipSpace_cons h]

theorem expect_of_ne (h : isSpace d = false) (hn : d ≠ c) : expect c (d :: cs) = none := by
  simp [expect, skipSpace_cons h, hn]

theorem hexValue_digitChar (h : n < 16) : hexValue (Nat.digitChar n) = some n := by
  revert n
  decide

theorem unescape_of_mem (h : (c, e) ∈ escapes) : e ≠ 'u' ∧ unescape e = some c := by
  have listed : escapes.all fun p => p.snd ≠ 'u' ∧ unescape p.snd = some p.fst := by decide
  simpa using List.all_eq_true.mp listed _ h

theorem mem_of_lookup (h : escapes.lookup c = some e) : (c, e) ∈ escapes := by
  have ⟨l₁, l₂, he, _⟩ := List.lookup_eq_some_iff.mp h
  rw [he]
  exact List.mem_append_right _ <| .head _

theorem ne_of_lookup (h : escapes.lookup c = none) : c ≠ quote ∧ c ≠ backslash := by
  constructor
  case left  => rintro rfl; exact absurd h (by decide)
  case right => rintro rfl; exact absurd h (by decide)

theorem readChar_escape : readChar (escape c ++ r) = some (c, r) := by
  rw [escape]
  cases h : escapes.lookup c
  case some e =>
    have ⟨hu, he⟩ := unescape_of_mem <| mem_of_lookup h
    simp [readChar, hu, he]
  case none =>
    have ⟨_, hb⟩ := ne_of_lookup h
    dsimp only
    split
    case isFalse hc => simp [readChar, hb, hc]
    case isTrue hc =>
      have hz : hexValue '0' = some 0 := by decide
      have h₁ : hexValue (Nat.digitChar (c.toNat / 16)) = some (c.toNat / 16) := hexValue_digitChar (by omega)
      have h₂ : hexValue (Nat.digitChar (c.toNat % 16)) = some (c.toNat % 16) := hexValue_digitChar (by omega)
      have hn : (0 * 16 + 0) * 16 + c.toNat / 16 = c.toNat / 16 := by omega
      have hv : c.toNat / 16 * 16 + c.toNat % 16 = c.toNat := by omega
      have hl : ¬isLow c.toNat := by unfold isLow; omega
      have hh : ¬isHigh c.toNat := by unfold isHigh; omega
      simp [readChar, readUnicode, readUnit, hz, h₁, h₂, hv, hl, hh]

theorem head_escape (c : Char) : ∃ d ds, escape c = d :: ds ∧ d ≠ quote := by
  rw [escape]
  cases h : escapes.lookup c
  case some => exact ⟨_, _, rfl, by decide⟩
  case none =>
    dsimp only
    split
    case isTrue  => exact ⟨_, _, rfl, by decide⟩
    case isFalse => exact ⟨_, _, rfl, (ne_of_lookup h).left⟩

theorem length_le_flatMap_escape : s.length ≤ (s.flatMap escape).length := by
  induction s
  case nil => exact le_rfl
  case cons c s ih =>
    have ⟨_, _, he, _⟩ := head_escape c
    rw [List.flatMap_cons, List.length_append, he, List.length_cons, List.length_cons]
    omega

theorem length_quoted : s.length + 2 ≤ (quoted s).length := by
  have := @length_le_flatMap_escape s
  rw [quoted, List.length_cons, List.length_append, List.length_singleton]
  omega

theorem readString_append (h : s.length < n) :
    readString n (s.flatMap escape ++ quote :: r) = some (s, r) := by
  induction s generalizing n <;> cases n
  case nil.zero  => contradiction
  case cons.zero => contradiction
  case nil.succ  => simp [readString]
  case cons.succ c s ih n =>
    have ⟨d, ds, he, hd⟩ := head_escape c
    have hc := @readChar_escape c (s.flatMap escape ++ quote :: r)
    rw [List.flatMap_cons, List.append_assoc]
    rw [he, List.cons_append] at hc ⊢
    simp [readString, hd, hc, ih (Nat.lt_of_succ_lt_succ h)]

theorem ne_of_isDigit (h : c.isDigit) (hd : d.isDigit = false) : c ≠ d := by
  rintro rfl
  simp [h] at hd

-- What a number begins with, nothing else begins with.
theorem ne_of_head_number (h : c = '-' ∨ c.isDigit) : isSpace c = false ∧ c ≠ leftBracket ∧
    c ≠ rightBracket ∧ c ≠ leftBrace ∧ c ≠ quote ∧ c ≠ 'n' ∧ c ≠ 't' ∧ c ≠ 'f' := by
  cases h
  case inl h => subst h; decide
  case inr h =>
    have ne (d : Char) (hd : d.isDigit = false) : c ≠ d := ne_of_isDigit h hd
    have hs : isSpace c = false := by
      simp [isSpace, ne ' ' rfl, ne '\x09' rfl, ne '\x0a' rfl, ne '\x0d' rfl]
    exact ⟨hs, ne _ rfl, ne _ rfl, ne _ rfl, ne _ rfl, ne _ rfl, ne _ rfl, ne _ rfl⟩

theorem head_overflow : ∃ c cs, Numeral.sign b ++ overflow.chars = c :: cs ∧ (c = '-' ∨ c.isDigit) := by
  cases b
  case true  => exact ⟨_, _, rfl, .inl rfl⟩
  case false => exact ⟨_, _, rfl, .inr rfl⟩

theorem read_overflow (hr : Numeral.Ends r) :
    ∃ x, Numeral.read (Numeral.sign b ++ overflow.chars ++ r) = some (x, r) ∧ ofNumeral x = infinite b := by
  have hv : overflow.Valid := ⟨by decide, nofun, .inr ⟨_, _, rfl, by decide⟩⟩
  have hd : Decimal.value (overflow.whole ++ overflow.fraction) = 1 := by decide
  have he : overflow.exponent.getD 0 - (overflow.fraction.length : Int) = 999 := by decide
  have hx := Numeral.read_literal (b := b) hv hr
  have hn : JsNumber.ofNumeral (.ofDecimal b 1 999) = none := by cases b <;> decide +kernel
  have hs : (Numeral.ofDecimal b 1 999).negative = b := by cases b <;> decide
  have hi : ofNumeral (.ofDecimal b 1 999) = infinite b := by rw [ofNumeral, hn, hs, Option.elim_none]
  rw [hd, he, ← List.append_assoc] at hx
  exact ⟨_, hx, hi⟩

theorem head_chars (v : Json) : ∃ c cs, chars v = c :: cs ∧ isSpace c = false ∧ c ≠ rightBracket := by
  cases v
  case null      => exact ⟨_, _, rfl, by decide, by decide⟩
  case bool b    => cases b <;> exact ⟨_, _, rfl, by decide, by decide⟩
  case string    => exact ⟨_, _, rfl, by decide, by decide⟩
  case array xs  => cases xs <;> exact ⟨_, _, rfl, by decide, by decide⟩
  case object ps => cases ps <;> exact ⟨_, _, rfl, by decide, by decide⟩
  case number x =>
    have ⟨c, cs, he, hc⟩ := x.numeral.head_chars
    have ⟨hs, _, hb, _⟩ := ne_of_head_number hc
    exact ⟨c, cs, he, hs, hb⟩
  case infinite b =>
    have ⟨c, cs, he, hc⟩ := @head_overflow b
    have ⟨hs, _, hb, _⟩ := ne_of_head_number hc
    exact ⟨c, cs, he, hs, hb⟩

theorem ends_elementChars (xs : List Json) : Numeral.Ends (elementChars xs ++ r) := by
  intro c hc
  cases xs <;> obtain rfl := Option.some.inj hc <;> decide

theorem ends_propertyChars (ps : List (String × Json)) : Numeral.Ends (propertyChars ps ++ r) := by
  intro c hc
  cases ps <;> obtain rfl := Option.some.inj hc <;> decide

theorem readKeyword_eq_none (hn : c ≠ 'n') (ht : c ≠ 't') (hf : c ≠ 'f') : readKeyword (c :: cs) = none := by
  unfold readKeyword
  split <;> simp_all

theorem readValue_numeral {x : Numeral} (hc : c = '-' ∨ c.isDigit)
    (hx : Numeral.read (c :: cs) = some (x, r)) :
    readValue (n + 1) (c :: cs) = some (ofNumeral x, r) := by
  have ⟨hs, hb, _, hl, hq, hn, ht, hf⟩ := ne_of_head_number hc
  simp [readValue, skipSpace_cons hs, hb, hl, hq, readKeyword_eq_none hn ht hf, hx]

theorem readValue_number {x : JsNumber} (hr : Numeral.Ends r) :
    readValue (n + 1) (x.chars ++ r) = some (number x, r) := by
  have ⟨c, cs, he, hc⟩ := x.numeral.head_chars
  have hx := Numeral.read_chars (x := x.numeral) hr
  have hv : ofNumeral x.numeral = number x := by rw [ofNumeral, JsNumber.ofNumeral_numeral]; rfl
  rw [he, List.cons_append] at hx
  rw [JsNumber.chars, he, List.cons_append, readValue_numeral hc hx, hv]

theorem readValue_infinite (hr : Numeral.Ends r) :
    readValue (n + 1) (Numeral.sign b ++ overflow.chars ++ r) = some (infinite b, r) := by
  have ⟨c, cs, he, hc⟩ := @head_overflow b
  have ⟨x, hx, hv⟩ := @read_overflow r b hr
  rw [he, List.cons_append] at hx ⊢
  rw [readValue_numeral hc hx, hv]

theorem readValue_string {s : String} (h : s.toList.length < n) :
    readValue (n + 1) (quoted s.toList ++ r) = some (string s, r) := by
  have hs : isSpace quote = false := by decide
  have hb : quote ≠ leftBracket := by decide
  have hl : quote ≠ leftBrace := by decide
  have hr := @readString_append r _ _ h
  simp [quoted, readValue, skipSpace_cons hs, hb, hl, hr]

theorem readProperty_append (hk : k.toList.length < n) (hv : readValue n (chars v ++ r) = some (v, r)) :
    readProperty (n + 1) (quoted k.toList ++ ':' :: (chars v ++ r)) = some ((k, v), r) := by
  have hq : isSpace quote = false := by decide
  have hc : isSpace ':' = false := by decide
  have hr := @readString_append (':' :: (chars v ++ r)) _ _ hk
  simp [quoted, readProperty, expect_self hq, expect_self hc, hr, hv]

end

-- A value is read back from its text, whatever comes after it.
mutual

theorem readValue_chars : ∀ (v : Json) (n : Nat) (r : List Char), (chars v).length < n →
    Numeral.Ends r → readValue n (chars v ++ r) = some (v, r)
  | _,                     0,     _, h, _  => absurd h (Nat.not_lt_zero _)
  | null,                  _ + 1, _, _, _  => rfl
  | bool true,             _ + 1, _, _, _  => rfl
  | bool false,            _ + 1, _, _, _  => rfl
  | number _,              _ + 1, _, _, hr => readValue_number hr
  | infinite _,            _ + 1, _, _, hr => readValue_infinite hr
  | string s,              n + 1, _, h, _  => by
    have := @length_quoted s.toList
    rw [chars] at h ⊢
    exact readValue_string (by omega)
  | array [],              _ + 1, _, _, _  => rfl
  | object [],             _ + 1, _, _, _  => rfl
  | array (x :: xs),       n + 1, r, h, _  => by
    rw [chars, List.length_cons, List.length_append] at h
    have hx := readValue_chars x n (elementChars xs ++ r) (by omega) (ends_elementChars xs)
    have hxs := readElements_chars xs n r (by omega)
    have ⟨c, cs, he, hs, hb⟩ := head_chars x
    have hn : expect rightBracket (chars x ++ (elementChars xs ++ r)) = none := by
      rw [he]
      exact expect_of_ne hs hb
    have hl : isSpace leftBracket = false := by decide
    simp [chars, readValue, skipSpace_cons hl, hn, hx, hxs]
  | object ((k, v) :: ps), n + 1, r, h, _  => by
    have hq := @length_quoted k.toList
    rw [chars, List.length_cons, List.length_append, List.length_cons, List.length_append] at h
    have ⟨m, hm⟩ := Nat.exists_eq_succ_of_ne_zero (n := n) (by omega)
    subst hm
    have hv := readValue_chars v m (propertyChars ps ++ r) (by omega) (ends_propertyChars ps)
    have hk : k.toList.length < m := by omega
    have hp := readProperty_append hk hv
    have hps := readProperties_chars ps (m + 1) r (by omega)
    have hl : isSpace leftBrace = false := by decide
    have hb : leftBrace ≠ leftBracket := by decide
    have hn : expect rightBrace (quoted k.toList ++ ':' :: (chars v ++ (propertyChars ps ++ r))) = none :=
      expect_of_ne (by decide) (by decide)
    simp [chars, readValue, skipSpace_cons hl, hb, hn, hp, hps]

theorem readElements_chars : ∀ (xs : List Json) (n : Nat) (r : List Char), (elementChars xs).length < n →
    readElements n (elementChars xs ++ r) = some (xs, r)
  | _,       0,     _, h => absurd h (Nat.not_lt_zero _)
  | [],      _ + 1, _, _ => rfl
  | x :: xs, n + 1, r, h => by
    rw [elementChars, List.length_cons, List.length_append] at h
    have hx := readValue_chars x n (elementChars xs ++ r) (by omega) (ends_elementChars xs)
    have hxs := readElements_chars xs n r (by omega)
    have hc : isSpace ',' = false := by decide
    have hn : ',' ≠ rightBracket := by decide
    simp [elementChars, readElements, expect_of_ne hc hn, expect_self hc, hx, hxs]

theorem readProperties_chars : ∀ (ps : List (String × Json)) (n : Nat) (r : List Char),
    (propertyChars ps).length < n → readProperties n (propertyChars ps ++ r) = some (ps, r)
  | _,            0,     _, h => absurd h (Nat.not_lt_zero _)
  | [],           _ + 1, _, _ => rfl
  | (k, v) :: ps, n + 1, r, h => by
    have hq := @length_quoted k.toList
    rw [propertyChars, List.length_cons, List.length_append, List.length_cons, List.length_append] at h
    have ⟨m, hm⟩ := Nat.exists_eq_succ_of_ne_zero (n := n) (by omega)
    subst hm
    have hv := readValue_chars v m (propertyChars ps ++ r) (by omega) (ends_propertyChars ps)
    have hk : k.toList.length < m := by omega
    have hp := readProperty_append hk hv
    have hps := readProperties_chars ps (m + 1) r (by omega)
    have hc : isSpace ',' = false := by decide
    have hn : ',' ≠ rightBrace := by decide
    rw [propertyChars, List.cons_append, readProperties, expect_of_ne hc hn, expect_self hc]
    simp [hp, hps]

end

theorem parse_chars (v : Json) : parse (.ofList v.chars) = some v := by
  have hv := readValue_chars v ((chars v).length + 1) [] (Nat.lt_succ_self _) nofun
  rw [List.append_nil] at hv
  simp [parse, hv, skipSpace]

instance : DecidableEq Json :=
  have injective : Function.Injective fun v => String.ofList (chars v) := fun v w h =>
    Option.some.inj <| (parse_chars v).symm.trans <| (congrArg parse h).trans (parse_chars w)
  fun _ _ => decidable_of_iff _ injective.eq_iff

-- What has been written is read back, so that the text determines the value up to infinities.
theorem parse_stringify (v : Json) : parse (stringify v) = some v.bounded :=
  parse_chars _

theorem stringify_inj {v w : Json} : stringify v = stringify w ↔ v.bounded = w.bounded where
  mp h  := Option.some.inj <| (parse_stringify v).symm.trans <| (congrArg parse h).trans (parse_stringify w)
  mpr h := congrArg (String.ofList ∘ chars) h

end Json
