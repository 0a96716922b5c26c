import Drovery.Services.Workflows

namespace Drovery.WorkflowsService

-- A request for a code. The lookup finds the user of the delivery.
structure Generation where
  userId     : UserId
  deliveryId : Uuid
  found      : Option UserId
  timestamp  : DateNow
  positive   : 0 < timestamp.val

def Generation.run (C : QrCrypto) (g : Generation) : Except AppError String :=
  generateQrPayload C g.found g.timestamp g.userId g.deliveryId

def Generation.signed (g : Generation) : String :=
  g.deliveryId.text ++ "." ++ g.timestamp.number.text

def Generation.minted (C : QrCrypto) (g : Generation) : Json :=
  .object [
    ("deliveryId", .string g.deliveryId.text), ("timestamp", .number g.timestamp.number),
    ("sig", .string <| C.hmac g.signed)
  ]

-- A signature is known only for what has been signed.
def Unforged (C : QrCrypto) (gs : List Generation) (payload : String) : Prop :=
  ∀ parsed, Json.parse payload = some parsed → ∀ sig, parsed.get "sig" = some sig →
    ∀ text, C.equal sig (C.hmac text) → ∃ g ∈ gs, (∃ p, g.run C = .ok p) ∧ g.signed = text

-- What is accepted is what has been minted.
structure Exact (C : QrCrypto) (gs : List Generation) (now : DateNow) (payload : String) : Prop where
  total    : ∃ v, validateQrPayload C now payload = some v
  sound    : ∀ v, validateQrPayload C now payload = some v → v.valid →
    ∃ g ∈ gs, (∃ p, g.run C = .ok p) ∧ v.deliveryId = some (.string g.deliveryId.text) ∧
      now.val ≤ g.timestamp + qrTtlMs
  complete : ∀ g : Generation, g.run C = .ok payload → now.val ≤ g.timestamp + qrTtlMs →
    validateQrPayload C now payload = some (accepted <| .string g.deliveryId.text)

-- The fields of a parsed value, none of which is missing or falsy.
structure Fields (parsed deliveryId timestamp sig : Json) : Prop where
  truthy     : Json.truthy deliveryId ∧ Json.truthy timestamp ∧ Json.truthy sig
  deliveryId : parsed.get "deliveryId" = some deliveryId
  timestamp  : parsed.get "timestamp" = some timestamp
  sig        : parsed.get "sig" = some sig

-- The payload is not `null`, and the fields that are signed can be converted to strings. If the
-- signature is right and not expired, then the delivery is given by a string.
def Readable (C : QrCrypto) (now : DateNow) (payload : String) : Prop :=
  ∀ parsed, Json.parse payload = some parsed → parsed ≠ .null ∧
    ∀ deliveryId timestamp sig, Fields parsed deliveryId timestamp sig →
      ∃ s t, deliveryId.text C.depth = some s ∧ timestamp.text C.depth = some t ∧
        (C.equal sig (C.hmac <| s ++ "." ++ t) → isExpired C now timestamp = some false →
          deliveryId = .string s)

section

variable {C : QrCrypto} {gs : List Generation} {g : Generation} {now time : DateNow} {payload p s t : String}
variable {parsed deliveryId timestamp sig : Json}

theorem validate_malformed (h : ∀ parsed, Json.parse payload = some parsed → parsed ≠ .null ∧
    ∀ deliveryId timestamp sig, ¬Fields parsed deliveryId timestamp sig) :
    validateQrPayload C now payload = some (refused .malformed) := by
  rw [validateQrPayload]
  split
  case h_1    => rfl
  case h_2 hp => exact absurd rfl (h _ hp).left
  case h_3 hp =>
    split
    case h_2 => rfl
    case h_1 hd ht hs =>
      split
      case isTrue    => rfl
      case isFalse f =>
        simp only [not_or, not_not] at f
        exact absurd ⟨f, hd, ht, hs⟩ <| (h _ hp).right _ _ _

theorem validate_fields (hp : Json.parse payload = some parsed)
    (f : Fields parsed deliveryId timestamp sig) :
    validateQrPayload C now payload = (do
      let expected ← signQr C deliveryId timestamp
      if ¬C.equal sig expected then some <| refused .badSignature
      else if ← isExpired C now timestamp then some <| refused .expired
      else some <| accepted deliveryId) := by
  have ⟨hd, ht, hs⟩ := f.truthy
  rw [validateQrPayload, hp]
  split
  case h_1 h => contradiction
  case h_2 h =>
    obtain rfl := Option.some.inj h
    exact absurd f.sig nofun
  case h_3 h =>
    obtain rfl := Option.some.inj h
    simp [f.deliveryId, f.timestamp, f.sig, hd, ht, hs]

theorem signQr_text (hd : deliveryId.text C.depth = some s) (ht : timestamp.text C.depth = some t) :
    signQr C deliveryId timestamp = some (C.hmac <| s ++ "." ++ t) := by
  simp [signQr, hd, ht]

theorem isExpired_isSome (ht : timestamp.text C.depth = some t) : (isExpired C now timestamp).isSome := by
  rw [isExpired, Option.isSome_map]
  cases timestamp
  case bool b => cases b <;> rfl
  case array  => rw [Json.toNumber, ht]; rfl
  case object => rw [Json.toNumber, ht]; rfl
  all_goals rfl

theorem toRat_number : time.number.toRat = time.val :=
  JsNumber.toRat_ofNat

-- A timestamp that is written like a time is compared like it.
theorem isExpired_number (ht : timestamp.text C.depth = some time.number.text) :
    isExpired C now timestamp = some (decide (time.val + qrTtlMs < now)) := by
  have hi : ((now.val : Int) - time.val).natAbs ≤ 2 ^ 53 := by
    have := now.isLt
    have := time.isLt
    omega
  obtain ⟨y, hy, hv⟩ := JsNumber.ofRat_intCast hi
  have hs : (Json.Numeric.finite time.number).subFrom now.number.toRat = .finite y := by
    have hq : (now.val : ℚ) - time.val = ((now.val - time.val : Int) : ℚ) := by push_cast; rfl
    rw [Json.Numeric.subFrom, toRat_number, toRat_number, hq, Json.Numeric.ofRat, hy, Option.elim_some]
  have hl : (qrTtlMs : ℚ) < y.toRat ↔ time.val + qrTtlMs < now := by
    rw [hv, Int.cast_sub, Int.cast_natCast, Int.cast_natCast, lt_sub_iff_add_lt']
    exact_mod_cast Iff.rfl
  rw [isExpired, Json.toNumber_of_text ht, Option.map_some, hs]
  exact congrArg some <| decide_eq_decide.mpr hl

theorem dot_notMem_number (h₀ : 0 < time.val) : '.' ∉ time.number.text.toList := by
  have hl := time.isLt
  rw [JsNumber.text, String.toList_ofList, JsNumber.chars, DateNow.number,
    JsNumber.numeral_ofNat (hl.trans (by decide))]
  intro hm
  exact absurd (Numeral.isNumeral_ofNat h₀ (hl.trans (by decide)) _ hm) (by decide)

-- The signed text has one point, and so one reading.
theorem signed_inj (h : g.signed = s ++ "." ++ t) :
    g.deliveryId.text = s ∧ g.timestamp.number.text = t := by
  have hn := dot_notMem_number g.positive
  have h := congrArg String.toList h
  simp only [Generation.signed, String.toList_append, List.append_assoc, String.reduceToList,
    List.cons_append, List.nil_append] at h
  have ⟨hd, _, ht⟩ := (List.append_cons_inj_of_notMem g.deliveryId.dot_notMem hn).mp h
  exact ⟨String.toList_injective hd, String.toList_injective ht⟩

theorem generate_ok (h : g.run C = .ok p) : p = Json.stringify (g.minted C) := by
  rw [Generation.run, generateQrPayload] at h
  split at h
  case isTrue  => contradiction
  case isFalse =>
    dsimp only at h
    rw [signQr_text Json.text_string Json.text_number] at h
    exact (Except.ok.inj h).symm

theorem generate_of_found (h : g.found = some g.userId) : ∃ p, g.run C = .ok p := by
  rw [Generation.run, generateQrPayload, if_neg (not_not.mpr h)]
  exact ⟨_, rfl⟩

theorem text_ne_empty : g.deliveryId.text ≠ "" := by
  intro h
  have hl := g.deliveryId.length_toList
  rw [h] at hl
  contradiction

theorem units_ne_zero (h : 0 < time.val) : time.number.units ≠ 0 :=
  Nat.mul_ne_zero h.ne' Double.one_pos.ne'

theorem fields_minted : Fields (g.minted C) (.string g.deliveryId.text)
    (.number g.timestamp.number) (.string <| C.hmac g.signed) where
  truthy.left        := decide_eq_true text_ne_empty
  truthy.right.left  := decide_eq_true <| units_ne_zero g.positive
  truthy.right.right := decide_eq_true <| C.hmac_ne _
  deliveryId         := rfl
  timestamp          := rfl
  sig                := rfl

-- How a payload with all fields is judged.
inductive Judged (C : QrCrypto) (now : DateNow) (payload : String) (deliveryId timestamp sig : Json)
    (signed : String) : Prop
  | badSignature : C.equal sig (C.hmac signed) = false →
    validateQrPayload C now payload = some (refused .badSignature) →
      Judged C now payload deliveryId timestamp sig signed
  | expired : C.equal sig (C.hmac signed) → isExpired C now timestamp = some true →
    validateQrPayload C now payload = some (refused .expired) →
      Judged C now payload deliveryId timestamp sig signed
  | accepted : C.equal sig (C.hmac signed) → isExpired C now timestamp = some false →
    validateQrPayload C now payload = some (accepted deliveryId) →
      Judged C now payload deliveryId timestamp sig signed

theorem judged (hp : Json.parse payload = some parsed) (f : Fields parsed deliveryId timestamp sig)
    (hd : deliveryId.text C.depth = some s) (ht : timestamp.text C.depth = some t) :
    Judged C now payload deliveryId timestamp sig (s ++ "." ++ t) := by
  have hv := @validate_fields C now payload parsed deliveryId timestamp sig hp f
  have ⟨e, he⟩ := Option.isSome_iff_exists.mp <| @isExpired_isSome C now t timestamp ht
  rw [signQr_text hd ht] at hv
  cases hs : C.equal sig (C.hmac <| s ++ "." ++ t)
  case false => exact .badSignature hs (by simpa [hs] using hv)
  case true  =>
    cases e
    case true  => exact .expired hs he (by simpa [hs, he] using hv)
    case false => exact .accepted hs he (by simpa [hs, he] using hv)

theorem validate_minted (h : g.run C = .ok payload) (hn : now.val ≤ g.timestamp + qrTtlMs) :
    validateQrPayload C now payload = some (accepted <| .string g.deliveryId.text) := by
  have hp : Json.parse payload = some (g.minted C) := generate_ok h ▸ Json.parse_stringify _
  cases @judged C now payload _ _ _ _ _ _ hp fields_minted Json.text_string Json.text_number
  case badSignature hs _ =>
    have hs' := C.equal_string (C.hmac g.signed) (C.hmac g.signed)
    rw [decide_eq_true rfl] at hs'
    exact absurd hs' <| Bool.eq_false_iff.mp hs
  case expired hx _ =>
    rw [isExpired_number Json.text_number] at hx
    have ht := of_decide_eq_true <| Option.some.inj hx
    omega
  case accepted => assumption

theorem Exact.readable (h : Exact C gs now payload) : Readable C now payload := by
  have ⟨v, hv⟩ := h.total
  intro parsed hp
  constructor
  case left =>
    rintro rfl
    rw [validateQrPayload, hp] at hv
    contradiction
  case right =>
    intro deliveryId timestamp sig f
    rw [validate_fields hp f] at hv
    have ⟨_, hs, _⟩ := Option.bind_eq_some_iff.mp hv
    have ⟨s, hd, hs⟩ := Option.bind_eq_some_iff.mp hs
    have ⟨t, ht, _⟩ := Option.bind_eq_some_iff.mp hs
    refine ⟨s, t, hd, ht, fun he hx => ?_⟩
    cases @judged C now payload s t _ _ _ _ hp f hd ht
    case badSignature hn _ => exact absurd he <| Bool.eq_false_iff.mp hn
    case expired hx' _     => rw [hx'] at hx; contradiction
    case accepted ha       =>
      have ⟨g, _, _, hg, _⟩ := h.sound _ ha rfl
      obtain rfl := Option.some.inj hg
      exact congrArg Json.string <| Option.some.inj hd

theorem Readable.malformed_or_fields (h : Readable C now payload) :
    validateQrPayload C now payload = some (refused .malformed) ∨ ∃ parsed deliveryId timestamp sig,
      Json.parse payload = some parsed ∧ Fields parsed deliveryId timestamp sig := by
  by_cases hf : ∃ parsed deliveryId timestamp sig,
    Json.parse payload = some parsed ∧ Fields parsed deliveryId timestamp sig
  case pos => exact .inr hf
  case neg =>
    refine .inl <| validate_malformed fun parsed hp => ⟨(h parsed hp).left, ?_⟩
    exact fun d t s f => hf ⟨parsed, d, t, s, hp, f⟩

theorem Readable.exact (hu : Unforged C gs payload) (h : Readable C now payload) :
    Exact C gs now payload where
  total := by
    obtain hm | ⟨parsed, _, _, _, hp, f⟩ := h.malformed_or_fields
    case inl => exact ⟨_, hm⟩
    case inr =>
      have ⟨_, _, hd, ht, _⟩ := (h parsed hp).right _ _ _ f
      cases @judged C now payload _ _ _ _ _ _ hp f hd ht <;> exact ⟨_, ‹_›⟩
  sound v hv hok := by
    obtain hm | ⟨parsed, _, _, sig, hp, f⟩ := h.malformed_or_fields
    case inl =>
      obtain rfl := Option.some.inj <| hv.symm.trans hm
      contradiction
    case inr =>
      have ⟨s, t, hd, ht, hstr⟩ := (h parsed hp).right _ _ _ f
      cases @judged C now payload _ _ _ _ _ _ hp f hd ht
      case badSignature hb =>
        obtain rfl := Option.some.inj <| hv.symm.trans hb
        contradiction
      case expired hx =>
        obtain rfl := Option.some.inj <| hv.symm.trans hx
        contradiction
      case accepted hs hx ha =>
        obtain rfl := Option.some.inj <| hv.symm.trans ha
        have ⟨g, hg, hm, he⟩ := hu parsed hp sig f.sig _ hs
        have ⟨hgs, hgt⟩ := signed_inj he
        refine ⟨g, hg, hm, by rw [hstr hs hx, hgs]; rfl, ?_⟩
        rw [← hgt] at ht
        rw [isExpired_number ht] at hx
        have hn := of_decide_eq_false <| Option.some.inj hx
        omega
  complete _ := validate_minted

end

-- A payload is validated exactly as it has been minted, if and only if it can be read.
theorem validate_exact_iff (C : QrCrypto) (gs : List Generation) (now : DateNow) (payload : String)
    (h : Unforged C gs payload) : Exact C gs now payload ↔ Readable C now payload := by
  constructor
  case mp  => exact Exact.readable
  case mpr => exact Readable.exact h

-- The digest of one text under the secret that is used by default.
def sampleCrypto : QrCrypto where
  depth := 4000
  hmac s :=
    if s = "00000000-0000-4000-8000-000000000001.1700000000000"
    then "4ec32c557a1654f668d39bb92360eb871112d7f681976aaef7b2341da86bb4d6"
    else "-"
  equal v s := v = .string s
  hmac_ne s := by split <;> decide
  equal_string s t := by simp

def Generation.sample : Generation where
  userId     := 1
  deliveryId := .small
  found      := some 1
  timestamp  := 1700000000000
  positive   := by decide

def Generation.samplePayload : String :=
  Json.stringify <| sample.minted sampleCrypto

theorem unforged_sample : Unforged sampleCrypto [.sample] Generation.samplePayload := by
  intro parsed hp sig hs text he
  rw [Generation.samplePayload, Json.parse_stringify] at hp
  obtain rfl := Option.some.inj hp
  obtain rfl := Option.some.inj <| hs.symm.trans fields_minted.sig
  rw [sampleCrypto.equal_string, decide_eq_true_iff] at he
  have ht : Generation.sample.signed = "00000000-0000-4000-8000-000000000001.1700000000000" := by
    decide +kernel
  refine ⟨.sample, List.mem_singleton_self _, generate_of_found rfl, ?_⟩
  by_contra hn
  have hh : sampleCrypto.hmac text = "-" := if_neg fun h => hn <| ht.trans h.symm
  rw [hh, ht] at he
  exact absurd he (by decide)

theorem validate_exact_sample :
    Exact sampleCrypto [.sample] 1700000300000 Generation.samplePayload ↔
      Readable sampleCrypto 1700000300000 Generation.samplePayload :=
  validate_exact_iff sampleCrypto [.sample] 1700000300000 _ unforged_sample

-- The properties of `null` are read where no error is caught.
theorem null_not_exact : ¬∀ (C : QrCrypto) (gs : List Generation) (now : DateNow) (payload : String),
    Unforged C gs payload → Exact C gs now payload := by
  intro h
  have hp : Json.parse "null" = some .null := by decide +kernel
  have hu : Unforged sampleCrypto [] "null" := by
    intro parsed hp' sig hs
    obtain rfl := Option.some.inj <| hp.symm.trans hp'
    contradiction
  have ⟨_, ht⟩ := (h sampleCrypto [] 0 "null" hu).total
  rw [validateQrPayload, hp] at ht
  contradiction

end Drovery.WorkflowsService
