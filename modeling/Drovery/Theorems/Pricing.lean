import Mathlib.Algebra.Order.Floor.Semiring
import Drovery.Services.Admin
import Drovery.Theorems.Checkout

namespace Drovery

open Concurrency Method
open DeliveriesService
open Admin (CreatePromoDto ValidUpdate)
open Admin.AdminService (assertDiscountValue)

section

variable {q q' : ℚ} {n : Int}

theorem round_le_iff : round q ≤ n ↔ q < n + 1 / 2 := by
  rw [round, ← Int.lt_add_one_iff, Int.floor_lt]
  push_cast
  constructor <;> intro h <;> linarith

theorem round_intCast : round n = n := by
  refine le_antisymm (round_le_iff.mpr <| by linarith) (not_lt.mp fun h => ?_)
  have := round_le_iff.mp <| Int.le_sub_one_of_lt h
  push_cast at this
  linarith

theorem intCast_lt_iff {k : Int} : (k : ℚ) < n + 1 / 2 ↔ k ≤ n := by
  rw [← round_le_iff, round_intCast]

theorem round_nonneg (h : 0 ≤ q) : 0 ≤ round q :=
  Int.floor_nonneg.mpr <| by linarith

-- A whole number is below a bound whenever it is below the whole part of the bound.
theorem round_le_bound_iff {m : ℚ} : (round q : ℚ) ≤ m ↔ q < ⌊m⌋ + 1 / 2 :=
  Int.le_floor.symm.trans round_le_iff

end

namespace PromoCode

variable {code : PromoCode} {total : Cents}

-- The discount before it is capped and rounded.
def amount (code : PromoCode) (total : Cents) : ℚ :=
  match code.discountType with
  | .percent => total * code.discountValue / 100
  | .fixed   => code.discountValue

-- The promo codes that can come about by the requests of administrators, and by their redemptions.
inductive Admitted : PromoCode → Prop
  | created {dto : CreatePromoDto} :
    dto.Valid → assertDiscountValue dto.discountType dto.discountValue = pure () →
    Admitted dto.promo
  | updated {code : PromoCode} {dto : UpdatePromoDto} :
    Admitted code → ValidUpdate dto →
    (∀ v ∈ dto.discountValue, assertDiscountValue code.discountType v = pure ()) →
    Admitted (dto.apply code)
  | counted {code : PromoCode} (timesRedeemed : Int) :
    Admitted code → Admitted { code with timesRedeemed }

-- The rounding does not lift the discount above the cap: it rounds the cap down, or the discount or
-- the whole order is too small to get there.
def Capped (code : PromoCode) (total : Cents) : Prop :=
  ∀ m ∈ code.maxDiscount, m < ⌊m⌋ + 1 / 2 ∨ code.amount total < ⌊m⌋ + 1 / 2 ∨ total ≤ ⌊m⌋

theorem Admitted.cap_pos (h : code.Admitted) : ∀ m ∈ code.maxDiscount, 0 < m := by
  induction h
  case created hv _         => exact hv.maxDiscount
  case counted ih           => exact ih
  case updated dto _ hv _ ih =>
    intro m hm
    cases hd : dto.maxDiscount
    case none => exact ih m <| by simpa [UpdatePromoDto.apply, hd] using hm
    case some => exact hv.maxDiscount m <| by simpa [UpdatePromoDto.apply, hd] using hm

end PromoCode

-- What is asked of a discount on an order, where `cap` is the cap of the promo code.
structure DiscountResult.Within (r : DiscountResult) (total : Cents) (cap : Option ℚ) : Prop where
  nonneg   : 0 ≤ r.discountAmount
  le_total : r.discountAmount ≤ total
  le_cap   : ∀ m ∈ cap, (r.discountAmount : ℚ) ≤ m
  split    : r.discountAmount + r.finalTotal = total

-- What is asked of the charge for an order of a user with the given balance.
structure Order.Balanced (order : Order) (balance : Cents) : Prop where
  discount      : order.discount.Within order.originalTotal (order.promo.bind (·.snd.maxDiscount))
  nonneg        : 0 ≤ order.creditsToApply
  le_balance    : order.creditsToApply ≤ balance
  le_total      : order.creditsToApply ≤ order.discount.finalTotal
  charge        : order.finalTotal = order.discount.finalTotal - order.creditsToApply
  charge_nonneg : 0 ≤ order.finalTotal

namespace PromoCode

variable {code : PromoCode} {total : Cents}

-- The discount before it is capped.
def raw (code : PromoCode) (total : Cents) : ℚ :=
  match code.discountType with
  | .percent => round (total * code.discountValue / 100)
  | .fixed   => code.discountValue

-- The discount before its last rounding.
def clamped (code : PromoCode) (total : Cents) : ℚ :=
  max 0 (min (match code.maxDiscount with
    | some m => min (code.raw total) m
    | none   => code.raw total) total)

theorem discount_nonneg : 0 ≤ (code.computeDiscount total).discountAmount :=
  round_nonneg <| le_max_left ..

theorem discount_le_total (h : 0 ≤ total) :
    (code.computeDiscount total).discountAmount ≤ total := by
  have : code.clamped total ≤ total := max_le (by exact_mod_cast h) (min_le_right ..)
  exact round_le_iff.mpr <| this.trans_lt <| by linarith

theorem discount_split :
    (code.computeDiscount total).discountAmount + (code.computeDiscount total).finalTotal = total :=
  add_sub_cancel ..

-- A percentage is rounded before it is capped, which does not move it across a half cent.
theorem raw_lt_iff {n : Int} : code.raw total < n + 1 / 2 ↔ code.amount total < n + 1 / 2 := by
  unfold raw amount
  split
  case h_1 => exact intCast_lt_iff.trans round_le_iff
  case h_2 => exact Iff.rfl

theorem clamped_lt_iff {m : ℚ} (hc : code.maxDiscount = some m) (hm : 0 < m) :
    code.clamped total < ⌊m⌋ + 1 / 2 ↔
      m < ⌊m⌋ + 1 / 2 ∨ code.amount total < ⌊m⌋ + 1 / 2 ∨ total ≤ ⌊m⌋ := by
  have : (0 : ℚ) ≤ ⌊m⌋ := by exact_mod_cast Int.floor_nonneg.mpr hm.le
  have : (0 : ℚ) < ⌊m⌋ + 1 / 2 := by linarith
  simp only [clamped, hc, max_lt_iff, min_lt_iff, raw_lt_iff, intCast_lt_iff]
  tauto

theorem discount_le_cap_iff (h : code.Admitted) :
    (∀ m ∈ code.maxDiscount, ((code.computeDiscount total).discountAmount : ℚ) ≤ m) ↔
      code.Capped total :=
  forall₂_congr fun _ hm => round_le_bound_iff.trans <| clamped_lt_iff hm <| h.cap_pos _ hm

theorem computeDiscount_within_iff (h : code.Admitted) (ht : 0 ≤ total) :
    (code.computeDiscount total).Within total code.maxDiscount ↔ code.Capped total where
  mp hw  := (discount_le_cap_iff h).mp hw.le_cap
  mpr hc := ⟨discount_nonneg, discount_le_total ht, (discount_le_cap_iff h).mpr hc, discount_split⟩

end PromoCode

section

variable {inp : CreateInput} {db : Store} {order : Order} {total : Cents}

def CreateInput.credits (inp : CreateInput) (balance afterPromo : Cents) : Cents :=
  if inp.useCredits then max 0 (min balance afterPromo) else 0

-- How an order is priced, given what has been read about the user.
structure Order.Priced (order : Order) (inp : CreateInput) (total balance : Cents) : Prop where
  originalTotal : order.originalTotal = total
  discount      : order.discount = match order.promo with
    | some (_, code) => code.computeDiscount total
    | none           => { discountAmount := 0, finalTotal := total }
  credits       : order.creditsToApply = inp.credits balance order.discount.finalTotal
  finalTotal    : order.finalTotal = order.discount.finalTotal - order.creditsToApply

def Store.balance (db : Store) (U : UserId) : Cents :=
  (db.wallet.balances.find? U).getD 0

theorem eval_applyCredits {afterPromo : Cents} :
    eval Stmt.exec (applyCredits inp afterPromo) db =
      (.ok <| inp.credits (db.balance inp.userId) afterPromo, db) := by
  unfold applyCredits CreateInput.credits
  split
  case isTrue  => rfl
  case isFalse => rfl

theorem prepare_priced {quote : Quote} (hq : inp.quote = .ok quote)
    (h : (eval Stmt.exec (prepare inp) db).fst = .ok order) :
    order.Priced inp quote.total (db.balance inp.userId) := by
  unfold prepare at h
  rw [hq] at h
  have ⟨now, _, h⟩ := eval_bind_ok_iff.mp h
  dsimp only at h
  split at h
  case isTrue  => exact nomatch h
  case isFalse =>
    have ⟨promo, _, h⟩ := eval_bind_ok_iff.mp h
    have ⟨credits, hc, h⟩ := eval_bind_ok_iff.mp h
    have ⟨referral, _, h⟩ := eval_bind_ok_iff.mp h
    rw [eval_of_reads applyPromo_single, eval_applyCredits] at hc
    obtain rfl := Except.ok.inj hc
    obtain rfl := Except.ok.inj h
    exact ⟨rfl, rfl, rfl, rfl⟩

theorem credits_le (inp : CreateInput) {balance afterPromo : Cents} (hb : 0 ≤ balance) (ha : 0 ≤ afterPromo) :
    0 ≤ inp.credits balance afterPromo ∧ inp.credits balance afterPromo ≤ balance ∧
      inp.credits balance afterPromo ≤ afterPromo := by
  unfold CreateInput.credits
  split
  case isTrue  => exact ⟨le_max_left .., max_le hb (min_le_left ..), max_le ha (min_le_right ..)⟩
  case isFalse => exact ⟨le_rfl, hb, ha⟩

-- Everything but the cap of the promo code is kept in any case.
theorem Order.Priced.balanced_iff {balance : Cents} (h : order.Priced inp total balance)
    (hb : 0 ≤ balance) :
    order.Balanced balance ↔
      order.discount.Within total (order.promo.bind (·.snd.maxDiscount)) where
  mp hw  := h.originalTotal ▸ hw.discount
  mpr hw := by
    have : 0 ≤ order.discount.finalTotal := by linarith [hw.split, hw.le_total]
    have ⟨nonneg, le_balance, le_total⟩ := credits_le inp hb this
    rw [← h.credits] at nonneg le_balance le_total
    exact ⟨h.originalTotal ▸ hw, nonneg, le_balance, le_total, h.finalTotal,
      h.finalTotal ▸ sub_nonneg.mpr le_total⟩

end

-- The prices balance if and only if the rounding of the discount respects the cap of the code.
theorem pricing_balances_iff {code : PromoCode} (h : code.Admitted) (total balance : Nat) :
    ((code.computeDiscount total).Within total code.maxDiscount ↔ code.Capped total) ∧
    ∀ {inp : CreateInput} {quote : Quote} {db : Store} {order : Order}, inp.quote = .ok quote →
      quote.total = total → db.balance inp.userId = balance →
      (eval Stmt.exec (prepare inp) db).fst = .ok order →
        (order.promo = none → order.Balanced balance) ∧
        ∀ P, order.promo = some (P, code) → (order.Balanced balance ↔ code.Capped total) := by
  have discount := PromoCode.computeDiscount_within_iff h (Int.natCast_nonneg total)
  refine ⟨discount, fun {inp quote db order} hq ht hb hp => ?_⟩
  have priced := prepare_priced hq hp
  rw [ht, hb] at priced
  have balanced := priced.balanced_iff (Int.natCast_nonneg _)
  refine ⟨fun hn => balanced.mpr ?_, fun P hs => balanced.trans ?_⟩
  case refine_1 =>
    rw [priced.discount, hn]
    exact ⟨le_rfl, Int.natCast_nonneg _, nofun, zero_add _⟩
  case refine_2 =>
    rw [priced.discount, hs]
    exact discount

-- A promo code over half the price of an order, whose cap is below a whole cent.
def cappedDto (maxDiscount : ℚ) : CreatePromoDto where
  code           := "HALF"
  discountType   := .percent
  discountValue  := 50
  minOrderTotal  := none
  maxDiscount    := some maxDiscount
  startsAt       := none
  endsAt         := none
  maxRedemptions := none

theorem cappedDto_admitted {m : ℚ} (h : 0 < m) : (cappedDto m).promo.Admitted := by
  have code : "HALF" ≠ "" ∧ "HALF".length ≤ 64 := by decide
  refine .created ⟨code, by simp [cappedDto], nofun, ?_, nofun⟩ rfl
  rintro _ ⟨⟩
  exact h

theorem pricing_balances_small :
    ((cappedDto (1 / 4)).promo.computeDiscount 1000).Within 1000 (some (1 / 4)) :=
  (pricing_balances_iff (cappedDto_admitted <| by decide +kernel) 1000 0).left.mpr
    fun _ h => .inl <| by
      obtain rfl := Option.some.inj h
      decide +kernel

-- A cap of half a cent is rounded up to a discount of a whole cent.
theorem discount_exceeds_cap :
    ¬∀ {code : PromoCode} (_ : code.Admitted) (total : Nat),
      (code.computeDiscount total).Within total code.maxDiscount := by
  intro h
  have := (h (cappedDto_admitted (m := 1 / 2) <| by decide +kernel) 1000).le_cap (1 / 2) rfl
  revert this
  decide +kernel

end Drovery
