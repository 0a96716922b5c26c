import Mathlib.Data.Rat.Floor
import Drovery.Objects.Wallet

namespace Drovery

inductive PromoDiscountType
  | percent
  | fixed
  deriving DecidableEq

-- All amounts are in cents, but only the ones that are charged are rounded to whole cents.
structure PromoCode where
  code           : String
  discountType   : PromoDiscountType
  discountValue  : ℚ
  minOrderTotal  : ℚ
  maxDiscount    : Option ℚ
  startsAt       : Option Time
  endsAt         : Option Time
  active         : Bool
  maxRedemptions : Option Int
  timesRedeemed  : Int
  perUserLimit   : Int

inductive PromoRedemptionStatus
  | redeemed
  | released
  deriving DecidableEq

structure PromoRedemption where
  promoCodeId    : PromoId
  userId         : UserId
  discountAmount : Cents
  originalTotal  : Cents
  finalTotal     : Cents
  status         : PromoRedemptionStatus
  releasedAt     : Option Time

-- The two redemptions occupy the same slot: they are active and belong to the same user and code.
def PromoRedemption.Clash (r s : PromoRedemption) : Prop :=
  r.status = .redeemed ∧ s.status = .redeemed ∧ r.promoCodeId = s.promoCodeId ∧ r.userId = s.userId

instance : DecidableRel PromoRedemption.Clash :=
  fun _ _ => inferInstanceAs (Decidable (_ ∧ _ ∧ _ ∧ _))

theorem PromoRedemption.Clash.symm {r s : PromoRedemption} (h : r.Clash s) : s.Clash r :=
  ⟨h.2.1, h.1, h.2.2.1.symm, h.2.2.2.symm⟩

-- The redemptions by delivery, subject to the partial unique index on the active redemptions of a
-- user.
structure Redemptions where
  table  : Table DeliveryId PromoRedemption
  active : ∀ {D E r s}, table.find? D = some r → table.find? E = some s → r.Clash s → D = E

namespace Redemptions

def empty : Redemptions where
  table  := .empty
  active := by simp

def insert (rs : Redemptions) (D : DeliveryId) (r : PromoRedemption) :
    Except Constraint Redemptions :=
  match ht : rs.table.insert D r with
  | none   => .error .promoRedemptionDeliveryId
  | some t =>
    if h : ∀ e ∈ rs.table.rows, ¬r.Clash e.snd then
      .ok {
        table  := t
        active := by
          intro E₁ E₂ r₁ r₂ h₁ h₂ hc
          rw [Table.find?_insert ht] at h₁ h₂
          split at h₁ <;> split at h₂
          case isTrue.isTrue he₁ he₂ => exact he₁.trans he₂.symm
          case isTrue.isFalse =>
            obtain rfl := Option.some.inj h₁
            exact absurd hc <| h _ (Table.find?_eq_some_iff.mp h₂)
          case isFalse.isTrue =>
            obtain rfl := Option.some.inj h₂
            exact absurd hc.symm <| h _ (Table.find?_eq_some_iff.mp h₁)
          case isFalse.isFalse => exact rs.active h₁ h₂ hc
      }
    else
      .error .promoRedemptionActivePerUser

def redeemed (r : PromoRedemption) : Bool :=
  r.status = .redeemed

def markReleased (now : Time) (r : PromoRedemption) : PromoRedemption :=
  { r with status := .released, releasedAt := some now }

-- Gives up the redemption of a delivery if it is still active.
def release (rs : Redemptions) (D : DeliveryId) (now : Time) : Nat × Redemptions :=
  ((rs.table.cas D redeemed (markReleased now)).fst, {
    table  := (rs.table.cas D redeemed (markReleased now)).snd
    active := by
      -- A redemption that is active after the release has not been touched by it.
      have keep {E r} (h : (rs.table.cas D redeemed (markReleased now)).snd.find? E = some r)
          (hr : r.status = .redeemed) : rs.table.find? E = some r := by
        rw [Table.find?_cas] at h
        split at h
        case isFalse => exact h
        case isTrue he =>
          subst he
          obtain ⟨r', hf, he⟩ := Option.map_eq_some_iff.mp h
          split at he <;> subst he
          case isTrue  => simp [markReleased] at hr
          case isFalse => exact hf
      intro E₁ E₂ r₁ r₂ h₁ h₂ hc
      exact rs.active (keep h₁ hc.left) (keep h₂ hc.right.left) hc
  })

end Redemptions

structure Promos where
  codes       : Table PromoId PromoCode
  redemptions : Redemptions

structure DiscountResult where
  discountAmount : Cents
  finalTotal     : Cents
  deriving DecidableEq

-- Rounds half up, as `Math.round` does.
def round (q : ℚ) : Int :=
  ⌊q + 1 / 2⌋

inductive PromoRejectReason
  | invalid
  | inactive
  | notStarted
  | expired
  | globallyMaxed
  | perUserExceeded
  | minNotMet
  deriving DecidableEq

def promoError : PromoRejectReason → AppError
  | .invalid         => .unprocessable "PROMO_INVALID"
  | .inactive        => .unprocessable "PROMO_INACTIVE"
  | .notStarted      => .unprocessable "PROMO_NOT_STARTED"
  | .expired         => .unprocessable "PROMO_EXPIRED"
  | .globallyMaxed   => .conflict "PROMO_GLOBALLY_MAXED"
  | .perUserExceeded => .conflict "PROMO_PER_USER_EXCEEDED"
  | .minNotMet       => .unprocessable "PROMO_MIN_NOT_MET"

namespace PromoCode

def computeDiscount (code : PromoCode) (originalTotal : Cents) : DiscountResult :=
  let raw : ℚ :=
    match code.discountType with
    | .percent => round (originalTotal * code.discountValue / 100)
    | .fixed   => code.discountValue
  let raw := match code.maxDiscount with | some m => min raw m | none => raw
  let discountAmount := round <| max 0 (min raw originalTotal)
  { discountAmount, finalTotal := originalTotal - discountAmount }

-- The guard of the counter, evaluated on the row as it is when the counter is updated.
def redeemable (now : Time) (code : PromoCode) : Bool :=
  code.active ∧ (∀ t ∈ code.startsAt, t ≤ now) ∧ (∀ t ∈ code.endsAt, now < t) ∧
    (∀ m ∈ code.maxRedemptions, code.timesRedeemed < m)

-- Why the guard did not match.
def rejection (now : Time) (code : Option PromoCode) : PromoRejectReason :=
  match code with
  | none      => .inactive
  | some code =>
    if !code.active then .inactive
    else if code.startsAt.any (now < ·) then .notStarted
    else if code.endsAt.any (· ≤ now) then .expired
    else .globallyMaxed

end PromoCode

-- The fields of a promo code that an administrator may change. The optional columns can also be
-- cleared.
structure UpdatePromoDto where
  discountValue  : Option ℚ            := none
  minOrderTotal  : Option ℚ            := none
  maxDiscount    : Option (Option ℚ)   := none
  endsAt         : Option Time         := none
  maxRedemptions : Option (Option Int) := none
  active         : Option Bool         := none

def UpdatePromoDto.apply (dto : UpdatePromoDto) (code : PromoCode) : PromoCode :=
  { code with
    discountValue  := dto.discountValue.getD code.discountValue
    minOrderTotal  := dto.minOrderTotal.getD code.minOrderTotal
    maxDiscount    := dto.maxDiscount.getD code.maxDiscount
    endsAt         := dto.endsAt <|> code.endsAt
    maxRedemptions := dto.maxRedemptions.getD code.maxRedemptions
    active         := dto.active.getD code.active }

namespace Promos

def redeemWithinTx (p : Promos) (now : Time) (P : PromoId) (userId : UserId) (D : DeliveryId)
    (originalTotal : Cents) (discount : DiscountResult) : Except AppError Promos :=
  let (affected, codes) := p.codes.cas P (·.redeemable now) fun code =>
    { code with timesRedeemed := code.timesRedeemed + 1 }
  if affected = 0 then
    .error <| promoError <| PromoCode.rejection now (p.codes.find? P)
  else
    let row : PromoRedemption := {
      promoCodeId    := P
      userId         := userId
      discountAmount := discount.discountAmount
      originalTotal  := originalTotal
      finalTotal     := discount.finalTotal
      status         := .redeemed
      releasedAt     := none
    }
    match p.redemptions.insert D row with
    | .ok redemptions                        => .ok { codes, redemptions }
    | .error .promoRedemptionActivePerUser   => .error <| promoError .perUserExceeded
    | .error c                               => .error <| .p2002 c

-- The transaction of `releaseForDelivery`.
def release (p : Promos) (now : Time) (D : DeliveryId) (P : PromoId) : Promos :=
  let (count, redemptions) := p.redemptions.release D now
  if count = 0 then
    p
  else
    { codes := (p.codes.cas P (0 < ·.timesRedeemed) fun code =>
        { code with timesRedeemed := code.timesRedeemed - 1 }).snd
      redemptions }

end Promos

-- The statements that the platform issues against the promo codes.
inductive PromoStmt
  | findByCode (code : String)
  | countRedeemed (P : PromoId) (U : UserId)
  | redeem (P : PromoId) (U : UserId) (D : DeliveryId) (originalTotal : Cents)
    (discount : DiscountResult)
  | findRedeemed (D : DeliveryId)
  | release (D : DeliveryId) (P : PromoId)
  | find (P : PromoId)
  | update (P : PromoId) (dto : UpdatePromoDto)

namespace PromoStmt

@[reducible]
def Res : PromoStmt → Type
  | findByCode _      => Option (PromoId × PromoCode)
  | countRedeemed _ _ => Nat
  | redeem ..         => Except AppError Unit
  | findRedeemed _    => Option PromoRedemption
  | release _ _       => Unit
  | find _            => Option PromoCode
  | update _ _        => Nat

def exec (now : Time) : (x : PromoStmt) → Promos → x.Res × Promos
  | findByCode code, p =>
    (p.codes.findFirst fun _ c => c.code = code, p)
  | countRedeemed P U, p =>
    (p.redemptions.table.count fun _ r => r.promoCodeId = P ∧ r.userId = U ∧ r.status = .redeemed,
      p)
  | redeem P U D originalTotal discount, p =>
    commit p <| p.redeemWithinTx now P U D originalTotal discount
  | findRedeemed D, p =>
    (p.redemptions.table.find? D |>.filter (·.status = .redeemed), p)
  | release D P, p =>
    ((), p.release now D P)
  | find P, p =>
    (p.codes.find? P, p)
  | update P dto, p =>
    let (count, codes) := p.codes.cas P (fun _ => true) dto.apply
    (count, { p with codes })

end PromoStmt

end Drovery
