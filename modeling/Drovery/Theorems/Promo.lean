import Drovery.Execution.Theorems.Store
import Drovery.Services.Theorems.Blocks

namespace Drovery

open Concurrency Method Outline
open PromoService WalletService

namespace Promos

-- The number of redemptions of a code that are in force.
def redemptionCount (p : Promos) (P : PromoId) : Nat :=
  p.redemptions.table.count fun _ r => r.promoCodeId = P ∧ r.status = .redeemed

-- The counter of each code agrees with the redemptions.
def Counted (p : Promos) : Prop :=
  ∀ {P code}, p.codes.find? P = some code → code.timesRedeemed = p.redemptionCount P

-- The effects that a statement can have on the promo codes.
inductive Change (now : Time) (p : Promos) : Promos → Prop
  | same : Change now p p
  | redeemed {P D code row rs} :
    p.codes.find? P = some code → code.redeemable now → row.promoCodeId = P →
    row.status = .redeemed → p.redemptions.insert D row = .ok rs →
    Change now p {
      codes       := p.codes.modify P fun code => { code with timesRedeemed := code.timesRedeemed + 1 }
      redemptions := rs
    }
  | released {D P r} :
    p.redemptions.table.find? D = some r → r.status = .redeemed → r.promoCodeId = P →
    Change now p {
      codes       := (p.codes.cas P (0 < ·.timesRedeemed) fun code =>
        { code with timesRedeemed := code.timesRedeemed - 1 }).snd
      redemptions := (p.redemptions.release D now).snd
    }
  | updated {P dto} :
    Change now p { p with codes := (p.codes.cas P (fun _ => true) (UpdatePromoDto.apply dto)).snd }

variable {now : Time} {p p' : Promos} {P : PromoId} {U : UserId} {D : DeliveryId} {total : Cents}
variable {discount : DiscountResult}

theorem insert_table {rs rs' : Redemptions} {row : PromoRedemption} (h : rs.insert D row = .ok rs') :
    rs.table.insert D row = some rs'.table := by
  unfold Redemptions.insert at h
  split at h
  case h_1 => contradiction
  case h_2 t ht =>
    split at h
    case isTrue  => rw [← Except.ok.inj h]; exact ht
    case isFalse => contradiction

-- Everything that a redemption does to the promo codes.
structure Redeemed (now : Time) (p p' : Promos) (P : PromoId) (D : DeliveryId) : Prop where
  code : ∃ code, p.codes.find? P = some code ∧ code.redeemable now
  row  : ∃ row, row.promoCodeId = P ∧ row.status = .redeemed ∧
    p.redemptions.insert D row = .ok p'.redemptions
  codes : p'.codes = p.codes.modify P fun code => { code with timesRedeemed := code.timesRedeemed + 1 }

theorem redeemed_of_redeemWithinTx (h : p.redeemWithinTx now P U D total discount = .ok p') :
    Redeemed now p p' P D := by
  unfold redeemWithinTx at h
  by_cases hc : ∃ code, p.codes.find? P = some code ∧ code.redeemable now
  case neg =>
    have hn : (p.codes.cas P (·.redeemable now) fun code =>
        { code with timesRedeemed := code.timesRedeemed + 1 }).fst = 0 :=
      Table.cas_count_eq_zero_iff.mpr fun code hf hr => hc ⟨code, hf, hr⟩
    simp [hn] at h
  case pos =>
    have ⟨code, hf, hr⟩ := hc
    rw [Table.cas_of_guard hf hr] at h
    simp only [Nat.one_ne_zero, if_false] at h
    split at h
    case h_1 rs hi =>
      rw [← Except.ok.inj h]
      exact ⟨hc, ⟨_, rfl, rfl, hi⟩, rfl⟩
    all_goals contradiction

theorem redeemWithinTx_ok (h : p.redeemWithinTx now P U D total discount = .ok p') :
    Change now p p' := by
  obtain ⟨⟨code, hf, hr⟩, ⟨row, hP, hs, hi⟩, hc⟩ := redeemed_of_redeemWithinTx h
  obtain ⟨codes, redemptions⟩ := p'
  dsimp only at hc
  subst hc
  exact .redeemed hf hr hP hs hi

-- A release takes a redemption out of force, provided that it names the code of the redemption.
theorem release_change (hr : ∃ r, p.redemptions.table.find? D = some r ∧ r.promoCodeId = P) :
    Change now p (p.release now D P) := by
  obtain ⟨r, hr, hP⟩ := hr
  unfold release
  by_cases hs : r.status = .redeemed
  case neg =>
    have hn : (p.redemptions.release D now).fst = 0 :=
      Table.cas_count_eq_zero_iff.mpr fun r' hr' => by simp_all [Redemptions.redeemed]
    simp only [hn, if_true]
    exact .same
  case pos =>
    have hn : (p.redemptions.release D now).fst = 1 := by
      simp [Redemptions.release, Table.cas_of_guard hr, Redemptions.redeemed, hs]
    simp only [hn, Nat.one_ne_zero, if_false]
    exact .released hr hs hP

namespace Change

-- Redemptions are never reassigned to another code.
theorem promoCodeId {r : PromoRedemption} (h : Change now p p')
    (hr : p.redemptions.table.find? D = some r) :
    ∃ r', p'.redemptions.table.find? D = some r' ∧ r'.promoCodeId = r.promoCodeId := by
  cases h
  case same    => exact ⟨r, hr, rfl⟩
  case updated => exact ⟨r, hr, rfl⟩
  case redeemed hi =>
    have ht := insert_table hi
    refine ⟨r, ?_, rfl⟩
    rw [Table.find?_insert ht]
    split
    case isFalse => exact hr
    case isTrue he => simp [he ▸ Table.find?_of_insert ht] at hr
  case released E _ r₀ _ _ _ =>
    obtain h | ⟨r', rfl, hr', _, h⟩ := p.redemptions.table.find?_cas_cases E D
      Redemptions.redeemed (Redemptions.markReleased now)
    case inl => exact ⟨r, h.trans hr, rfl⟩
    case inr =>
      obtain rfl := Option.some.inj <| hr.symm.trans hr'
      exact ⟨_, h, rfl⟩

-- A redemption only comes into force if its code admits one more redemption at this moment.
theorem redeemable {r : PromoRedemption} (h : Change now p p')
    (hr : p'.redemptions.table.find? D = some r) (hs : r.status = .redeemed)
    (hn : p.redemptions.table.find? D ≠ some r) :
    ∃ code, p.codes.find? r.promoCodeId = some code ∧ code.redeemable now := by
  cases h
  case same    => exact absurd hr hn
  case updated => exact absurd hr hn
  case redeemed hf hc hP _ hi =>
    rw [Table.find?_insert (insert_table hi)] at hr
    split at hr
    case isFalse => exact absurd hr hn
    case isTrue =>
      obtain rfl := Option.some.inj hr
      exact ⟨_, hP ▸ hf, hc⟩
  case released E _ r₀ _ _ _ =>
    obtain h | ⟨r', rfl, hr', _, h⟩ := p.redemptions.table.find?_cas_cases E D
      Redemptions.redeemed (Redemptions.markReleased now)
    case inl => exact absurd (h.symm.trans hr) hn
    case inr =>
      obtain rfl := Option.some.inj <| h.symm.trans hr
      simp [Redemptions.markReleased] at hs

theorem counted (h : Change now p p') (hc : p.Counted) : p'.Counted := by
  cases h
  case same => exact hc
  case updated P dto =>
    intro Q code hf
    obtain h | ⟨code', rfl, hf', _, h⟩ := p.codes.find?_cas_cases P Q (fun _ => true) dto.apply
    case inl => exact hc (h.symm.trans hf)
    case inr =>
      obtain rfl := Option.some.inj <| h.symm.trans hf
      exact (hc hf' : code'.timesRedeemed = _)
  case redeemed P D code row rs hf _ hP hs hi =>
    intro Q code' hf'
    have hcount := Table.count_insert (p := fun _ r => r.promoCodeId = Q ∧ r.status = .redeemed)
      (insert_table hi)
    simp only [redemptionCount, hcount, hP, hs]
    rw [Table.find?_modify] at hf'
    split at hf'
    case isTrue he =>
      subst he
      simp only [hf, Option.map_some, Option.some.injEq] at hf'
      subst hf'
      simp [hc hf, redemptionCount]
    case isFalse he => simp [Ne.symm he, hc hf', redemptionCount]
  case released D P r hr hs hP =>
    intro Q code hf
    have hcount := Table.count_modify (p := fun _ r => r.promoCodeId = Q ∧ r.status = .redeemed)
      (f := Redemptions.markReleased now) hr
    have hg : Redemptions.redeemed r := by simp [Redemptions.redeemed, hs]
    have hcas := Table.cas_of_guard (f := Redemptions.markReleased now) hr hg
    simp only [Redemptions.markReleased, reduceCtorEq, and_false, decide_false, Bool.false_eq_true,
      if_false, hs, and_true, hP] at hcount
    simp only [redemptionCount, Redemptions.release, hcas]
    -- The counter of the code is positive, because it counts at least this redemption.
    have hpos : ∀ {code}, p.codes.find? P = some code → 0 < code.timesRedeemed := by
      intro code hf
      rw [hc hf]
      exact Int.natCast_pos.mpr <| Table.count_pos hr (by simp [hP, hs])
    obtain h | ⟨code', rfl, hf', _, h⟩ := p.codes.find?_cas_cases P Q (0 < ·.timesRedeemed)
      fun code => { code with timesRedeemed := code.timesRedeemed - 1 }
    case inl =>
      have hf' := h.symm.trans hf
      have hne : P ≠ Q := by
        rintro rfl
        have hg : p.codes.cas P (0 < ·.timesRedeemed)
            (fun code => { code with timesRedeemed := code.timesRedeemed - 1 }) = _ :=
          Table.cas_of_guard hf' <| decide_eq_true <| hpos hf'
        rw [hg, Table.find?_modify_self, hf'] at h
        have := congrArg PromoCode.timesRedeemed (Option.some.inj h)
        simp at this
      rw [hc hf', redemptionCount]
      simp only [hne, decide_false, Bool.false_eq_true, if_false] at hcount
      exact_mod_cast hcount.symm
    case inr =>
      obtain rfl := Option.some.inj <| h.symm.trans hf
      simp only [decide_true, if_true] at hcount
      simp only [hc hf', redemptionCount]
      omega

end Change

end Promos

namespace Stmt

variable {x : Stmt} {db : Store} {D : DeliveryId}

-- A release names the code of the redemption that it releases.
def NamesCode (db : Store) : Stmt → Prop
  | .promo (.release D P) => ∃ r, db.promos.redemptions.table.find? D = some r ∧ r.promoCodeId = P
  | _                     => True

theorem NamesCode.mono {db' : Store} (h : x.NamesCode db)
    (hr : ∀ {D r}, db.promos.redemptions.table.find? D = some r →
      ∃ r', db'.promos.redemptions.table.find? D = some r' ∧ r'.promoCodeId = r.promoCodeId) :
    x.NamesCode db' := by
  cases x
  case promo x =>
    cases x
    case release =>
      obtain ⟨r, hf, he⟩ := h
      obtain ⟨r', hf', he'⟩ := hr hf
      exact ⟨r', hf', he'.trans he⟩
    all_goals trivial
  all_goals trivial

theorem promoChange (h : x.NamesCode db) :
    Promos.Change db.clock db.promos (x.exec db).snd.promos := by
  cases x
  case promo x =>
    cases x
    case redeem P U E total discount =>
      obtain h | h := commit_snd (s := db.promos)
        (r := db.promos.redeemWithinTx db.clock P U E total discount)
      case inl => simp only [exec, PromoStmt.exec, h]; exact .same
      case inr => exact Promos.redeemWithinTx_ok h
    case release => exact Promos.release_change h
    case update  => exact .updated
    all_goals exact .same
  case createDelivery E row booking =>
    obtain h | h := commit_snd (s := db) (r := db.createDelivery E row booking)
    case inl => simp only [exec, h]; exact .same
    case inr =>
      obtain ⟨hc⟩ := Store.createDelivery_ok h
      obtain ⟨_, he⟩ | ⟨_, _, _, _, hr⟩ := hc.redeem
      case inl => simp only [exec]; rw [he]; exact .same
      case inr => exact Promos.redeemWithinTx_ok hr
  case refundCharge ch E U a =>
    obtain h | h := commit_snd (s := db) (r := db.refundCharge ch E U a)
    case inl => simp only [exec, h]; exact .same
    case inr =>
      obtain ⟨_, _, _, he⟩ := Store.refundCharge_ok h
      simp only [exec]; rw [he]; exact .same
  case effect x => cases x <;> exact .same
  all_goals exact .same

end Stmt

-- The outline for the promo codes.
def promoOutline : Outline Stmt.sig Store Call where
  inv w       := w.db.promos.Counted
  rely _ w w' := ∀ {D r}, w.db.promos.redemptions.table.find? D = some r →
    ∃ r', w'.db.promos.redemptions.table.find? D = some r' ∧ r'.promoCodeId = r.promoCodeId
  pre _ _ x w := x.NamesCode w.db

namespace promoOutline

variable {P : Params} {t : Nat} {c : Call} {w : World Stmt.sig Store Call} {α : Type} {p : App α}

theorem forward_namesCode {x : Stmt} {db : Store} (h : x.Forward) : x.NamesCode db := by
  cases x
  case promo x => cases x <;> trivial
  all_goals trivial

-- The code that a release names is the one that has just been read, and it does not change.
theorem ok_releaseForDelivery {D : DeliveryId} {fault : Fault} :
    promoOutline.Ok (system P) t c (releaseForDelivery D fault) w := by
  refine Ok.stmt_bind trivial fun w' _ _ _ => ?_
  split
  case h_1 => trivial
  case h_2 r hr => exact Ok.attempt <| Ok.tx ⟨r, (Option.filter_eq_some_iff.mp hr).left, rfl⟩

theorem ok_pieces (hp : Built (Piece Stmt.Forward) p) : promoOutline.Ok (system P) t c p w := by
  refine Ok.built hp fun h => ?_
  cases h
  case tx h _       => exact Ok.tx <| forward_namesCode h
  case releasePromo => exact ok_releaseForDelivery
  case refundCredits =>
    refine Ok.stmt_bind trivial fun w' _ _ _ => ?_
    split
    case h_1 => trivial
    case h_2 => exact Ok.handle (Ok.attempt <| Ok.tx trivial) fun e w => Ok.ite trivial trivial
  case refundCharge =>
    refine Ok.stmt_bind trivial fun w' _ _ _ => ?_
    split
    case h_1 => trivial
    case h_2 =>
      refine Ok.ite trivial <| Ok.handle (Ok.attempt <| Ok.tx trivial) fun e w => ?_
      exact Ok.ite trivial trivial

theorem valid {pol : Policy Stmt.sig Store Call} :
    promoOutline.Valid (system P) pol Store.Initial where
  rely_refl _ _ _ r h  := ⟨r, h, rfl⟩
  rely_trans h₁ h₂ _ _ h := by
    obtain ⟨r', h', he⟩ := h₁ h
    obtain ⟨r'', h'', he'⟩ := h₂ h'
    exact ⟨r'', h'', he'.trans he⟩
  post_stable _ _      := trivial
  inv_init h           := by
    intro P code hf
    simp [h.notRedeemed P code hf, Promos.redemptionCount, h.redemptions, Redemptions.empty,
      Table.count, Table.empty]
  spawn {t c _} _ _ _  := by
    obtain ⟨_, p, he, hp⟩ := Call.pieces P t c
    rw [he]
    exact (ok_pieces hp).toCall
  inv_step _ hi hp     := (Stmt.promoChange hp).counted hi
  rely_step _ _ hp _   := (Stmt.promoChange hp).promoCodeId
  pre_step _ _ hp _ _ h := h.mono (Stmt.promoChange hp).promoCodeId

end promoOutline

-- The counter of a code always equals the number of its redemptions in force, a user holds at most
-- one of them, and no redemption comes into force unless the code is active and below its cap.
theorem promo_counter {P : Params} {s : Pool Stmt.sig Store Call}
    (h : Reachable (system P) {} Store.Initial s) :
    (∀ Q code, s.db.promos.codes.find? Q = some code →
      code.timesRedeemed = s.db.promos.redemptionCount Q ∧ 0 ≤ code.timesRedeemed) ∧
    (∀ D E r r', s.db.promos.redemptions.table.find? D = some r →
      s.db.promos.redemptions.table.find? E = some r' → r.status = .redeemed →
      r'.status = .redeemed → r.promoCodeId = r'.promoCodeId → r.userId = r'.userId → D = E) ∧
    ∀ e ∈ s.log, ∀ D r, (e.post (system P)).promos.redemptions.table.find? D = some r →
      r.status = .redeemed → e.pre.promos.redemptions.table.find? D ≠ some r →
      ∃ code, e.pre.promos.codes.find? r.promoCodeId = some code ∧ code.active = true ∧
        ∀ m ∈ code.maxRedemptions, code.timesRedeemed < m := by
  have hc : s.db.promos.Counted := promoOutline.valid.reachable h |>.inv
  refine ⟨fun Q code hf => ⟨hc hf, hc hf ▸ Int.natCast_nonneg _⟩, ?_, ?_⟩
  case refine_1 =>
    intro D E r r' hr hr' hs hs' hP hU
    exact s.db.promos.redemptions.active hr hr' ⟨hs, hs', hP, hU⟩
  case refine_2 =>
    refine h.invariant (I := fun w => ∀ e ∈ w.log, ∀ D r,
      (e.post (system P)).promos.redemptions.table.find? D = some r → r.status = .redeemed →
      e.pre.promos.redemptions.table.find? D ≠ some r →
      ∃ code, e.pre.promos.codes.find? r.promoCodeId = some code ∧ code.active = true ∧
        ∀ m ∈ code.maxRedemptions, code.timesRedeemed < m) (by simp) fun st ih e he => ?_
    cases List.mem_cons.mp he
    case inr he => exact ih e he
    case inl he =>
      subst he
      intro D r hr hs hn
      have hp := promoOutline.valid.reachable st.reachable |>.pre st.aboutTo
      obtain ⟨code, hf, hc⟩ := (Stmt.promoChange hp).redeemable hr hs hn
      simp only [PromoCode.redeemable, decide_eq_true_eq] at hc
      exact ⟨code, hf, hc.left, hc.right.right.right⟩

-- Two users compete for a code that admits a single redemption. The first one gives it back, which
-- is attempted twice, before the second one tries again.
def promoRun : List (Cmd Call) :=
  List.flatten [
    Cmd.run 1 (.redeem 1 1 7 700 ⟨350, 350⟩ .committed) 1,
    Cmd.run 2 (.redeem 1 2 8 700 ⟨350, 350⟩ .committed) 1,
    Cmd.run 3 (.releaseForDelivery 7 .committed) 1, Cmd.run 4 (.releaseForDelivery 7 .committed) 2,
    [.exec 3], Cmd.run 5 (.redeem 1 2 8 700 ⟨350, 350⟩ .committed) 1]

theorem promo_counter_contended :
    let s := (Pool.init .small).runCmds (system .small) promoRun
    s.db.promos.codes.find? 1 = some { PromoCode.small with timesRedeemed := 1 } ∧
      s.db.promos.redemptionCount 1 = 1 ∧
      ((1 : Int) = s.db.promos.redemptionCount 1 ∧ (0 : Int) ≤ 1) := by
  have hf : ((Pool.init .small).runCmds (system .small) promoRun).db.promos.codes.find? 1 =
      some { PromoCode.small with timesRedeemed := 1 } := rfl
  have h := promo_counter (P := .small) <| Reachable.runCmds_of_free promoRun
    (.init Store.small_initial)
  exact ⟨hf, by decide, h.1 1 _ hf⟩

end Drovery
