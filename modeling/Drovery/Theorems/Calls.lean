import Drovery.Execution.Theorems.Warrant

namespace Drovery

open Concurrency Method Outline
open DeliveriesService DispatchService WalletService PromoService

-- What the command rows say about the history.
structure Recorded (w : History) : Prop where
  acked       : ∀ {C cmd}, w.db.commands.find? C = some cmd → cmd.status = .acked → Accepted w C
  commandable : ∀ {C cmd}, w.db.commands.find? C = some cmd →
    Commandable w cmd.deliveryId cmd.type
  flown       : ∀ {C cmd}, w.db.commands.find? C = some cmd →
    w.db.Flown cmd.deliveryId .live (some cmd.droneId)

-- What is true of a command when it is created, and stays true as the history grows, is true of all
-- commands.
theorem orders_of_mono {P : Params} {t : Nat} {c : Call} {w : History} {x : Stmt}
    {Q : DroneCommand → History → Prop} (ho : ∀ {e e' w}, e.SameOrder e' → Q e w → Q e' w)
    (hm : ∀ {e w w'}, Grows w w' → Q e w → Q e w')
    (h : ∀ C {cmd}, w.db.commands.find? C = some cmd → Q cmd w)
    (hc : ∀ C row, x = .command (.create C row) → Q row w) (hx : x.Warranted P t c w)
    {C : CommandId} {cmd : DroneCommand} (hf : (x.exec w.db).snd.commands.find? C = some cmd) :
    Q cmd (w.exec (system P) t c x) := by
  refine hm (.exec hx.lawful) ?_
  have keep {e e' : DroneCommand} (he : w.db.commands.find? C = some e) (hf : some e' = some cmd)
      (hs : e.SameOrder e') : Q cmd w :=
    Option.some.inj hf ▸ ho hs (h C he)
  have := x.commandChange w.db C
  generalize (x.exec w.db).snd.commands.find? C = cmd' at this hf
  cases this
  case same           => exact h C hf
  case created hx _ _ => exact hc C cmd (Option.some.inj hf ▸ hx)
  case fetched he _   => exact keep he hf ⟨rfl, rfl, rfl, rfl⟩
  case expired he _   => exact keep he hf ⟨rfl, rfl, rfl, rfl⟩
  case claimed he _   => exact keep he hf ⟨rfl, rfl, rfl, rfl⟩
  case applied he     => exact keep he hf ⟨rfl, rfl, rfl, rfl⟩
  case rejected he    => exact keep he hf ⟨rfl, rfl, rfl, rfl⟩

theorem Recorded.exec {P : Params} {t : Nat} {c : Call} {w : History} {x : Stmt} (h : Recorded w)
    (hx : x.Warranted P t c w) : Recorded (w.exec (system P) t c x) where
  acked {C cmd} hf hs := by
    have hg : Grows w (w.exec (system P) t c x) := .exec hx.lawful
    have := x.commandChange w.db C
    rw [show ((w.exec (system P) t c x).db) = (x.exec w.db).snd from rfl] at hf
    generalize (x.exec w.db).snd.commands.find? C = cmd' at this hf
    cases this
    case same => exact (h.acked hf hs).mono hg
    case created hx' _ _ =>
      obtain rfl := Option.some.inj hf
      subst hx'
      simp [hx.1] at hs
    case fetched  => obtain rfl := Option.some.inj hf; simp at hs
    case expired  => obtain rfl := Option.some.inj hf; simp at hs
    case rejected => obtain rfl := Option.some.inj hf; simp at hs
    case applied hc =>
      obtain rfl := Option.some.inj hf
      exact (h.acked hc hs).mono hg
    case claimed status now note cmd hx' hc hs' =>
      obtain rfl := Option.some.inj hf
      obtain rfl : status = .acked := hs
      exact ⟨_, .head _, now, note, cmd, hx', hc, hs'⟩
  commandable hf := by
    refine orders_of_mono (Q := fun cmd w => Commandable w cmd.deliveryId cmd.type)
      (fun ho h => ?_) (fun hg h => h.mono hg) (fun _ => h.commandable) (fun _ _ he => ?_) hx hf
    case refine_1 => rwa [ho.deliveryId, ho.type]
    case refine_2 => subst he; exact hx.2.2.2.1
  flown hf := by
    refine orders_of_mono (Q := fun cmd w => w.db.Flown cmd.deliveryId .live (some cmd.droneId))
      (fun ho h => ?_) (fun hg h => hg.db.flown h) (fun _ => h.flown) (fun _ _ he => ?_) hx hf
    case refine_1 => rwa [ho.deliveryId, ho.droneId]
    case refine_2 => subst he; exact hx.2.2.2.2

-- The outline for all calls: each statement is warranted when it is issued.
def callOutline (P : Params) : Outline Stmt.sig Store Call where
  inv w       := Recorded w
  rely _ w w' := Grows w w'
  pre t c x w := x.Warranted P t c w
  post t c w  := c.Sweeps → Swept w t

-- An assertion that continues to hold as the history grows.
abbrev Mono (F : History → Prop) : Prop :=
  ∀ {w w'}, Grows w w' → F w → F w'

namespace callOutline

variable {P : Params} {t : Nat} {c : Call} {w : History} {α : Type} {p : App α} {x : Stmt}
variable {F : History → Prop} {D : DeliveryId} {C : CommandId} {o : Option CommandId}
variable {s : DeliveryStatus} {tr : Transition} {reason : DeliveryFailureReason}
variable {faults : CleanupFaults}

theorem plain_warranted (h : x.Plain) : x.Warranted P t c w := by
  have plain {x : Stmt} (hn : ∀ D s, ¬x.Follows D s) : (∃ D s, x.Follows D s) →
      (∃ D s o, x.Follows D s ∧ Won w t o D s) ∨ c.Undoes P t w x :=
    fun ⟨D, s, hf⟩ => absurd hf (hn D s)
  cases x
  case delivery x => cases x <;> first | exact h.elim | exact plain fun _ _ => id
  case fleet x    => cases x <;> first | exact h.elim | exact plain fun _ _ => id
  case command x  => cases x <;> first | exact h.elim | exact plain fun _ _ => id
  case wallet x   => cases x <;> first | exact h.elim | exact plain fun _ _ => id
  case promo x    => cases x <;> first | exact h.elim | exact plain fun _ _ => id
  case payment x  => cases x <;> first | exact h.elim | exact plain fun _ _ => id
  case createDelivery => exact h.elim
  case refundCharge   => exact h.elim
  case effect x =>
    cases x
    case notify        => exact h.elim
    case publishUpdate => exact plain fun _ _ hf => by simp_all [Stmt.Plain, Stmt.Follows]
    all_goals exact plain fun _ _ => id

theorem follows_warranted (h : x.Follows D s) (hw : Won w t o D s) : x.Warranted P t c w := by
  cases x
  case delivery       => exact h.elim
  case command        => exact h.elim
  case createDelivery => exact h.elim
  all_goals exact fun _ => .inl ⟨D, s, o, h, hw⟩

theorem undoes_warranted (h : c.Undoes P t w x) : x.Warranted P t c w := by
  cases x
  case delivery       => cases c <;> exact h.elim
  case command        => cases c <;> exact h.elim
  case createDelivery => cases c <;> exact h.elim
  all_goals exact fun _ => .inr h

-- A statement that is warranted preserves everything that continues to hold.
theorem stmt_wpm {Q : x.Res → History → Prop} {E : AppError → History → Prop}
    (hx : x.Warranted P t c w) (hF : Mono F) (h : F w)
    (hQ : ∀ w', Recorded w' → F w' → F (w'.exec (system P) t c x) →
      Q (x.exec w'.db).fst (w'.exec (system P) t c x)) :
    (callOutline P).wpm (system P) t c (App.stmt x) Q E w := by
  refine wpm_stmt.mpr ⟨hx, fun w' hr hi hx' => ?_⟩
  have h' := hF hr h
  exact hQ w' hi h' <| hF (.exec hx'.lawful) h'

theorem tx_wpm {f : x.Res → Except AppError α} (hx : x.Warranted P t c w) (hF : Mono F) (h : F w) :
    (callOutline P).wpm (system P) t c (App.tx x f) (fun _ => F) (fun _ => F) w :=
  wpm_tx_of hx fun _ hr _ hx' => hF (.exec (Stmt.Warranted.lawful hx')) <| hF hr h

theorem single_wpm {K : Stmt → Prop} (hp : Built (Single K) p) (hF : Mono F)
    (hK : ∀ {x w}, K x → F w → x.Warranted P t c w) (h : F w) :
    (callOutline P).wpm (system P) t c p (fun _ => F) (fun _ => F) w := by
  refine wpm_built hp (fun hb hF' => ?_) h
  obtain ⟨hx⟩ := hb
  exact tx_wpm (hK hx hF') hF hF'

-- Whatever follows up a change of the status.
theorem follow_wpm (hp : Built (Single (Aftermath D s)) p) (hF : Mono F) (h : F w)
    (hw : Won w t o D s) :
    (callOutline P).wpm (system P) t c p (fun _ w => F w ∧ Won w t o D s) (fun _ => F) w := by
  refine wpm_mono (single_wpm (F := fun w => F w ∧ Won w t o D s) hp ?_ ?_ ⟨h, hw⟩)
    (fun _ _ h => h) (fun _ _ h => h.left)
  case refine_1 => exact fun hg h => ⟨hF hg h.left, h.right.mono hg⟩
  case refine_2 =>
    intro x w hx h
    obtain hx | hx := hx
    case inl => exact plain_warranted hx
    case inr => exact follows_warranted hx h.right

theorem transition_count {db : Store} :
    ((Stmt.delivery (.transition o D tr)).exec db).fst = 0 ↔
      ¬∃ d, db.deliveries.find? D = some d ∧ tr.source d.status := by
  simp only [Stmt.exec, DeliveryStmt.exec, Table.cas_count_eq_zero_iff]
  simp

theorem transition_wpm {E : AppError → History → Prop}
    (hx : (Stmt.delivery (.transition o D tr)).Warranted P t c w) (hF : Mono F) (h : F w) :
    (callOutline P).wpm (system P) t c (App.stmt <| .delivery <| .transition o D tr)
      (fun count w => F w ∧ (count = 0 → Lost w t o D tr) ∧ (count ≠ 0 → Won w t o D tr.target))
      E w := by
  refine stmt_wpm hx hF h fun w' _ _ h' => ⟨h', fun hn => ?_, fun hn => ?_⟩
  case refine_1 =>
    refine ⟨_, .head _, rfl, rfl, fun hw => ?_⟩
    exact transition_count.mp hn hw.right
  case refine_2 =>
    refine ⟨_, .head _, rfl, tr, rfl, rfl, ?_⟩
    exact not_not.mp fun hw => hn <| transition_count.mpr hw

section Termination

variable {allowed : List DeliveryStatus}

-- The parts of a set of statuses that are written separately.
abbrev groundedOf (allowed : List DeliveryStatus) : List DeliveryStatus :=
  allowed.filter (· ∉ DeliveryStatus.failableStatuses)

abbrev airborneOf (allowed : List DeliveryStatus) : List DeliveryStatus :=
  allowed.filter (· ∈ DeliveryStatus.failableStatuses)

theorem failFrom_wpm
    (hx : allowed ≠ [] → (Stmt.delivery (.transition o D (.fail allowed reason))).Warranted P t c w)
    (hF : Mono F) (h : F w) :
    (callOutline P).wpm (system P) t c (failFrom o D allowed reason)
      (fun count w => F w ∧ (count = 0 → allowed ≠ [] → Lost w t o D (.fail allowed reason)) ∧
        (count ≠ 0 → Won w t o D .deliveryFailed)) (fun _ => F) w := by
  unfold failFrom
  split
  case isTrue he => exact ⟨h, fun _ hn => absurd he hn, fun hn => absurd rfl hn⟩
  case isFalse he =>
    refine wpm_mono (transition_wpm (E := fun _ => F) (hx he) hF h) (fun _ _ h => ?_) (fun _ _ h => h)
    exact ⟨h.1, fun hn _ => h.2.1 hn, h.2.2⟩

theorem finishFailure_wpm {airborne : Bool} (hF : Mono F) (h : F w)
    (hw : Won w t o D .deliveryFailed) :
    (callOutline P).wpm (system P) t c (finishFailure D reason airborne faults)
      (fun _ w => F w ∧ Won w t o D .deliveryFailed) (fun _ => F) w :=
  follow_wpm finishFailure_single hF h hw

theorem failExceptional_wpm (hF : Mono F) (h : F w)
    (hx : ∀ {w a}, F w → a ≠ [] → a = groundedOf allowed ∨ a = airborneOf allowed →
      (Stmt.delivery (.transition o D (.fail a reason))).Warranted P t c w) :
    (callOutline P).wpm (system P) t c (failExceptional o D reason allowed faults)
      (fun applied w => F w ∧ (applied = true → Won w t o D .deliveryFailed) ∧
        (applied = false → airborneOf allowed ≠ [] →
          Lost w t o D (.fail (airborneOf allowed) reason))) (fun _ => F) w := by
  have done {w : History} {airborne : Bool} (h : F w) (hw : Won w t o D .deliveryFailed) :
      (callOutline P).wpm (system P) t c
        (do finishFailure D reason airborne faults; pure true : App Bool)
        (fun applied w => F w ∧ (applied = true → Won w t o D .deliveryFailed) ∧
          (applied = false → airborneOf allowed ≠ [] →
            Lost w t o D (.fail (airborneOf allowed) reason))) (fun _ => F) w := by
    rw [wpm_bind]
    refine wpm_mono (finishFailure_wpm hF h hw) (fun _ _ h => ?_) (fun _ _ h => h)
    exact ⟨h.left, fun _ => h.right, fun hn => by contradiction⟩
  rw [failExceptional, wpm_bind]
  refine wpm_mono (failFrom_wpm (fun hn => hx h hn (.inl rfl)) hF h) (fun matched w h => ?_)
    (fun _ _ h => h)
  split
  case isTrue hm => exact done h.1 <| h.2.2 hm.ne'
  case isFalse =>
    rw [wpm_bind]
    refine wpm_mono (failFrom_wpm (fun hn => hx h.1 hn (.inr rfl)) hF h.1) (fun matched w h => ?_)
      (fun _ _ h => h)
    split
    case isTrue hm => exact done h.1 <| h.2.2 hm.ne'
    case isFalse hm =>
      exact ⟨h.1, fun hn => by contradiction, fun _ => h.2.1 (Nat.eq_zero_of_not_pos hm)⟩

-- Each caller names one of three sets of statuses from which it may fail a delivery.
theorem fail_warranted {a : List DeliveryStatus} (h : Failing allowed)
    (ha : a = groundedOf allowed ∨ a = airborneOf allowed) :
    (Stmt.delivery (.transition none D (.fail a reason))).Warranted P t c w := by
  refine ⟨fun s hs => ?_, by simp, trivial⟩
  have hm : s ∈ allowed := by
    obtain rfl | rfl := ha <;> exact List.mem_of_mem_filter hs
  revert hm
  simp only [Failing, List.mem_cons, List.not_mem_nil, or_false] at h
  obtain rfl | rfl | rfl := h <;> cases s <;> decide

theorem beginReturnToBase_wpm (hF : Mono F) (h : F w)
    (hx : (Stmt.delivery (.transition o D (.beginReturn reason))).Warranted P t c w) :
    (callOutline P).wpm (system P) t c (beginReturnToBase o D reason faults)
      (fun applied w => F w ∧ (applied = true → Won w t o D .returning) ∧
        (applied = false → Lost w t o D (.beginReturn reason))) (fun _ => F) w := by
  rw [beginReturnToBase, wpm_bind]
  refine wpm_mono (transition_wpm (E := fun _ => F) hx hF h) (fun count w h => ?_) (fun _ _ h => h)
  split
  case isTrue hn => exact ⟨h.1, fun hc => by contradiction, fun _ => h.2.1 hn⟩
  case isFalse hn =>
    rw [wpm_bind]
    have hs := @cleanupAfterTermination_single D .returning faults reason.isDroneFaultReason
      .stillAirborne (.inr rfl) (by simp)
    refine wpm_mono (follow_wpm hs hF h.1 (h.2.2 hn)) (fun _ w h => ?_) (fun _ _ h => h)
    rw [wpm_bind]
    refine wpm_mono (follow_wpm announceException_single hF h.1 h.2) (fun _ w h => ?_)
      (fun _ _ h => h)
    exact ⟨h.1, fun _ => h.2, fun hc => by contradiction⟩

theorem completeReturnToBase_wpm (hF : Mono F) (h : F w) :
    (callOutline P).wpm (system P) t c (completeReturnToBase D faults) (fun _ => F) (fun _ => F)
      w := by
  rw [completeReturnToBase, wpm_bind]
  refine wpm_mono (transition_wpm (E := fun _ => F) ⟨trivial, by simp, trivial⟩ hF h)
    (fun count w h => ?_) (fun _ _ h => h)
  split
  case isTrue => exact h.1
  case isFalse hn =>
    have hs : Built (Single (Aftermath D .returnedToBase))
        (do release D .groundForInspection faults.airframe
            announceException D .returnedToBase none faults
            pure true : App Bool) :=
      .bind (release_single <| .inr ⟨rfl, by decide⟩) fun _ =>
        .bind announceException_single fun _ => .pure
    exact wpm_mono (follow_wpm hs hF h.1 (h.2.2 hn)) (fun _ _ h => h.1) (fun _ _ h => h)

-- A cancellation, in any of its forms, that has won.
theorem canceled_wpm {outcome : ReleaseOutcome} (hF : Mono F) (h : F w)
    (hw : Won w t none D .canceled) :
    (callOutline P).wpm (system P) t c (cleanupAfterTermination D true (.released outcome) faults)
      (fun _ => F) (fun _ => F) w := by
  have hs := @cleanupAfterTermination_single D .canceled faults true (.released outcome)
    (.inl (by decide)) fun _ _ => by decide
  exact wpm_mono (follow_wpm hs hF h hw) (fun _ _ h => h.1) (fun _ _ h => h)

theorem cancel_wpm {U : UserId} (hF : Mono F) (h : F w) :
    (callOutline P).wpm (system P) t c (cancel U D faults) (fun _ => F) (fun _ => F) w := by
  rw [cancel, wpm_bind]
  refine stmt_wpm (plain_warranted trivial) hF h fun w' _ _ h => ?_
  split
  case h_1 => exact h
  case h_2 =>
    split
    case isTrue => exact h
    case isFalse =>
      split
      case isTrue => exact h
      case isFalse =>
        rw [wpm_bind]
        refine wpm_mono (transition_wpm (E := fun _ => F) ⟨trivial, by simp, trivial⟩ hF h)
          (fun count w h => ?_) (fun _ _ h => h)
        split
        case isTrue     => exact h.1
        case isFalse hn => exact canceled_wpm hF h.1 (h.2.2 hn)

theorem adminForceCancel_wpm (hF : Mono F) (h : F w) :
    (callOutline P).wpm (system P) t c (adminForceCancel D faults) (fun _ => F) (fun _ => F) w := by
  rw [adminForceCancel, wpm_bind]
  refine wpm_mono (transition_wpm (E := fun _ => F) ⟨trivial, by simp, trivial⟩ hF h)
    (fun count w h => ?_) (fun _ _ h => h)
  split
  case isTrue hn => exact canceled_wpm hF h.1 (h.2.2 hn.ne')
  case isFalse =>
    rw [wpm_bind]
    refine wpm_mono (transition_wpm (E := fun _ => F) ⟨trivial, by simp, trivial⟩ hF h.1)
      (fun count w h => ?_) (fun _ _ h => h)
    split
    case isTrue hn => exact canceled_wpm hF h.1 (h.2.2 hn.ne')
    case isFalse =>
      rw [wpm_bind]
      refine stmt_wpm (plain_warranted trivial) hF h.1 fun w' _ _ h => ?_
      split <;> exact h

end Termination

section Blocks

variable {K : Stmt → Prop} {X : DroneId}

-- The status that allows a command to be issued has just been read.
theorem issue_wpm {adminId : Option UserId} {type : DroneCommandType}
    {reason : Option DeliveryFailureReason} (hF : Mono F) (h : F w) :
    (callOutline P).wpm (system P) t c
      (DroneCommandService.issue C adminId D type reason) (fun _ => F) (fun _ => F) w := by
  rw [DroneCommandService.issue, wpm_bind]
  refine stmt_wpm (plain_warranted trivial) hF h fun w' _ _ h => ?_
  split
  case h_1 => exact h
  case h_2 d hd =>
    split
    case isTrue => exact h
    case isFalse hl =>
      split
      case h_1 => exact h
      case h_2 X hX =>
        split
        case isTrue => exact h
        case isFalse hs =>
          have hs := not_not.mp hs
          have hc : Commandable w' D type := ⟨d, hd, .inl hs⟩
          have hf : w'.db.Flown D .live (some X) :=
            ⟨d, hd, DroneCommandType.ne_scheduled_of_legal hs, not_not.mp hl, hX⟩
          have hF' : Mono fun w => F w ∧ Commandable w D type ∧ w.db.Flown D .live (some X) :=
            fun hg h => ⟨hF hg h.1, h.2.1.mono hg, hg.db.flown h.2.2⟩
          have hg : Grows w' (w'.exec (system P) t c (.delivery <| .find D)) := .exec trivial
          have h := And.intro h <| And.intro (hc.mono hg) (hg.db.flown hf)
          rw [wpm_bind]
          refine stmt_wpm (plain_warranted trivial) hF' h fun w' _ _ h => ?_
          split
          case isTrue => exact h.1
          case isFalse =>
            rw [wpm_bind]
            refine stmt_wpm (plain_warranted trivial) hF' h fun w' _ _ h => ?_
            rw [wpm_bind, wpm_handle]
            refine wpm_mono (tx_wpm ⟨rfl, rfl, rfl, h.2⟩ hF h.1) (fun _ w h => ?_) (fun e w h => ?_)
            case refine_1 =>
              rw [wpm_safe]
              exact stmt_wpm (plain_warranted trivial) hF h fun _ _ _ h => h
            case refine_2 => split <;> exact h

-- An update that was applied is published, and so is an update of the position.
theorem ingestHappy_wpm {delivery : Delivery} {msg : TelemetryMessage} {positionValid : Bool}
    {phase : Option HappyPhase} (hF : Mono F) (h : F w) :
    (callOutline P).wpm (system P) t c
      (TelemetryService.ingestHappy delivery msg positionValid phase) (fun _ => F) (fun _ => F)
      w := by
  have publish {w : History} {s : Option DeliveryStatus} (h : F w)
      (hw : ∀ s' ∈ s, Won w t none msg.deliveryId s') :
      (callOutline P).wpm (system P) t c (do
        let positioned ← TelemetryService.writePosition delivery msg positionValid s
        if s.isNone ∧ !positioned then
          pure ()
        else
          App.stmt <| .effect <| .publishUpdate msg.deliveryId s) (fun _ => F) (fun _ => F) w := by
    have hF' : Mono fun w => F w ∧ ∀ s' ∈ s, Won w t none msg.deliveryId s' :=
      fun hg h => ⟨hF hg h.1, fun s' hs => (h.2 s' hs).mono hg⟩
    rw [wpm_bind]
    refine wpm_mono (single_wpm writePosition_single hF' (fun hx _ => plain_warranted hx) ⟨h, hw⟩)
      (fun positioned w h => ?_) (fun _ _ h => h.1)
    split
    case isTrue => exact h.1
    case isFalse =>
      refine stmt_wpm ?_ hF h.1 fun _ _ _ h => h
      cases hs : s
      case none    => exact plain_warranted rfl
      case some s' => exact follows_warranted ⟨rfl, rfl⟩ (h.2 s' hs)
  rw [TelemetryService.ingestHappy]
  cases phase
  case none => exact publish h (by simp)
  case some phase =>
    have hl : phaseToStatus phase ≠ .delivered := by cases phase <;> decide
    rw [wpm_bind, TelemetryService.advance, wpm_bind]
    refine wpm_mono (transition_wpm (E := fun _ => F) ⟨hl, by simp, trivial⟩ hF h)
      (fun count w h => ?_) (fun _ _ h => h)
    refine publish h.1 fun s hs => ?_
    split at hs
    case isTrue hc =>
      obtain rfl := Option.some.inj hs
      exact h.2.2 hc.ne'
    case isFalse => contradiction

-- Calls on behalf of no command.
theorem blocks_wpm (hp : Built (Block K fun o _ => o = none) p) (hF : Mono F)
    (hK : ∀ {x w}, K x → F w → x.Warranted P t c w) (h : F w) :
    (callOutline P).wpm (system P) t c p (fun _ => F) (fun _ => F) w := by
  refine wpm_built hp (fun hb h => ?_) h
  cases hb
  case tx hx _ =>
    exact tx_wpm (hx.elim plain_warranted (hK · h)) hF h
  case fail ho hf =>
    subst ho
    exact wpm_mono (failExceptional_wpm hF h fun _ _ ha => fail_warranted hf ha)
      (fun _ _ h => h.1) (fun _ _ h => h)
  case beginReturn ho =>
    subst ho
    exact wpm_mono (beginReturnToBase_wpm hF h ⟨trivial, by simp, trivial⟩) (fun _ _ h => h.1)
      (fun _ _ h => h)
  case completeReturn => exact completeReturnToBase_wpm hF h
  case cancel         => exact cancel_wpm hF h
  case forceCancel    => exact adminForceCancel_wpm hF h
  case issue          => exact issue_wpm hF h
  case happy          => exact ingestHappy_wpm hF h

end Blocks

section Commands

variable {command : DroneCommand} {note : String}

-- The transition that a command stands for.
abbrev transitionOf (command : DroneCommand) : Transition :=
  command.type.transition command.reason

theorem drive_wpm (hF : Mono F) (h : F w)
    (hc : Commanded w C command.deliveryId (transitionOf command)) :
    (callOutline P).wpm (system P) t c (DroneCommandService.drive C command faults)
      (fun applied w => F w ∧ Commanded w C command.deliveryId (transitionOf command) ∧
        (applied = true → ∃ s, Won w t (some C) command.deliveryId s) ∧
        (applied = false → Lost w t (some C) command.deliveryId (transitionOf command)))
      (fun _ => F) w := by
  have hF' : Mono fun w => F w ∧ Commanded w C command.deliveryId (transitionOf command) :=
    fun hg h => ⟨hF hg h.1, h.2.mono hg⟩
  have warranted {w : History} (h : Commanded w C command.deliveryId (transitionOf command)) :
      (Stmt.delivery (.transition (some C) command.deliveryId (transitionOf command))).Warranted
        P t c w := by
    refine ⟨DroneCommandType.transition_lawful, fun _ hC => Option.some.inj hC ▸ h, ?_⟩
    unfold transitionOf
    cases command.type <;> trivial
  unfold DroneCommandService.drive
  unfold transitionOf at hc warranted ⊢
  cases ht : command.type <;> simp only [ht] at hc warranted ⊢
  case returnToBase =>
    refine wpm_mono (beginReturnToBase_wpm (F := fun w => F w ∧ Commanded w C command.deliveryId
      (.beginReturn command.reason)) (fun hg h => ⟨hF hg h.1, h.2.mono hg⟩) ⟨h, hc⟩ (warranted hc))
      (fun applied w h => ?_) (fun _ _ h => h.1)
    exact ⟨h.1.1, h.1.2, fun ha => ⟨_, h.2.1 ha⟩, h.2.2⟩
  case abort =>
    have ha : airborneOf DeliveryStatus.failableStatuses = DeliveryStatus.failableStatuses := by
      decide
    have hg : groundedOf DeliveryStatus.failableStatuses = [] := by decide
    refine wpm_mono (failExceptional_wpm (F := fun w => F w ∧ Commanded w C command.deliveryId
      (.fail DeliveryStatus.failableStatuses command.reason))
      (fun hg h => ⟨hF hg h.1, h.2.mono hg⟩) ⟨h, hc⟩ fun h hn he => ?_)
      (fun applied w h => ?_) (fun _ _ h => h.1)
    case refine_1 =>
      obtain rfl | rfl := he
      case inl => exact absurd hg hn
      case inr => rw [ha]; exact warranted h.2
    case refine_2 =>
      rw [ha] at h
      exact ⟨h.1.1, h.1.2, fun ha => ⟨_, h.2.1 ha⟩, fun ha => h.2.2 ha (by decide)⟩

-- The recorded result is that of the transition.
theorem patch_wpm {applied : Bool} (hF : Mono F) (h : F w)
    (hc : Commanded w C command.deliveryId (transitionOf command))
    (hw : applied = true → ∃ s, Won w t (some C) command.deliveryId s)
    (hl : applied = false → Lost w t (some C) command.deliveryId (transitionOf command)) :
    (callOutline P).wpm (system P) t c (DroneCommandService.patch C applied note)
      (fun _ w => F w ∧ Patched w t C) (fun _ => F) w := by
  unfold DroneCommandService.patch
  split
  case isTrue ha =>
    obtain ⟨s, hw⟩ := hw ha
    exact stmt_wpm ⟨_, s, hw⟩ hF h fun _ _ _ h => ⟨h, _, .head _, rfl, .inl rfl⟩
  case isFalse ha =>
    have hl := hl (Bool.eq_false_iff.mpr ha)
    exact stmt_wpm ⟨_, _, hl, hc⟩ hF h fun _ _ _ h => ⟨h, _, .head _, rfl, .inr ⟨_, rfl⟩⟩

theorem claim_wpm {status : DroneCommandStatus} {now : Time} {note : Option String}
    {E : AppError → History → Prop} (hs : status = .acked ∨ status = .rejected) (hF : Mono F)
    (h : F w) :
    (callOutline P).wpm (system P) t c (App.stmt <| .command <| .claim C status now note)
      (fun count w => F w ∧ (count ≠ 0 → status = .acked → Accepted w C)) E w := by
  refine stmt_wpm hs hF h fun w' _ _ h => ⟨h, fun hn ha => ?_⟩
  have ⟨cmd, hc, hf⟩ : ∃ cmd, w'.db.commands.find? C = some cmd ∧ cmd.status = .fetched := by
    by_contra hne
    refine hn <| Table.cas_count_eq_zero_iff.mpr fun cmd hc hf => ?_
    exact hne ⟨cmd, hc, of_decide_eq_true hf⟩
  exact ⟨_, .head _, now, note, cmd, ha ▸ rfl, hc, hf⟩

theorem ack_wpm {X : DroneId} {accepted : Bool} {note : Option String} (hF : Mono F) (h : F w) :
    (callOutline P).wpm (system P) t c (DroneCommandService.ack C X accepted note faults)
      (fun _ => F) (fun _ => F) w := by
  rw [DroneCommandService.ack, wpm_bind]
  refine stmt_wpm (plain_warranted trivial) hF h fun w' _ _ h => ?_
  split
  case h_1 => exact h
  case h_2 command source Y hf =>
    -- The row that has been read stays the same in all that matters for the transition.
    have hF' : Mono fun w => F w ∧ ∃ cmd, w.db.commands.find? C = some cmd ∧ command.SameOrder cmd := by
      rintro w w' hg ⟨h, cmd, hc, ho⟩
      obtain ⟨cmd', hc', ho'⟩ := hg.db.command hc
      exact ⟨hF hg h, cmd', hc', ho'.deliveryId.trans ho.deliveryId, ho'.droneId.trans ho.droneId,
        ho'.type.trans ho.type, ho'.reason.trans ho.reason⟩
    have hc : ∃ cmd, w'.db.commands.find? C = some cmd ∧ command.SameOrder cmd := by
      simp only [Stmt.exec, CommandStmt.exec] at hf
      obtain ⟨cmd, hc, hi⟩ := Option.bind_eq_some_iff.mp hf
      obtain ⟨_, _, he⟩ := Option.map_eq_some_iff.mp hi
      obtain ⟨rfl, _⟩ := Prod.mk.inj he
      exact ⟨cmd, hc, rfl, rfl, rfl, rfl⟩
    have h := And.intro h hc
    split
    case isTrue => exact h.1
    case isFalse =>
      rw [wpm_bind]
      refine stmt_wpm (plain_warranted trivial) hF' h fun w' _ _ h => ?_
      split
      case isTrue =>
        rw [wpm_bind]
        exact stmt_wpm (plain_warranted trivial) hF h.1 fun _ _ _ h => h
      case isFalse =>
        rw [wpm_bind]
        refine stmt_wpm (plain_warranted trivial) hF' h fun w' _ _ h => ?_
        rw [wpm_bind]
        refine wpm_mono (claim_wpm (E := fun _ => F) (by cases accepted <;> simp) hF' h)
          (fun count w h => ?_) (fun _ _ h => h)
        split
        case isTrue => exact h.1.1
        case isFalse hn =>
          split
          case isFalse => exact h.1.1
          case isTrue ha =>
            obtain ⟨⟨hF₀, cmd, hc, ho⟩, hacc⟩ := h
            have hcom : Commanded w C command.deliveryId (transitionOf command) :=
              ⟨hacc hn (if_pos ha), cmd, hc, ho.deliveryId, by rw [ho.type, ho.reason]⟩
            rw [wpm_bind]
            refine wpm_mono (drive_wpm hF hF₀ hcom) (fun applied w h => ?_) (fun _ _ h => h)
            exact wpm_mono (patch_wpm hF h.1 h.2.1 h.2.2.1 h.2.2.2) (fun _ _ h => h.1) (fun _ _ h => h)

theorem redrive_wpm {E : AppError → History → Prop} (hF : Mono F) (h : F w)
    (hc : Commanded w C command.deliveryId (transitionOf command)) :
    (callOutline P).wpm (system P) t c (DeliveryWatchdog.redrive C command faults)
      (fun _ w => F w ∧ Patched w t C) E w := by
  refine wpm_of_total (E := fun _ => F) redrive_total ?_
  rw [DeliveryWatchdog.redrive, wpm_bind]
  refine wpm_mono (drive_wpm hF h hc) (fun applied w h => ?_) (fun _ _ h => h)
  exact patch_wpm hF h.1 h.2.1 h.2.2.1 h.2.2.2

theorem reconcile_wpm {faults : CommandId → CleanupFaults}
    {stranded : List (CommandId × DroneCommand)} {E : AppError → History → Prop} (hF : Mono F)
    (h : F w) (hs : ∀ e ∈ stranded, Commanded w e.fst e.snd.deliveryId (transitionOf e.snd)) :
    (callOutline P).wpm (system P) t c (DeliveryWatchdog.reconcile faults stranded)
      (fun _ w => F w ∧ ∀ e ∈ stranded, Patched w t e.fst) E w := by
  induction stranded generalizing w F
  case nil => exact ⟨h, by simp⟩
  case cons e rest ih =>
    have hF' : Mono fun w => F w ∧
        ∀ e ∈ rest, Commanded w e.fst e.snd.deliveryId (transitionOf e.snd) :=
      fun hg h => ⟨hF hg h.1, fun e he => (h.2 e he).mono hg⟩
    have h' := And.intro h fun e he => hs e (.tail _ he)
    rw [DeliveryWatchdog.reconcile, wpm_bind, wpm_safe]
    refine wpm_mono (redrive_wpm (E := fun _ _ => False) hF' h' <| hs e (.head _))
      (fun _ w h => ?_) (fun _ _ h => h.elim)
    refine wpm_mono (ih (F := fun w => F w ∧ Patched w t e.fst)
      (fun hg h => ⟨hF hg h.1, h.2.mono hg⟩) ⟨h.1.1, h.2⟩ h.1.2) (fun _ w h => ?_) (fun _ _ h => h)
    exact ⟨h.1.1, List.forall_mem_cons.mpr ⟨h.1.2, h.2⟩⟩

-- The commands that are found to be stranded have been accepted.
theorem reconcileStrandedAcks_wpm {faults : CommandId → CleanupFaults}
    {E : AppError → History → Prop} :
    (callOutline P).wpm (system P) t c (DeliveryWatchdog.reconcileStrandedAcks faults)
      (fun _ w => Swept w t) E w := by
  rw [DeliveryWatchdog.reconcileStrandedAcks, wpm_bind]
  refine stmt_wpm (F := fun _ => True) (plain_warranted trivial) (fun _ h => h) trivial
    fun w₁ _ _ _ => ?_
  have hF : Mono fun w => ∃ e₀ ∈ w.log, e₀.tid = t ∧ e₀.pre.clock = w₁.db.clock :=
    fun hg ⟨e₀, he, h⟩ => ⟨e₀, hg.log.mem he, h⟩
  rw [wpm_bind]
  refine stmt_wpm (plain_warranted trivial) hF ⟨_, .head _, rfl, rfl⟩ fun w₂ hi _ h => ?_
  let cutoff := w₁.db.clock - commandReconcileGraceMs
  let x : Stmt := .command <| .findStranded cutoff
  have hF' : Mono fun w => (∃ e₀ ∈ w.log, e₀.tid = t ∧ e₀.pre.clock = w₁.db.clock) ∧
      ⟨t, c, x, w₂.db⟩ ∈ w.log := fun hg h => ⟨hF hg h.1, hg.log.mem h.2⟩
  refine wpm_mono (reconcile_wpm hF' ⟨h, .head _⟩ fun e he => ?_) (fun _ w h => ?_) (fun _ _ h => h)
  case refine_1 =>
    obtain ⟨hm, hst⟩ := List.mem_filter.mp <| List.mem_of_mem_take he
    have hc := Table.find?_eq_some_iff.mpr hm
    simp only [CommandStmt.stranded, decide_eq_true_eq] at hst
    have hcom : Commanded w₂ e.fst e.snd.deliveryId (transitionOf e.snd) :=
      ⟨hi.acked hc hst.left, e.snd, hc, rfl, rfl⟩
    exact hcom.mono <| Grows.exec (P := P) (x := x) trivial
  case refine_2 =>
    obtain ⟨⟨⟨e₀, he₀, ht, hc⟩, he⟩, hp⟩ := h
    exact ⟨e₀, he₀, _, he, ht, rfl, cutoff, by rw [hc], rfl, hp⟩

theorem scanAndReap_wpm {faults : DeliveryWatchdog.ScanFaults} {E : AppError → History → Prop} :
    (callOutline P).wpm (system P) t c (DeliveryWatchdog.scanAndReap faults) (fun _ w => Swept w t)
      E w := by
  have hF : Mono fun _ => True := fun _ h => h
  rw [DeliveryWatchdog.scanAndReap, wpm_bind]
  refine stmt_wpm (plain_warranted trivial) hF trivial fun _ _ _ h => ?_
  rw [wpm_bind]
  refine stmt_wpm (plain_warranted trivial) hF h fun _ _ _ h => ?_
  rw [wpm_bind]
  refine wpm_mono (wpm_of_total reap_total <|
    blocks_wpm (K := fun _ => False) (reap_blocks fun _ => rfl) hF (fun h => h.elim) h)
    (fun _ _ h => ?_) (fun _ _ h => h)
  rw [wpm_bind]
  refine wpm_mono (wpm_of_total expireStaleCommands_total <|
    single_wpm expireStaleCommands_single hF (fun hx _ => plain_warranted hx) h)
    (fun _ _ h => ?_) (fun _ _ h => h)
  exact reconcileStrandedAcks_wpm

end Commands

section Handoff

variable {U : UserId} {code : String}

theorem failHandoff_wpm (hF : Mono F) (h : F w) :
    (callOutline P).wpm (system P) t c (failHandoff D faults) (fun _ => F) (fun _ => F) w :=
  blocks_wpm (K := fun _ => False) (failHandoff_blocks rfl) hF (fun h => h.elim) h

theorem completeHandoff_wpm (hF : Mono F) (h : F w) (hc : Presents P c w D code true) :
    (callOutline P).wpm (system P) t c (completeHandoff D code faults) (fun _ => F) (fun _ => F)
      w := by
  rw [completeHandoff, wpm_bind]
  refine wpm_mono (transition_wpm (E := fun _ => F) ⟨trivial, by simp, hc⟩ hF h)
    (fun count w h => ?_) (fun _ _ h => h)
  split
  case isTrue => exact h.1
  case isFalse hn =>
    have hs : Built (Single (Aftermath D .delivered)) (do
        release D .returnToFleet faults.airframe
        (App.stmt <| .effect <| .createAutoProof D).safe : App Unit) :=
      .bind (release_single <| .inr ⟨rfl, by decide⟩) fun _ => (Single.stmt <| .inl trivial).safe
    exact wpm_mono (follow_wpm hs hF h.1 (h.2.2 hn)) (fun _ _ h => h.1) (fun _ _ h => h)

theorem rejectGuess_wpm (hF : Mono F) (h : F w) (hc : Presents P c w D code false) :
    (callOutline P).wpm (system P) t c (rejectGuess D faults) (fun _ => F) (fun _ => F) w := by
  rw [rejectGuess, wpm_bind]
  refine stmt_wpm ⟨code, hc⟩ hF h fun _ _ _ h => ?_
  rw [wpm_bind]
  refine stmt_wpm (plain_warranted trivial) hF h fun _ _ _ h => ?_
  split
  case isTrue  => exact failHandoff_wpm hF h
  case isFalse => exact h

theorem confirmHandoff_wpm (hF : Mono F) (h : F w) (hc : c = .confirmHandoff U D code faults) :
    (callOutline P).wpm (system P) t c (confirmHandoff P U D code faults) (fun _ => F)
      (fun _ => F) w := by
  rw [confirmHandoff, wpm_bind]
  refine stmt_wpm (plain_warranted trivial) hF h fun w' _ _ h => ?_
  split
  case h_1 => exact h
  case h_2 d hd =>
    split
    case isTrue => exact h
    case isFalse =>
      split
      case isTrue => exact h
      case isFalse =>
        split
        case isTrue => exact h
        case isFalse =>
          split
          case isTrue => exact failHandoff_wpm hF h
          case isFalse =>
            split
            case isTrue hm  => exact completeHandoff_wpm hF h ⟨U, faults, d, hc, hd, hm⟩
            case isFalse hm =>
              exact rejectGuess_wpm hF h ⟨U, faults, d, hc, hd, Bool.eq_false_iff.mpr hm⟩

end Handoff

theorem handleStage_wpm {stageIndex : Nat} (hF : Mono F) (h : F w) :
    (callOutline P).wpm (system P) t c (SimulationProcessor.handleStage D stageIndex) (fun _ => F)
      (fun _ => F) w := by
  unfold SimulationProcessor.handleStage
  split
  case h_1 => exact h
  case h_2 stage hs =>
    have hl : stage ≠ .delivered := by
      rintro rfl
      exact absurd (List.mem_of_getElem? hs) (by decide)
    rw [wpm_bind]
    refine stmt_wpm (plain_warranted trivial) hF h fun _ _ _ h => ?_
    split
    case h_1 => exact h
    case h_2 =>
      rw [wpm_bind]
      refine wpm_mono (transition_wpm (E := fun _ => F) ⟨hl, by simp, trivial⟩ hF h)
        (fun count w h => ?_) (fun _ _ h => h)
      split
      case isTrue => exact h.1
      case isFalse hn =>
        have hs : Built (Single (Aftermath D stage)) (do
            (App.stmt <| .effect <| .updateTracking D none).safe
            (App.stmt <| .effect <| .notify D stage none).safe
            App.stmt <| .effect <| .publishUpdate D (some stage) : App Unit) :=
          .bind (Single.stmt <| .inl trivial).safe fun _ =>
            .bind (Single.stmt <| .inr ⟨rfl, rfl⟩).safe fun _ => Single.stmt <| .inr ⟨rfl, rfl⟩
        exact wpm_mono (follow_wpm hs hF h.1 (h.2.2 hn)) (fun _ _ h => h.1) (fun _ _ h => h)

-- A kickoff does nothing to a delivery that it has not found.
theorem handleKickoff_wpm {job : KickoffJob} (hF : Mono F) (h : F w) (hc : c = .handleKickoff job) :
    (callOutline P).wpm (system P) t c (SimulationProcessor.handleKickoff P job) (fun _ => F)
      (fun _ => F) w := by
  rw [SimulationProcessor.handleKickoff, wpm_bind]
  refine stmt_wpm (plain_warranted trivial) hF h fun w' _ _ h => ?_
  split
  case h_1 => exact h
  case h_2 d hd =>
    have hF' : Mono fun w => F w ∧ ∃ d, w.db.deliveries.find? job.deliveryId = some d := by
      rintro w w' hg ⟨h, d, hd⟩
      obtain ⟨d', hd', _⟩ := hg.db.delivery hd
      exact ⟨hF hg h, d', hd'⟩
    have hb : Built (Block (Stmt.Kickoff job.deliveryId) fun o _ => o = none)
        (SimulationProcessor.kickoff P job d) := kickoff_blocks rfl
    refine wpm_mono (blocks_wpm hb hF' (fun hx hf => ?_) ⟨h, d, hd⟩) (fun _ _ h => h.1)
      (fun _ _ h => h.1)
    subst hc
    obtain ⟨X, rfl⟩ | rfl | ⟨_, _, rfl⟩ | rfl := hx
    case inl         => exact ⟨trivial, by simp, job, rfl, rfl⟩
    case inr.inl     => exact undoes_warranted ⟨rfl, rfl, hf.2⟩
    case inr.inr.inl => exact fun ⟨_, _, hf⟩ => hf.elim
    case inr.inr.inr => exact fun ⟨_, _, hf⟩ => hf.elim

-- The operations with which a call undoes its own reservations.
theorem undo_wpm (hp : Built (Single fun x => x.Plain ∨ ∀ w, c.Undoes P t w x) p) (hF : Mono F)
    (h : F w) :
    (callOutline P).wpm (system P) t c p (fun _ => F) (fun _ => F) w :=
  single_wpm hp hF (fun hx _ => hx.elim plain_warranted fun h => undoes_warranted (h _)) h

theorem books_warranted {inp : CreateInput} (h : x.Books (P.uuid t)) :
    x.Warranted P t (.create inp) w := by
  cases x
  case createDelivery => exact ⟨h.1, ⟨inp, rfl⟩, h.2⟩
  case delivery       => exact h.elim
  case command        => exact h.elim
  case refundCharge   => exact h.elim
  case effect         => exact h.elim
  case fleet x        => cases x <;> first | exact h.elim | exact undoes_warranted h
  case wallet x       => cases x <;> first | exact h.elim | exact fun ⟨_, _, hf⟩ => hf.elim
  case promo x        => cases x <;> first | exact h.elim | exact fun ⟨_, _, hf⟩ => hf.elim
  case payment x      => cases x <;> first | exact h.elim | exact fun ⟨_, _, hf⟩ => hf.elim

theorem create_wpm {inp : CreateInput} (hF : Mono F) (h : F w) (hc : c = .create inp) :
    (callOutline P).wpm (system P) t c (create P (P.uuid t) inp) (fun _ => F) (fun _ => F) w := by
  subst hc
  refine wpm_built create_blocks (fun hb h => ?_) h
  cases hb
  case releasePromo  => exact undo_wpm (releaseForDelivery_single fun _ _ => rfl) hF h
  case refundCredits => exact undo_wpm (refundForDelivery_single fun _ _ _ => rfl) hF h
  case tx hx _       =>
    refine tx_wpm ?_ hF h
    obtain hx | hx | ⟨_, _, rfl⟩ | rfl := hx
    case inl             => exact plain_warranted hx
    case inr.inl         => exact books_warranted hx
    case inr.inr.inl     => exact fun ⟨_, _, hf⟩ => hf.elim
    case inr.inr.inr     => exact fun ⟨_, _, hf⟩ => hf.elim

theorem ok_refund {amount : Option Cents} {fault : Fault} :
    (callOutline P).Ok (system P) t c (AdminService.refund D amount fault) w := by
  have hf : (Stmt.delivery (.find D)).Warranted P t c w := plain_warranted trivial
  refine Ok.stmt_bind hf fun w' _ _ _ => ?_
  split
  case h_1 => trivial
  case h_2 =>
    dsimp only
    split
    case isTrue => trivial
    case isFalse =>
      refine Ok.handle (Ok.attempt <| Ok.tx fun ⟨_, _, hf⟩ => hf.elim) fun e w => ?_
      exact Ok.ite trivial trivial

theorem ok_handleWebhookEvent {event : StripeEvent} {fault : Fault} :
    (callOutline P).Ok (system P) t c (PaymentsService.handleWebhookEvent event fault) w := by
  unfold PaymentsService.handleWebhookEvent
  split
  case h_1 => trivial
  case h_2 =>
    refine Ok.handle (Ok.bind (Ok.attempt <| Ok.tx fun ⟨_, _, hf⟩ => hf.elim) fun _ _ => trivial)
      fun e w => ?_
    exact Ok.ite trivial trivial

theorem spawn :
    (callOutline P).wp (system P) t c ((system P).prog t c) (fun _ => (callOutline P).post t c)
      w := by
  have ok {α : Type} {p : App α} (hn : ¬c.Sweeps)
      (h : (callOutline P).wpm (system P) t c p (fun _ _ => True) (fun _ _ => True) w) :
      (callOutline P).wp (system P) t c p.toCall (fun _ => (callOutline P).post t c) w :=
    wp_mono (Ok.toCall h) fun _ _ _ h => absurd h hn
  have blocks {α : Type} {p : App α} (hn : ¬c.Sweeps)
      (hp : Built (Block (fun _ => False) fun o _ => o = none) p) :
      (callOutline P).wp (system P) t c p.toCall (fun _ => (callOutline P).post t c) w :=
    ok hn <| blocks_wpm hp (fun _ h => h) (fun h => h.elim) trivial
  have single {α : Type} {p : App α} (hn : ¬c.Sweeps) (hp : Built (Single Stmt.Plain) p) :
      (callOutline P).wp (system P) t c p.toCall (fun _ => (callOutline P).post t c) w :=
    ok hn <| single_wpm hp (fun _ h => h) (fun hx _ => plain_warranted hx) trivial
  have free {x : Stmt} {f : x.Res → Except AppError Unit} {fault : Fault} (hn : ¬c.Sweeps)
      (hx : x.Warranted P t c w) :
      (callOutline P).wp (system P) t c ((App.tx x f).attempt fault).toCall
        (fun _ => (callOutline P).post t c) w :=
    ok hn <| Ok.attempt <| Ok.tx hx
  cases c
  case create                => exact ok id <| create_wpm (fun _ h => h) trivial rfl
  case cancel                => exact blocks id <| .block <| .cancel rfl
  case adminForceCancel      => exact blocks id <| .block <| .forceCancel rfl
  case adminFail             => exact blocks id <| adminFail_blocks rfl
  case failExceptional       => exact blocks id <| .block <| .fail rfl <| by simp [Failing]
  case beginReturnToBase     => exact blocks id <| .block <| .beginReturn rfl
  case completeReturnToBase  => exact blocks id <| .block <| .completeReturn rfl
  case confirmHandoff        => exact ok id <| confirmHandoff_wpm (fun _ h => h) trivial rfl
  case handleKickoff         => exact ok id <| handleKickoff_wpm (fun _ h => h) trivial rfl
  case handleStage           => exact ok id <| handleStage_wpm (fun _ h => h) trivial
  case handlePosition        => exact single id handlePosition_single
  case ingest                => exact blocks id <| ingest_blocks rfl
  case issue                 => exact blocks id <| .block .issue
  case fetchPending          => exact single id fetchPending_single
  case ack                   => exact ok id <| ack_wpm (fun _ h => h) trivial
  case scanAndReap           =>
    exact wp_toCall.mpr <| wpm_mono (E := fun _ _ => False) scanAndReap_wpm (fun _ _ h _ => h)
      fun _ _ h => h.elim
  case expireStaleCommands   => exact single id expireStaleCommands_single
  case reconcileStrandedAcks =>
    exact wp_toCall.mpr <| wpm_mono (E := fun _ _ => False) reconcileStrandedAcks_wpm
      (fun _ _ h _ => h) fun _ _ h => h.elim
  case refundForDelivery     =>
    exact ok id <| undo_wpm (refundForDelivery_single fun _ _ _ => rfl) (fun _ h => h) trivial
  case refundChargeToWallet  =>
    exact ok id <| undo_wpm (refundChargeToWallet_single fun _ _ _ => rfl) (fun _ h => h) trivial
  case adminRefund           => exact ok id ok_refund
  case handleWebhookEvent    => exact ok id ok_handleWebhookEvent
  case releaseForDelivery    =>
    exact ok id <| undo_wpm (releaseForDelivery_single fun _ _ => rfl) (fun _ h => h) trivial
  case updatePromo           => exact single id updatePromo_single
  case updateDrone           => exact single id updateDrone_single
  case credit                => exact free id (by rintro ⟨_, _, hf⟩; exact hf.elim)
  case debit                 => exact free id (by rintro ⟨_, _, hf⟩; exact hf.elim)
  case grantReferralReward   => exact free id (by rintro ⟨_, _, hf⟩; exact hf.elim)
  case redeem                => exact free id (by rintro ⟨_, _, hf⟩; exact hf.elim)
  case passTime              => exact single id <| Single.stmt trivial

theorem valid {pol : Policy Stmt.sig Store Call} :
    (callOutline P).Valid (system P) pol Store.Initial where
  rely_refl _ w         := .refl w
  rely_trans h₁ h₂      := h₁.trans h₂
  post_stable hr h hs   := (h hs).mono hr
  inv_init h            := ⟨by simp [h.commands], by simp [h.commands], by simp [h.commands]⟩
  spawn _ _ _           := spawn
  inv_step _ hi hx      := hi.exec hx
  rely_step _ _ hx _    := .exec (Stmt.Warranted.lawful hx)
  pre_step _ _ hx _ _ h := Stmt.Warranted.mono h <| .exec (Stmt.Warranted.lawful hx)

end callOutline

end Drovery
