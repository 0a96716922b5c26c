import Drovery.Services.Coalescer

namespace Table

variable {κ ρ : Type} [DecidableEq κ] {t : Table κ ρ} {k : κ}

-- There is at most one row with a given key.
theorem filter_rows : t.rows.filter (·.fst = k) = (t.find? k).toList.map (k, ·) := by
  obtain ⟨rows, nodup⟩ := t
  induction rows
  case nil => rfl
  case cons row rows ih =>
    have ⟨hn, nodup⟩ := List.nodup_cons.mp nodup
    have ih := ih nodup
    obtain ⟨k', r⟩ := row
    by_cases hk : k' = k
    case neg =>
      rw [List.filter_cons_of_neg (by simpa using hk), ih]
      simp [find?, findFirst, hk]
    case pos =>
      subst hk
      have hr : rows.filter (·.fst = k') = [] := by
        refine List.filter_eq_nil_iff.mpr fun row hm he => hn ?_
        have hm := List.mem_map_of_mem (f := Prod.fst) hm
        rwa [of_decide_eq_true he] at hm
      rw [List.filter_cons_of_pos (by simp), hr]
      simp [find?, findFirst]

end Table

namespace Drovery.PositionCoalescer

variable {α : Type}

-- The frames that are handed over by the operations.
def submitted (ops : List (Op α)) : List (TrackingUpdatePayload α) :=
  ops.filterMap fun
    | .submit payload => some payload
    | _               => none

-- The frames of one delivery, and those that carry a status.
abbrev own (D : DeliveryId) (ps : List (TrackingUpdatePayload α)) :
    List (TrackingUpdatePayload α) :=
  ps.filter (·.deliveryId = D)

abbrev transitions (ps : List (TrackingUpdatePayload α)) : List (TrackingUpdatePayload α) :=
  ps.filter (·.status.isSome)

-- The operation does not concern the delivery `D`.
def Op.Spares (D : DeliveryId) : Op α → Prop
  | .submit payload => payload.deliveryId ≠ D
  | _               => False

-- Only positions are buffered, under their delivery.
def Filed (c : PositionCoalescer α) : Prop :=
  ∀ D p, c.buffer.find? D = some p → p.deliveryId = D ∧ p.status = none

section

variable {c : PositionCoalescer α} {D : DeliveryId} {p : TrackingUpdatePayload α} {op : Op α}
variable {ops : List (Op α)} {hz : ℚ}

theorem active_new : (new hz : PositionCoalescer α).active ↔ 0 < hz := by
  simp only [active, new]
  split
  case isTrue h  => simp [h]
  case isFalse h => simp [h]

theorem submit_of_status (h : p.status.isSome) :
    c.submit p = ([p], { c with buffer := c.buffer.erase p.deliveryId }) := by
  rw [submit, if_pos (.inr h)]

theorem submit_of_inactive (h : ¬c.active) :
    c.submit p = ([p], { c with buffer := c.buffer.erase p.deliveryId }) := by
  rw [submit, if_pos (.inl (by simpa using h))]

@[simp]
theorem flush_buffer : c.flush.snd.buffer = .empty :=
  rfl

@[simp]
theorem stop_fst : c.stop.fst = c.flush.fst :=
  rfl

@[simp]
theorem stop_buffer : c.stop.snd.buffer = .empty :=
  rfl

@[simp]
theorem ensureTimer_buffer : c.ensureTimer.buffer = c.buffer := by
  unfold ensureTimer; split <;> rfl

theorem submit_buffered (ha : c.active) (hs : p.status = none) :
    (c.submit p).fst = [] ∧
      (c.submit p).snd.buffer = c.buffer.upsert p.deliveryId p fun _ => p := by
  rw [submit, if_neg (by simp [ha, hs])]
  exact ⟨rfl, ensureTimer_buffer⟩

@[simp]
theorem active_exec : (op.exec c).snd.active = c.active := by
  have timer (c : PositionCoalescer α) : c.ensureTimer.active = c.active := by
    unfold ensureTimer; split <;> rfl
  cases op
  case flush => rfl
  case stop  => rfl
  case submit p =>
    simp only [Op.exec, submit]
    split
    case isTrue  => rfl
    case isFalse => exact timer _

-- A frame is either emitted, and its delivery has no frame in the buffer any more, or buffered.
theorem submit_cases (c : PositionCoalescer α) (p : TrackingUpdatePayload α) :
    ((c.submit p).fst = [p] ∧ (¬c.active ∨ p.status.isSome) ∧
      (c.submit p).snd.buffer = c.buffer.erase p.deliveryId) ∨
    ((c.submit p).fst = [] ∧ p.status = none ∧
      (c.submit p).snd.buffer = c.buffer.upsert p.deliveryId p fun _ => p) := by
  by_cases ha : c.active
  case neg => exact .inl <| submit_of_inactive (p := p) ha ▸ ⟨rfl, .inl ha, rfl⟩
  case pos =>
    cases hs : p.status
    case none   => exact .inr ⟨(submit_buffered ha hs).left, rfl, (submit_buffered ha hs).right⟩
    case some s =>
      have hs : p.status.isSome := by simp [hs]
      exact .inl <| submit_of_status (c := c) hs ▸ ⟨rfl, .inr rfl, rfl⟩

namespace Filed

theorem new : (new hz : PositionCoalescer α).Filed :=
  fun _ _ h => nomatch h

theorem exec (h : c.Filed) (op : Op α) : (op.exec c).snd.Filed := by
  intro D p hf
  cases op
  case flush => exact nomatch hf
  case stop  => exact nomatch hf
  case submit q =>
    obtain ⟨_, _, hb⟩ | ⟨_, hs, hb⟩ := c.submit_cases q
    case inl =>
      rw [Op.exec, hb] at hf
      exact h D p <| Table.find?_erase_eq_some hf
    case inr =>
      rw [Op.exec, hb, Table.find?_upsert] at hf
      split at hf
      case isFalse => exact h D p hf
      case isTrue he =>
        obtain rfl : q = p := by
          cases hq : c.buffer.find? q.deliveryId <;> rw [hq] at hf <;> exact Option.some.inj hf
        exact ⟨he.symm, hs⟩

-- A flush emits the frame of every delivery that is in the buffer.
theorem own_flush (h : c.Filed) : own D c.flush.fst = (c.buffer.find? D).toList := by
  have key : c.buffer.rows.filter ((fun p => decide (p.deliveryId = D)) ∘ Prod.snd) =
      c.buffer.rows.filter (·.fst = D) := by
    refine List.filter_congr fun (E, p) hm => ?_
    have ⟨he, _⟩ := h E p <| Table.find?_eq_some_iff.mpr hm
    simp [he]
  rw [flush, own, List.filter_map, key, Table.filter_rows, List.map_map]
  exact List.map_id _

theorem transitions_flush (h : c.Filed) : transitions c.flush.fst = [] := by
  refine List.filter_eq_nil_iff.mpr fun p hp => ?_
  have ⟨(D, q), hm, he⟩ := List.mem_map.mp hp
  have ⟨_, hs⟩ := h D q <| Table.find?_eq_some_iff.mpr hm
  simp [← he, hs]

-- Of the frames of a delivery that were in the buffer or are handed over, one operation emits some and
-- keeps some, in their order.
theorem own_exec (h : c.Filed) (D : DeliveryId) (op : Op α) :
    (own D (op.exec c).fst ++ ((op.exec c).snd.buffer.find? D).toList).Sublist
      ((c.buffer.find? D).toList ++ own D (submitted [op])) := by
  cases op
  case flush => simp [Op.exec, submitted, h.own_flush]
  case stop  => simp [Op.exec, submitted, h.own_flush]
  case submit p =>
    obtain ⟨he, _, hb⟩ | ⟨he, _, hb⟩ := c.submit_cases p
    case inl =>
      by_cases hD : p.deliveryId = D
      case pos => simp [Op.exec, he, hb, submitted, hD, Table.find?_erase]
      case neg => simp [Op.exec, he, hb, submitted, hD, Table.find?_erase, Ne.symm hD]
    case inr =>
      by_cases hD : p.deliveryId = D
      case pos =>
        cases hf : c.buffer.find? D <;> simp [Op.exec, he, hb, submitted, hD, Table.find?_upsert, hf]
      case neg => simp [Op.exec, he, hb, submitted, hD, Table.find?_upsert, Ne.symm hD]

theorem transitions_exec (h : c.Filed) (op : Op α) :
    transitions (op.exec c).fst = transitions (submitted [op]) := by
  cases op
  case flush => exact h.transitions_flush
  case stop  => exact h.transitions_flush
  case submit p =>
    obtain ⟨he, _⟩ | ⟨he, hs, _⟩ := c.submit_cases p
    case inl => simp [Op.exec, he, submitted]
    case inr => simp [Op.exec, he, submitted, hs]

end Filed

theorem submitted_cons : submitted (op :: ops) = submitted [op] ++ submitted ops :=
  List.filterMap_append (l := [op])

theorem run_cons : c.run (op :: ops) =
    ((op.exec c).fst ++ ((op.exec c).snd.run ops).fst, ((op.exec c).snd.run ops).snd) :=
  rfl

theorem run_append {pre post : List (Op α)} :
    (c.run (pre ++ post)).snd = ((c.run pre).snd.run post).snd := by
  induction pre generalizing c
  case nil => rfl
  case cons op pre ih => exact ih

-- The same over a whole run.
theorem Filed.run (h : c.Filed) (ops : List (Op α)) : (c.run ops).snd.Filed := by
  induction ops generalizing c
  case nil => exact h
  case cons op ops ih => exact ih <| h.exec op

theorem Filed.own_run (h : c.Filed) (D : DeliveryId) (ops : List (Op α)) :
    (own D (c.run ops).fst ++ ((c.run ops).snd.buffer.find? D).toList).Sublist
      ((c.buffer.find? D).toList ++ own D (submitted ops)) := by
  induction ops generalizing c
  case nil => simp [PositionCoalescer.run, submitted]
  case cons op ops ih =>
    have hops := (List.append_sublist_append_left (own D (op.exec c).fst)).mpr <| ih <| h.exec op
    have hop := (List.append_sublist_append_right (own D (submitted ops))).mpr <| h.own_exec D op
    rw [List.append_assoc, List.append_assoc] at hop
    rw [run_cons, submitted_cons, own, own, List.filter_append, List.filter_append,
      List.append_assoc]
    exact hops.trans hop

theorem Filed.transitions_run (h : c.Filed) (ops : List (Op α)) :
    transitions (c.run ops).fst = transitions (submitted ops) := by
  induction ops generalizing c
  case nil => rfl
  case cons op ops ih =>
    rw [run_cons, submitted_cons, transitions, transitions, List.filter_append, List.filter_append]
    exact congrArg₂ _ (h.transitions_exec op) <| ih <| h.exec op

-- The operations that do not concern a delivery leave its frame in the buffer.
theorem find?_run (ha : c.active) (h : ∀ op ∈ ops, op.Spares D) :
    (c.run ops).snd.buffer.find? D = c.buffer.find? D := by
  induction ops generalizing c
  case nil => rfl
  case cons op ops ih =>
    have ⟨ho, hs⟩ := List.forall_mem_cons.mp h
    refine (ih (active_exec.trans ha) hs).trans ?_
    cases op
    case flush => exact ho.elim
    case stop  => exact ho.elim
    case submit p =>
      obtain ⟨_, _, hb⟩ | ⟨_, _, hb⟩ := c.submit_cases p
      case inl => rw [Op.exec, hb, Table.find?_erase, if_neg ho.symm]
      case inr => rw [Op.exec, hb, Table.find?_upsert, if_neg ho.symm]

-- A coalescer that is not active has nothing in its buffer and lets everything through.
theorem exec_inactive (ha : ¬c.active) (hb : c.buffer.rows = []) :
    (op.exec c).fst = submitted [op] ∧ (op.exec c).snd.buffer.rows = [] := by
  cases op
  case flush => exact ⟨congrArg (List.map _) hb, rfl⟩
  case stop  => exact ⟨congrArg (List.map _) hb, rfl⟩
  case submit p =>
    rw [Op.exec, submit_of_inactive ha]
    exact ⟨rfl, by simp [Table.erase, hb]⟩

theorem run_inactive (ha : ¬c.active) (hb : c.buffer.rows = []) :
    (c.run ops).fst = submitted ops := by
  induction ops generalizing c
  case nil => rfl
  case cons op ops ih =>
    have ⟨he, hb⟩ := @exec_inactive _ _ op ha hb
    have ha : ¬(op.exec c).snd.active := by rwa [active_exec]
    rw [run_cons, submitted_cons, he, ih ha hb]

-- A frame that is in the buffer is emitted by the next flush, for which there is a timer.
theorem timer_exec (h : c.buffer.rows ≠ [] → c.timer) :
    (op.exec c).snd.buffer.rows ≠ [] → (op.exec c).snd.timer := by
  cases op
  case flush => exact fun hn => absurd rfl hn
  case stop  => exact fun hn => absurd rfl hn
  case submit p =>
    intro hn
    simp only [Op.exec, submit] at hn ⊢
    split
    case isTrue hi =>
      rw [if_pos hi] at hn
      refine h fun he => hn ?_
      simp [Table.erase, he]
    case isFalse hi =>
      have ha : c.active := by simpa using (not_or.mp hi).left
      have ha : ¬(!c.active) := by simpa using ha
      simp only [ensureTimer]
      split
      case isTrue ht => exact ht.resolve_right ha
      case isFalse   => rfl

theorem timer_run (ops : List (Op α)) :
    ((new hz : PositionCoalescer α).run ops).snd.buffer.rows ≠ [] →
      ((new hz : PositionCoalescer α).run ops).snd.timer := by
  have run {c : PositionCoalescer α} (h : c.buffer.rows ≠ [] → c.timer) :
      (c.run ops).snd.buffer.rows ≠ [] → (c.run ops).snd.timer := by
    induction ops generalizing c
    case nil => exact h
    case cons op ops ih => exact ih <| timer_exec h
  exact run fun hn => absurd rfl hn

end

-- What the subscribers rely on.
structure Preserves [DecidableEq α] (hz : ℚ) (ops : List (Op α)) : Prop where
  -- A transition is emitted at once, and the transitions are emitted in order.
  atOnce : ∀ pre p post, ops = pre ++ .submit p :: post → p.status.isSome →
    (((new hz).run pre).snd.submit p).fst = [p]
  inOrder : transitions ((new hz).run ops).fst = transitions (submitted ops)
  -- The frames of each delivery are emitted in order.
  subsequence : ∀ D, (own D ((new hz).run ops).fst).Sublist (own D (submitted ops))
  -- What is emitted after a transition of the same delivery has been submitted after it.
  superseded : ∀ pre p post, ops = pre ++ .submit p :: post → p.status.isSome →
    (own p.deliveryId ((((new hz).run pre).snd.submit p).snd.run post).fst).Sublist
      (own p.deliveryId (submitted post))
  -- The latest position of a delivery is emitted by the next flush.
  latest : ∀ pre p mid, ops = pre ++ .submit p :: mid → p.status = none →
    (∀ op ∈ mid, op.Spares p.deliveryId) → 0 < hz →
    own p.deliveryId ((new hz).run ops).snd.flush.fst = [p] ∧
      own p.deliveryId ((new hz).run ops).snd.stop.fst = [p]
  -- There is a timer for that flush.
  due : ((new hz).run ops).snd.buffer.rows ≠ [] → ((new hz).run ops).snd.timer
  -- No frame is emitted more often than it has been submitted.
  once : ∀ p, ((new hz).run ops).fst.count p ≤ (submitted ops).count p
  passThrough : hz ≤ 0 → ((new hz).run ops).fst = submitted ops

theorem filed_run (hz : ℚ) (ops : List (Op α)) :
    ((new hz : PositionCoalescer α).run ops).snd.Filed :=
  Filed.new.run ops

theorem own_run_sublist (hz : ℚ) (D : DeliveryId) (ops : List (Op α)) :
    (own D ((new hz).run ops).fst).Sublist (own D (submitted ops)) :=
  (List.sublist_append_left ..).trans <| Filed.new.own_run D ops

theorem own_run_superseded {c : PositionCoalescer α} {p : TrackingUpdatePayload α} (h : c.Filed)
    (hs : p.status.isSome) (post : List (Op α)) :
    (own p.deliveryId ((c.submit p).snd.run post).fst).Sublist
      (own p.deliveryId (submitted post)) := by
  have ho := (List.sublist_append_left ..).trans <| (h.exec (.submit p)).own_run p.deliveryId post
  have hb : (c.submit p).snd.buffer.find? p.deliveryId = none := by
    rw [submit_of_status hs, Table.find?_erase, if_pos rfl]
  rwa [Op.exec, hb] at ho

theorem own_flush_latest {c : PositionCoalescer α} {p : TrackingUpdatePayload α} {mid : List (Op α)}
    (h : c.Filed) (ha : c.active) (hs : p.status = none) (hm : ∀ op ∈ mid, op.Spares p.deliveryId) :
    own p.deliveryId ((c.submit p).snd.run mid).snd.flush.fst = [p] := by
  have hb : (c.submit p).snd.buffer.find? p.deliveryId = some p := by
    rw [(submit_buffered ha hs).right, Table.find?_upsert, if_pos rfl]
    cases c.buffer.find? p.deliveryId <;> rfl
  have ha : (c.submit p).snd.active := (@active_exec _ _ (.submit p)).trans ha
  have hf := (h.exec (.submit p)).run mid
  rw [Op.exec] at hf
  rw [hf.own_flush, find?_run ha hm, hb]
  rfl

theorem active_run {c : PositionCoalescer α} (ops : List (Op α)) :
    (c.run ops).snd.active = c.active := by
  induction ops generalizing c
  case nil => rfl
  case cons op ops ih => exact ih.trans active_exec

-- At every rate and for all operations, the coalescer preserves what the subscribers rely on.
theorem preserves [DecidableEq α] (hz : ℚ) (ops : List (Op α)) : Preserves hz ops where
  atOnce pre p post _ hs := congrArg Prod.fst <| submit_of_status hs
  inOrder                := Filed.new.transitions_run ops
  subsequence D          := own_run_sublist hz D ops
  superseded pre p post _ hs := own_run_superseded (filed_run hz pre) hs post
  latest pre p mid he hs hm hpos := by
    have ha : ((new hz : PositionCoalescer α).run pre).snd.active :=
      (active_run pre).trans <| active_new.mpr hpos
    have hf := own_flush_latest (filed_run hz pre) ha hs hm
    rw [he, run_append]
    exact ⟨hf, hf⟩
  due := timer_run ops
  once p := by
    have hc (ps : List (TrackingUpdatePayload α)) : ps.count p = (own p.deliveryId ps).count p :=
      (List.count_filter (by simp)).symm
    rw [hc, hc (submitted ops)]
    exact (own_run_sublist hz p.deliveryId ops).count_le p
  passThrough h := run_inactive (active_new.not.mpr h.not_gt) rfl

end Drovery.PositionCoalescer
