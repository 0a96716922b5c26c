import Drovery.Services.Partitions

namespace Drovery.Partitions

open Calendar (monthStart monthOfDay msPerDay monthStart_strictMono monthOfDay_eq_iff)
open Decimal (pad value IsNumeral)

-- The months that an operation brings in satisfy `p`.
def Op.Within (p : Int → Prop) : Op → Prop
  | .insert t       => p (monthOf t)
  | .attachMonth m  => p m
  | .drainDefault _ => True
  | .dropOld ..     => True

-- The first month of the Common Era, whose months can be told apart by the names of their leaves.
def commonEra : Int := 12

abbrev Op.CommonEra : Op → Prop :=
  Op.Within (commonEra ≤ ·)

-- Every row that no `drop_old` was allowed to remove is in the table once.
def Present (db : Store) (ops : List Op) : Prop :=
  ∀ before t after, ops = before ++ .insert t :: after →
    (∀ now retainMonths order, .dropOld now retainMonths order ∈ after →
      ∀ cutoff ∈ Store.cutoff now retainMonths, cutoff ≤ monthOf t) →
    (db.run ops).rows.count ⟨(db.run before).next, t⟩ = 1

-- Rows are only absent because of leaves before the cutoff that have been removed, and that are
-- related to them by `p`.
def Absent (db : Store) (ops : List Op) (p : Store → Leaf String Instant Row → Row → Prop) : Prop :=
  ∀ before t after, ops = before ++ .insert t :: after →
    ⟨(db.run before).next, t⟩ ∉ (db.run ops).rows →
    ∃ between now retainMonths order rest,
      after = between ++ .dropOld now retainMonths order :: rest ∧
      let held    := db.run <| before ++ .insert t :: between
      let dropped := held.step <| .dropOld now retainMonths order
      ∃ l ∈ held.parts.leaves, p held l ⟨(db.run before).next, t⟩ ∧ l.name ∉ dropped.parts.names ∧
        ∃ cutoff ∈ Store.cutoff now retainMonths, l.hi ≤ start cutoff

def Attached (db : Store) (ops : List Op) : Prop :=
  ∀ before op after, ops = before ++ op :: after →
    (db.run before).exec op ≠ .error .defaultHoldsRow

-- The default partition is drained in every store with the property `p`.
def Drained (db : Store) (ops : List Op) (p : Store → Prop) : Prop :=
  ∀ before order after, ops = before ++ .drainDefault order :: after → p (db.run before) →
    ((db.run before).step <| .drainDefault order).parts.default = []

-- What the maintenance of a table guarantees for the rows that have been inserted.
structure Lossless (db : Store) (ops : List Op)
    (removes : Store → Leaf String Instant Row → Row → Prop) (free : Store → Prop) : Prop where
  present  : Present db ops
  absent   : Absent db ops removes
  attached : Attached db ops
  drained  : Drained db ops free

def Holds (_ : Store) (l : Leaf String Instant Row) (row : Row) : Prop :=
  row ∈ l.rows

-- With inbound references the rows of the month that the name of a leaf stands for are deleted.
def HoldsOrNames (db : Store) (l : Leaf String Instant Row) (row : Row) : Prop :=
  row ∈ l.rows ∨ db.hasRefs ∧ l.name = childName db.table (monthOf row.key)

-- No relation that is not attached has the name of a leaf that is needed.
def Untaken (db : Store) : Prop :=
  ∀ row ∈ db.parts.default, childName db.table (monthOf row.key) ∉ db.others

-- The leaves that are needed have names of their own.
structure Unshared (db : Store) : Prop where
  others : Untaken db
  leaves : ∀ row ∈ db.parts.default, childName db.table (monthOf row.key) ∉ db.parts.names
  months : ∀ row ∈ db.parts.default, ∀ row' ∈ db.parts.default,
    childName db.table (monthOf row.key) = childName db.table (monthOf row'.key) →
      monthOf row.key = monthOf row'.key

section

variable {m m' : Int} {t : Instant} {row : Row} {table : String}

theorem start_strictMono : StrictMono start := by
  intro m m' h
  have := monthStart_strictMono h
  simp only [start, msPerDay, Instant]
  omega

theorem monthOf_eq_iff : monthOf t = m ↔ start m ≤ t ∧ t < start (m + 1) := by
  rw [monthOf, monthOfDay_eq_iff]
  simp only [start, msPerDay, Instant]
  omega

theorem inMonth_iff : inMonth m row ↔ monthOf row.key = m :=
  decide_eq_true_iff.trans monthOf_eq_iff.symm

theorem lt_of_lt_start (h : t < start m) : monthOf t < m := by
  have ⟨h', _⟩ := monthOf_eq_iff.mp <| @rfl _ (monthOf t)
  exact start_strictMono.lt_iff_lt.mp <| h'.trans_lt h

theorem toNat_displayYear (h : commonEra ≤ m) : ((displayYear (m / 12)).toNat : Int) = m / 12 := by
  have h : 12 ≤ m := h
  rw [displayYear, if_pos <| by omega]
  omega

theorem length_pad_month : (pad 2 (m % 12 + 1).toNat).length = 2 :=
  Decimal.length_pad_iff (by decide) |>.mpr (by omega)

-- Names tell the months of the Common Era apart.
theorem childName_inj (h : commonEra ≤ m) (h' : commonEra ≤ m')
    (he : childName table m = childName table m') : m = m' := by
  have := toNat_displayYear h
  have := toNat_displayYear h'
  have he := String.ofList_injective he
  simp only [List.append_assoc, List.append_cancel_left_eq] at he
  have ⟨hy, hm⟩ := List.append_inj' he (by simp [length_pad_month])
  have hy := Decimal.pad_injective hy
  have hm := Decimal.pad_injective (List.cons.inj hm).right
  omega

theorem childMonth_eq_some {child : String} (h : childMonth table child = some m) :
    ∃ year month, child.toList = table.toList ++ ['_', 'y'] ++ year ++ 'm' :: month ∧
      month.length = 2 ∧ m = 12 * value year + (value month - 1) := by
  dsimp only [childMonth] at h
  split at h
  case isFalse   => contradiction
  case isTrue hc => exact ⟨_, _, hc.left, hc.right.right.left, (Option.some.inj h).symm⟩

-- The name of a leaf stands for its month or, as it does not show the era, for a later one.
theorem childMonth_childName (hm : childMonth table (childName table m) = some m') :
    m ≤ m' ∧ childName table m = childName table m' := by
  have ⟨year, month, he, hl, hm'⟩ := childMonth_eq_some hm
  simp only [childName, String.toList_ofList, List.append_assoc, List.append_cancel_left_eq] at he
  have ⟨hy, hm⟩ := List.append_inj' he (by simp [length_pad_month, hl])
  rw [← hy, ← (List.cons.inj hm).right, Decimal.value_pad, Decimal.value_pad] at hm'
  have hd : m / 12 ≤ displayYear (m / 12) ∧ 1 ≤ displayYear (m / 12) := by
    unfold displayYear
    split <;> omega
  have hyear : m' / 12 = displayYear (m / 12) := by omega
  have hmonth : m' % 12 = m % 12 := by omega
  have hsame : displayYear (m' / 12) = displayYear (m / 12) := by
    rw [hyear, displayYear, if_pos <| by omega]
  refine ⟨by omega, ?_⟩
  rw [childName, childName, hsame, hmonth]

end

namespace Store

-- All leaves and rows belong to months that satisfy `p`.
structure Sound (p : Int → Prop) (db : Store) : Prop where
  leaves : ∀ l ∈ db.parts.leaves, ∃ m, p m ∧ l.name = childName db.table m ∧
    l.lo = start m ∧ l.hi = start (m + 1)
  rows   : ∀ row ∈ db.rows, p (monthOf row.key) ∧ row.id < db.next
  nodup  : db.rows.Nodup

-- The table has the same rows in other partitions.
structure Relocated (db db' : Store) : Prop where
  table   : db'.table = db.table
  hasRefs : db'.hasRefs = db.hasRefs
  others  : db'.others = db.others
  next    : db'.next = db.next
  rows    : db'.rows.Perm db.rows
  default : ∀ row ∈ db'.parts.default, row ∈ db.parts.default

-- The rows that have been removed belong to months before the cutoff, and so do the leaves.
structure Purged (db db' : Store) (cutoff : Int) : Prop where
  table   : db'.table = db.table
  hasRefs : db'.hasRefs = db.hasRefs
  next    : db'.next = db.next
  leaves  : ∀ l' ∈ db'.parts.leaves, ∃ l ∈ db.parts.leaves, l.name = l'.name ∧ l.lo = l'.lo ∧
    l.hi = l'.hi ∧ ∀ row ∈ l'.rows, row ∈ l.rows
  rows    : db'.rows.Sublist db.rows
  gone    : ∀ row ∈ db.rows, row ∉ db'.rows → monthOf row.key < cutoff ∧
    ∃ l ∈ db.parts.leaves, HoldsOrNames db l row ∧ l.name ∉ db'.parts.names ∧ l.hi ≤ start cutoff

variable {p : Int → Prop}
variable {db db' db'' : Store} {m cutoff : Int} {row : Row} {t : Instant}

theorem Relocated.refl : Relocated db db :=
  ⟨rfl, rfl, rfl, rfl, .refl _, fun _ => id⟩

theorem Relocated.trans (h : Relocated db db') (h' : Relocated db' db'') : Relocated db db'' where
  table          := h'.table.trans h.table
  hasRefs        := h'.hasRefs.trans h.hasRefs
  others         := h'.others.trans h.others
  next           := h'.next.trans h.next
  rows           := h'.rows.trans h.rows
  default row hr := h.default row <| h'.default row hr

theorem Relocated.sound (hr : Relocated db db') (h : db.Sound p)
    (hl : ∀ l ∈ db'.parts.leaves, l ∈ db.parts.leaves ∨ ∃ m, p m ∧
      l.name = childName db.table m ∧ l.lo = start m ∧ l.hi = start (m + 1)) : db'.Sound p where
  leaves l hl' := hr.table ▸ (hl l hl').elim (h.leaves l) id
  rows row hrow := hr.next ▸ h.rows row <| hr.rows.mem_iff.mp hrow
  nodup := hr.rows.nodup_iff.mpr h.nodup

-- A month without a leaf overlaps no leaf.
theorem Sound.not_overlaps (h : db.Sound p)
    (hn : childName db.table m ∉ db.parts.names) {l l' : Leaf String Instant Row}
    (hlo : l.lo = start m) (hhi : l.hi = start (m + 1)) (hl' : l' ∈ db.parts.leaves) :
    ¬l.Overlaps l' := by
  obtain ⟨m', _, hn', hlo', hhi'⟩ := h.leaves l' hl'
  intro ⟨h₁, h₂⟩
  have := start_strictMono.lt_iff_lt.mp <| hlo ▸ hhi' ▸ h₁
  have := start_strictMono.lt_iff_lt.mp <| hlo' ▸ hhi ▸ h₂
  have he : m = m' := by omega
  exact hn <| List.mem_map.mpr ⟨l', hl', he ▸ hn'⟩

-- The rows of a month only stay in the default partition if the name of its leaf is taken.
theorem attachMonth_spec (h : db.Sound p) (hm : p m) :
    ∃ attached db', db.attachMonth m = .ok (attached, db') ∧ db'.Sound p ∧ Relocated db db' ∧
      (∀ name ∈ db'.parts.names, name ∈ db.parts.names ∨ name = childName db.table m) ∧
      ∀ row ∈ db'.parts.default, monthOf row.key = m →
        childName db.table m ∈ db.parts.names ∨ childName db.table m ∈ db.others := by
  unfold attachMonth
  dsimp only
  split
  case isTrue he => exact ⟨_, _, rfl, h, .refl, fun _ => .inl, fun _ _ _ => he⟩
  case isFalse he =>
    obtain ⟨free, hothers⟩ := not_or.mp he
    let parts := db.parts.deleteDefault (inMonth m)
    let l : Leaf String Instant Row :=
      ⟨childName db.table m, start m, start (m + 1), db.parts.default.filter (inMonth m)⟩
    have covers {row : Row} : l.Covers row.key ↔ inMonth m row := decide_eq_true_iff.symm
    have left {row : Row} (hr : row ∈ parts.default) : row ∈ db.parts.default ∧ ¬inMonth m row := by
      simpa [parts, Partitioned.deleteDefault] using hr
    obtain ⟨parts', ha, hleaves, hdefault⟩ := parts.attach_ok (l := l) free
      (start_strictMono <| Int.lt_succ m)
      (fun l' hl' => h.not_overlaps free rfl rfl hl')
      (fun row hr => mt covers.mp (left hr).right)
      (fun row hr => covers.mpr (List.mem_filter.mp hr).right)
    refine ⟨true, { db with parts := parts' }, by rw [ha]; rfl, ?_⟩
    have relocated : Relocated db { db with parts := parts' } := {
      table          := rfl
      hasRefs        := rfl
      others         := rfl
      next           := rfl
      rows           := (List.Perm.of_eq <| Partitioned.rows_attach ha).trans <|
        Partitioned.rows_deleteDefault
      default row hr := (left <| hdefault ▸ hr).left
    }
    refine ⟨relocated.sound h fun l' hl' => ?_, relocated, fun name hname => ?_,
      fun row hr hrow => ?_⟩
    case refine_1 =>
      cases List.mem_cons.mp <| hleaves ▸ hl'
      case inl he  => exact .inr ⟨m, hm, he ▸ ⟨rfl, rfl, rfl⟩⟩
      case inr hl' => exact .inl hl'
    case refine_2 =>
      obtain ⟨l', hl', rfl⟩ := List.mem_map.mp hname
      cases List.mem_cons.mp <| hleaves ▸ hl'
      case inl he  => exact .inr <| he ▸ rfl
      case inr hl' => exact .inl <| List.mem_map.mpr ⟨l', hl', rfl⟩
    case refine_3 => exact absurd (inMonth_iff.mpr hrow) (left <| hdefault ▸ hr).right

-- The name may also be taken by the leaf of another one of the months.
theorem attachMonths_spec (h : db.Sound p) {months : List Int} (hm : ∀ m ∈ months, p m) :
    ∃ created db', db.attachMonths months = .ok (created, db') ∧ db'.Sound p ∧ Relocated db db' ∧
      ∀ row ∈ db'.parts.default, monthOf row.key ∈ months →
        childName db.table (monthOf row.key) ∈ db.parts.names ∨
        childName db.table (monthOf row.key) ∈ db.others ∨
        ∃ m ∈ months, m ≠ monthOf row.key ∧
          childName db.table (monthOf row.key) = childName db.table m := by
  induction months generalizing db
  case nil => exact ⟨0, db, rfl, h, .refl, fun _ _ => nofun⟩
  case cons m months ih =>
    have ⟨hm, hms⟩ := List.forall_mem_cons.mp hm
    have ⟨attached, db₁, ha, h₁, r₁, hn₁, hd₁⟩ := attachMonth_spec h hm
    have ⟨created, db₂, ha', h₂, r₂, hd₂⟩ := ih h₁ hms
    refine ⟨if attached then created + 1 else created, db₂, ?_, h₂, r₁.trans r₂, ?_⟩
    case refine_1 =>
      rw [attachMonths, ha]
      dsimp only [bind, Except.bind]
      rw [ha']
      rfl
    case refine_2 =>
      intro row hr hrow
      by_cases he : monthOf row.key = m
      case pos => exact (hd₁ row (r₂.default row hr) he).imp (he ▸ ·) fun ho => .inl <| he ▸ ho
      case neg =>
        have hd := hd₂ row hr <| (List.mem_cons.mp hrow).resolve_left he
        rw [r₁.table, r₁.others] at hd
        obtain hname | ho | ⟨m', hm', hd⟩ := hd
        case inr.inl => exact .inr <| .inl ho
        case inr.inr => exact .inr <| .inr ⟨m', .tail _ hm', hd⟩
        case inl =>
          exact (hn₁ _ hname).imp_right fun hname => .inr ⟨m, .head _, Ne.symm he, hname⟩

theorem drainDefault_spec (h : db.Sound p) {order : Scan Int} :
    ∃ created db', db.drainDefault order = .ok (created, db') ∧ db'.Sound p ∧ Relocated db db' ∧
      (Unshared db → db'.parts.default = []) := by
  have months (m : Int) : m ∈ order.apply (db.parts.default.map (monthOf ·.key)).dedup ↔
      ∃ row ∈ db.parts.default, monthOf row.key = m := by
    rw [(order.perm _).mem_iff, List.mem_dedup, List.mem_map]
  have within (m : Int) (hm : m ∈ order.apply (db.parts.default.map (monthOf ·.key)).dedup) :
      p m := by
    have ⟨row, hr, hrow⟩ := months m |>.mp hm
    exact hrow ▸ (h.rows row <| Partitioned.mem_rows.mpr <| .inr hr).left
  have ⟨created, db', he, h', r, hd⟩ := attachMonths_spec h within
  refine ⟨created, db', he, h', r, fun hu => List.eq_nil_iff_forall_not_mem.mpr fun row hr => ?_⟩
  have hr₀ := r.default row hr
  obtain hn | ho | ⟨m, hm, hne, hname⟩ := hd row hr <| months _ |>.mpr ⟨row, hr₀, rfl⟩
  case inl     => exact hu.leaves row hr₀ hn
  case inr.inl => exact hu.others row hr₀ ho
  case inr.inr =>
    obtain ⟨row', hr', rfl⟩ := months m |>.mp hm
    exact hne (hu.months row hr₀ row' hr' hname).symm

theorem Purged.refl : Purged db db cutoff :=
  ⟨rfl, rfl, rfl, fun l hl => ⟨l, hl, rfl, rfl, rfl, fun _ => id⟩, .refl _,
    fun _ h hn => absurd h hn⟩

theorem Purged.sound (hp : Purged db db' cutoff) (h : db.Sound p) : db'.Sound p where
  leaves l' hl' := by
    obtain ⟨l, hl, hname, hlo, hhi, _⟩ := hp.leaves l' hl'
    exact hp.table ▸ hname ▸ hlo ▸ hhi ▸ h.leaves l hl
  rows row hrow := hp.next ▸ h.rows row (hp.rows.subset hrow)
  nodup         := h.nodup.sublist hp.rows

theorem Purged.names (h : Purged db db' cutoff) {name : String} (hn : name ∈ db'.parts.names) :
    name ∈ db.parts.names := by
  obtain ⟨l', hl', rfl⟩ := List.mem_map.mp hn
  obtain ⟨l, hl, he, _⟩ := h.leaves l' hl'
  exact List.mem_map.mpr ⟨l, hl, he⟩

theorem Purged.trans (h : Purged db db' cutoff) (h' : Purged db' db'' cutoff) :
    Purged db db'' cutoff where
  table   := h'.table.trans h.table
  hasRefs := h'.hasRefs.trans h.hasRefs
  next    := h'.next.trans h.next
  leaves l'' hl'' := by
    obtain ⟨l', hl', hname', hlo', hhi', hrows'⟩ := h'.leaves l'' hl''
    obtain ⟨l, hl, hname, hlo, hhi, hrows⟩ := h.leaves l' hl'
    exact ⟨l, hl, hname.trans hname', hlo.trans hlo', hhi.trans hhi',
      fun row hr => hrows row <| hrows' row hr⟩
  rows    := h'.rows.trans h.rows
  gone row hr hg := by
    by_cases hr' : row ∈ db'.rows
    case pos =>
      obtain ⟨hlt, l', hl', hp, hn, hc⟩ := h'.gone row hr' hg
      obtain ⟨l, hl, hname, _, hhi, hrows⟩ := h.leaves l' hl'
      refine ⟨hlt, l, hl, hp.imp (hrows row) ?_, hname ▸ hn, hhi ▸ hc⟩
      rw [hname, h.hasRefs, h.table]
      exact id
    case neg =>
      obtain ⟨hlt, l, hl, hp, hn, hc⟩ := h.gone row hr hr'
      exact ⟨hlt, l, hl, hp, fun hn' => hn <| h'.names hn', hc⟩

-- Only the rows of the leaf are removed, and with inbound references those of the month that its name
-- stands for.
theorem purged_drop (h : db.Sound p) {l : Leaf String Instant Row} (hl : l ∈ db.parts.leaves)
    (hm : childMonth db.table l.name = some m) (hc : m < cutoff) :
    Purged db { db with
      parts := (if db.hasRefs then db.parts.delete (inMonth m) else db.parts).drop l.name } cutoff := by
  obtain ⟨m', _, hname, hlo, hhi⟩ := h.leaves l hl
  obtain ⟨hle, hsame⟩ := childMonth_childName <| hname ▸ hm
  have before : l.hi ≤ start cutoff := hhi ▸ start_strictMono.le_iff_le.mpr (by omega)
  have held {row : Row} (hr : row ∈ l.rows) : monthOf row.key < cutoff :=
    lt_of_lt_start <| (db.parts.within l hl row hr).right.trans_le before
  have dropped {parts : Partitioned String Row.key} : l.name ∉ (parts.drop l.name).names :=
    fun hn => (Partitioned.mem_names_drop.mp hn).right rfl
  split
  case isFalse =>
    refine ⟨rfl, rfl, rfl, fun l' hl' => ⟨l', List.mem_of_mem_filter hl', rfl, rfl, rfl, fun _ => id⟩,
      Partitioned.rows_drop_sublist, fun row hr hg => ?_⟩
    have hr := (List.mem_append.mp <| (Partitioned.rows_drop hl).mem_iff.mpr hr).resolve_right hg
    exact ⟨held hr, l, hl, .inl hr, dropped, before⟩
  case isTrue hrefs =>
    have kept {row : Row} : row ∈ (db.parts.delete (inMonth m)).rows ↔
        row ∈ db.rows ∧ monthOf row.key ≠ m := by
      simp [Partitioned.rows_delete, rows, ← inMonth_iff]
    refine ⟨rfl, rfl, rfl, fun l' hl' => ?_, ?_, fun row hr hg => ?_⟩
    case refine_1 =>
      obtain ⟨l₀, hl₀, rfl⟩ := List.mem_map.mp <| List.mem_of_mem_filter hl'
      exact ⟨l₀, hl₀, rfl, rfl, rfl, fun row hr => List.mem_of_mem_filter hr⟩
    case refine_2 =>
      refine Partitioned.rows_drop_sublist.trans ?_
      rw [Partitioned.rows_delete]
      exact List.filter_sublist
    case refine_3 =>
      by_cases hr' : monthOf row.key = m
      case pos =>
        exact ⟨hr' ▸ hc, l, hl, .inr ⟨hrefs, hr' ▸ hname.trans hsame⟩, dropped, before⟩
      case neg =>
        have hl' : { l with rows := l.rows.filter (!inMonth m ·) } ∈
            (db.parts.delete (inMonth m)).leaves := List.mem_map.mpr ⟨l, hl, rfl⟩
        have hr := (List.mem_append.mp <|
          (Partitioned.rows_drop hl').mem_iff.mpr <| kept.mpr ⟨hr, hr'⟩).resolve_right hg
        have hr := List.mem_of_mem_filter hr
        exact ⟨held hr, l, hl, .inl hr, dropped, before⟩

theorem dropLeaves_spec (h : db.Sound p) {names : List String} (hd : names.Nodup)
    (hn : ∀ name ∈ names, name ∈ db.parts.names) :
    Purged db (db.dropLeaves cutoff names).snd cutoff := by
  induction names generalizing db
  case nil => exact .refl
  case cons child names ih =>
    have ⟨hc, hns⟩ := List.forall_mem_cons.mp hn
    have ⟨hnew, hds⟩ := List.nodup_cons.mp hd
    unfold dropLeaves
    split
    case h_1 => exact ih h hds hns
    case h_2 m hm =>
      split
      case isFalse => exact ih h hds hns
      case isTrue hlt =>
        obtain ⟨l, hl, rfl⟩ := List.mem_map.mp hc
        have purged := purged_drop h hl hm hlt
        refine purged.trans <| ih (purged.sound h) hds fun name hname => ?_
        have hne : name ≠ l.name := fun he => hnew <| he ▸ hname
        refine Partitioned.mem_names_drop.mpr ⟨?_, hne⟩
        split
        case isFalse => exact hns name hname
        case isTrue  => rw [Partitioned.names_delete]; exact hns name hname

theorem dropOld_spec (h : db.Sound p) {now : Instant} {retainMonths : Option Int}
    {order : Scan String} : (db.dropOld now retainMonths order).snd = db ∨
      ∃ c ∈ Store.cutoff now retainMonths, Purged db (db.dropOld now retainMonths order).snd c := by
  unfold dropOld
  split
  case h_1 => exact .inl rfl
  case h_2 c hc =>
    have perm := order.perm db.parts.names
    exact .inr ⟨c, hc, dropLeaves_spec h (perm.nodup_iff.mpr db.parts.named)
      fun _ hn => perm.mem_iff.mp hn⟩

theorem mem_rows_insert : row ∈ (db.insert t).rows ↔ row = ⟨db.next, t⟩ ∨ row ∈ db.rows :=
  Partitioned.rows_insert.mem_iff.trans List.mem_cons

theorem sound_insert (h : db.Sound p) (ht : p (monthOf t)) : (db.insert t).Sound p where
  leaves l hl := by
    have ⟨l', hl', he⟩ := List.mem_map.mp hl
    exact he ▸ h.leaves l' hl'
  rows row hr := by
    cases mem_rows_insert.mp hr
    case inl he => exact he ▸ ⟨ht, Nat.lt_succ_self _⟩
    case inr hr => exact ⟨(h.rows row hr).left, (h.rows row hr).right.trans <| Nat.lt_succ_self _⟩
  nodup := by
    refine Partitioned.rows_insert.nodup_iff.mpr <| List.nodup_cons.mpr ⟨fun hr => ?_, h.nodup⟩
    exact lt_irrefl _ (h.rows _ hr).right

-- What removes a row: a `drop_old` whose cutoff lies after the month of the row, together with a leaf.
def Removed (db : Store) (op : Op) (row : Row) : Prop :=
  ∃ now retainMonths order, op = .dropOld now retainMonths order ∧
    ∃ c ∈ Store.cutoff now retainMonths, monthOf row.key < c ∧
      ∃ l ∈ db.parts.leaves, HoldsOrNames db l row ∧ l.name ∉ (db.step op).parts.names ∧
        l.hi ≤ start c

theorem exec_ok (h : db.Sound p) {op : Op} (ho : op.Within p) :
    ∃ db', db.exec op = .ok db' ∧ db'.Sound p ∧
      ∀ row ∈ db.rows, row ∉ db'.rows → db.Removed op row := by
  cases op
  case insert t =>
    exact ⟨_, rfl, sound_insert h ho, fun row hr hn => absurd (mem_rows_insert.mpr <| .inr hr) hn⟩
  case attachMonth m =>
    have ⟨_, db', he, h', r, _⟩ := attachMonth_spec h ho
    exact ⟨db', by rw [exec, he]; rfl, h', fun row hr hn => absurd (r.rows.mem_iff.mpr hr) hn⟩
  case drainDefault order =>
    have ⟨_, db', he, h', r, _⟩ := @drainDefault_spec p db h order
    exact ⟨db', by rw [exec, he]; rfl, h', fun row hr hn => absurd (r.rows.mem_iff.mpr hr) hn⟩
  case dropOld now retainMonths order =>
    refine ⟨_, rfl, ?_⟩
    cases @dropOld_spec p db h now retainMonths order
    case inl he => exact he.symm ▸ ⟨h, fun row hr hn => absurd hr hn⟩
    case inr hp =>
      have ⟨c, hc, hp⟩ := hp
      refine ⟨hp.sound h, fun row hr hn => ⟨_, _, _, rfl, c, hc, ?_⟩⟩
      exact hp.gone row hr hn

theorem step_eq {op : Op} (h : db.exec op = .ok db') : db.step op = db' := by
  rw [step, h]

theorem sound_run (h : db.Sound p) {ops : List Op} (ho : ∀ op ∈ ops, op.Within p) :
    (db.run ops).Sound p := by
  induction ops generalizing db
  case nil => exact h
  case cons op ops ih =>
    have ⟨ho, hos⟩ := List.forall_mem_cons.mp ho
    have ⟨db', he, h', _⟩ := exec_ok h ho
    exact ih ((step_eq he).symm ▸ h') hos

theorem run_append {ops ops' : List Op} : db.run (ops ++ ops') = (db.run ops).run ops' :=
  List.foldl_append ..

-- A row that a run removes is removed by one of its operations.
theorem gone_of_run (h : db.Sound p) {ops : List Op} (ho : ∀ op ∈ ops, op.Within p)
    (hr : row ∈ db.rows) (hg : row ∉ (db.run ops).rows) :
    ∃ between op rest, ops = between ++ op :: rest ∧ row ∈ (db.run between).rows ∧
      (db.run between).Removed op row := by
  induction ops generalizing db
  case nil => exact absurd hr hg
  case cons op ops ih =>
    have ⟨ho, hos⟩ := List.forall_mem_cons.mp ho
    have ⟨db', he, h', hg'⟩ := exec_ok h ho
    have hs := step_eq he
    by_cases hr' : row ∈ db'.rows
    case neg => exact ⟨[], op, ops, rfl, hr, hg' row hr hr'⟩
    case pos =>
      have ⟨between, op', rest, hops, hl⟩ := ih (hs ▸ h') hos (hs ▸ hr') hg
      exact ⟨op :: between, op', rest, congrArg (op :: ·) hops, hl⟩

theorem sound_new {table : String} {hasRefs : Bool} {others : List String} :
    (new table hasRefs others).Sound p where
  leaves := List.forall_mem_nil _
  rows   := List.forall_mem_nil _
  nodup  := .nil

-- Among the months of the Common Era a leaf has the name of a month only if it covers it.
theorem Sound.covers_of_name (h : db.Sound (commonEra ≤ ·)) {l : Leaf String Instant Row}
    (hl : l ∈ db.parts.leaves) (hr : row ∈ db.rows)
    (hn : l.name = childName db.table (monthOf row.key)) : l.Covers row.key := by
  have ⟨m, hm, hn', hlo, hhi⟩ := h.leaves l hl
  have he := childName_inj (h.rows row hr).left hm <| hn.symm.trans hn'
  rw [Leaf.Covers, hlo, hhi]
  exact monthOf_eq_iff.mp he

theorem Sound.holds (h : db.Sound (commonEra ≤ ·)) {l : Leaf String Instant Row}
    (hl : l ∈ db.parts.leaves) (hr : row ∈ db.rows) (hp : HoldsOrNames db l row) :
    Holds db l row := by
  obtain hp | ⟨_, hn⟩ := hp
  case inl => exact hp
  case inr => exact Partitioned.mem_of_covers hr hl <| h.covers_of_name hl hr hn

theorem Sound.unshared (h : db.Sound (commonEra ≤ ·)) (hf : Untaken db) : Unshared db := by
  have mem {row : Row} (hr : row ∈ db.parts.default) : row ∈ db.rows :=
    Partitioned.mem_rows.mpr <| .inr hr
  refine ⟨hf, fun row hr hn => ?_, fun row hr row' hr' he => ?_⟩
  case refine_1 =>
    obtain ⟨l, hl, hn⟩ := List.mem_map.mp hn
    exact db.parts.rest row hr l hl <| h.covers_of_name hl (mem hr) hn
  case refine_2 => exact childName_inj (h.rows row <| mem hr).left (h.rows row' <| mem hr').left he

end Store

section

variable {db : Store} {ops : List Op} {p : Int → Prop}
variable {removes : Store → Leaf String Instant Row → Row → Prop} {free : Store → Prop}

theorem removed_of_sound (h : db.Sound p) {before after : List Op} {t : Instant}
    (ho : ∀ op ∈ before ++ .insert t :: after, op.Within p)
    (hg : ⟨(db.run before).next, t⟩ ∉ (db.run (before ++ .insert t :: after)).rows) :
    ∃ between op rest, after = between ++ op :: rest ∧
      let held := db.run <| before ++ .insert t :: between
      held.Sound p ∧ ⟨(db.run before).next, t⟩ ∈ held.rows ∧
        held.Removed op ⟨(db.run before).next, t⟩ := by
  have run {ops : List Op} : db.run (before ++ .insert t :: ops) =
      ((db.run before).insert t).run ops := Store.run_append
  have ⟨hb, ha⟩ := List.forall_mem_append.mp ho
  have ⟨ht, ha⟩ := List.forall_mem_cons.mp ha
  have hr : ⟨(db.run before).next, t⟩ ∈ ((db.run before).insert t).rows :=
    Store.mem_rows_insert.mpr <| .inl rfl
  have hs := Store.sound_insert (Store.sound_run h hb) ht
  simp only [run] at hg ⊢
  obtain ⟨between, op, rest, he, hr⟩ := Store.gone_of_run hs ha hr hg
  refine ⟨between, op, rest, he, Store.sound_run hs fun op' ho' => ha op' ?_, hr⟩
  exact he ▸ List.mem_append_left _ ho'

-- It suffices to relate the rows to the leaves, and to find the names of the leaves free.
theorem lossless_of_sound (h : db.Sound p) (ho : ∀ op ∈ ops, op.Within p)
    (hl : ∀ {db l row}, Store.Sound p db → l ∈ db.parts.leaves → row ∈ db.rows →
      HoldsOrNames db l row → removes db l row)
    (hf : ∀ {db}, Store.Sound p db → free db → Unshared db) : Lossless db ops removes free where
  present before t after he hc := by
    refine List.count_eq_one_of_mem (Store.sound_run h ho).nodup <| by_contra fun hg => ?_
    subst he
    have ⟨between, op, rest, ha, _, _, now, retainMonths, order, hop, cutoff, hcut, hlt, _⟩ :=
      removed_of_sound h ho hg
    subst ha hop
    exact absurd (hc now retainMonths order (by simp) cutoff hcut) <| not_le.mpr hlt
  absent before t after he hg := by
    subst he
    have ⟨between, op, rest, ha, hs, hr, now, retainMonths, order, hop, cutoff, hcut, _, l, hm, hp,
      hn, hhi⟩ := removed_of_sound h ho hg
    subst hop
    exact ⟨between, now, retainMonths, order, rest, ha, l, hm, hl hs hm hr hp, hn, cutoff, hcut, hhi⟩
  attached before op after he hf := by
    subst he
    have ⟨hb, ha⟩ := List.forall_mem_append.mp ho
    have ⟨_, hok, _⟩ := Store.exec_ok (Store.sound_run h hb) (List.forall_mem_cons.mp ha).left
    exact nomatch hf.symm.trans hok
  drained before order after he hfree := by
    subst he
    have h' := Store.sound_run h (List.forall_mem_append.mp ho).left
    have ⟨_, _, hd, _, _, hrest⟩ := @Store.drainDefault_spec p _ h' order
    rw [Store.step_eq <| by rw [Store.exec, hd]; rfl]
    exact hrest <| hf h' hfree

end

-- The maintenance of a new table loses no row, and none of its steps fails. In the Common Era it is
-- always the leaf of a row with which it is removed, and leaves do not get into each other's way.
theorem lossless_of_new {table : String} {hasRefs : Bool} {others : List String} {ops : List Op} :
    let db := Store.new table hasRefs others
    Lossless db ops HoldsOrNames Unshared ∧
    ((∀ op ∈ ops, op.CommonEra) → Lossless db ops Holds Untaken) ∧
    ∀ before op after, ops = before ++ op :: after → ∃ db', (db.run before).exec op = .ok db' := by
  have within {op : Op} : op.Within fun _ => True := by cases op <;> trivial
  refine ⟨lossless_of_sound Store.sound_new (fun _ _ => within) (fun _ _ _ => id) fun _ => id,
    fun ho => lossless_of_sound Store.sound_new ho (fun hs => hs.holds) fun hs => hs.unshared,
    fun before op after _ => ?_⟩
  exact (Store.exec_ok (Store.sound_run Store.sound_new fun _ _ => within) within).imp
    fun _ h => h.left

instance {p : Int → Prop} [DecidablePred p] : DecidablePred (Op.Within p) := by
  intro op
  cases op <;> dsimp only [Op.Within] <;> infer_instance

-- Rows of June and August of 2026, the first of which is dropped in August.
theorem lossless_of_new_dropped :
    let ops := [.insert (start 24317), .insert (start 24319), .drainDefault ⟨id, .refl⟩,
      .dropOld (start 24319) (some 1) ⟨id, .refl⟩]
    let db := Store.new "notifications" false []
    Lossless db ops Holds Untaken ∧ (db.run ops).rows = [⟨1, start 24319⟩] :=
  ⟨lossless_of_new.right.left <| by decide, by decide +kernel⟩

-- The years 44 and 44 BC share the names of their leaves: the row of the one stays in the default
-- partition, from which it is removed together with the leaf of the other one.
theorem lossless_of_new_missed :
    (¬∀ table hasRefs others ops, Drained (.new table hasRefs others) ops Untaken) ∧
    ¬∀ table hasRefs others ops, Absent (.new table hasRefs others) ops Holds := by
  let inserts : List Op := [.insert (start <| 12 * 44), .insert (start <| 12 * -43)]
  let order : Scan Int := ⟨id, .refl⟩
  refine ⟨fun h => ?_, fun h => ?_⟩
  case refine_1 =>
    have hd := h "notifications" false [] (inserts ++ [.drainDefault order]) inserts order [] rfl
      fun _ _ => List.not_mem_nil
    have left : (((Store.new "notifications" false []).run inserts).step
        (.drainDefault order)).parts.default.length = 1 := by decide +kernel
    exact absurd (hd ▸ left) (by decide)
  case refine_2 =>
    let before : List Op := [.insert (start <| 12 * -43), .drainDefault order]
    let drop : Op := .dropOld (start <| 12 * 45) (some 1) ⟨id, .refl⟩
    obtain ⟨between, now, retainMonths, _, rest, he, l, hl, hh, hn, _⟩ :=
      h "notifications" true [] (before ++ [.insert (start <| 12 * 44), drop]) before
        (start <| 12 * 44) [drop] rfl (by decide +kernel)
    obtain rfl : between = [] := by
      cases between
      case nil  => rfl
      case cons => simp at he
    have none : ∀ l ∈ (Store.run (.new "notifications" true []) (before ++
        [.insert (start <| 12 * 44)])).parts.leaves,
        ⟨(Store.run (.new "notifications" true []) before).next, start <| 12 * 44⟩ ∉ l.rows := by
      decide +kernel
    exact none l hl hh

end Drovery.Partitions
