import Mathlib.Data.List.Nodup
import Mathlib.Data.List.Count

-- A table of rows `ρ` with a unique key `κ`. The rows are kept in the order of their insertion.
structure Table (κ ρ : Type) where
  rows  : List (κ × ρ)
  nodup : (rows.map Prod.fst).Nodup

namespace Table

variable {κ ρ : Type}

def empty : Table κ ρ where
  rows  := []
  nodup := List.nodup_nil

-- Rewrites the rows that satisfy `p`.
def updateMany (t : Table κ ρ) (p : κ → ρ → Bool) (f : ρ → ρ) : Table κ ρ where
  rows  := t.rows.map fun (k, r) => (k, if p k r then f r else r)
  nodup := by rw [List.map_map]; exact t.nodup

def count (t : Table κ ρ) (p : κ → ρ → Bool) : Nat :=
  t.rows.countP fun (k, r) => p k r

def findMany (t : Table κ ρ) (p : κ → ρ → Bool) : List (κ × ρ) :=
  t.rows.filter fun (k, r) => p k r

def findFirst (t : Table κ ρ) (p : κ → ρ → Bool) : Option (κ × ρ) :=
  t.rows.find? fun (k, r) => p k r

def deleteMany (t : Table κ ρ) (p : κ → ρ → Bool) : Table κ ρ where
  rows  := t.rows.filter fun (k, r) => !p k r
  nodup := t.nodup.sublist <| List.filter_sublist.map _

variable [DecidableEq κ]

def find? (t : Table κ ρ) (k : κ) : Option ρ :=
  t.findFirst (fun k' _ => k' = k) |>.map Prod.snd

-- Adds a row, unless its key is already taken.
def insert (t : Table κ ρ) (k : κ) (r : ρ) : Option (Table κ ρ) :=
  if h : k ∈ t.rows.map Prod.fst then
    none
  else
    some {
      rows  := t.rows ++ [(k, r)]
      nodup := by
        rw [List.map_append]
        exact List.nodup_append.mpr ⟨t.nodup, by simp, by rintro _ h' _ he rfl; simp_all⟩
    }

def modify (t : Table κ ρ) (k : κ) (f : ρ → ρ) : Table κ ρ :=
  t.updateMany (fun k' _ => k' = k) f

-- Adds a row, or rewrites the one that has its key.
def upsert (t : Table κ ρ) (k : κ) (create : ρ) (update : ρ → ρ) : Table κ ρ :=
  (t.insert k create).getD (t.modify k update)

-- The conditional update of a single row: the number of rows it matched and the new table.
def cas (t : Table κ ρ) (k : κ) (guard : ρ → Bool) (f : ρ → ρ) : Nat × Table κ ρ :=
  if (t.find? k).any guard then (1, t.modify k f) else (0, t)

def erase (t : Table κ ρ) (k : κ) : Table κ ρ where
  rows  := t.rows.filter fun (k', _) => k' ≠ k
  nodup := t.nodup.sublist <| List.filter_sublist.map _

variable {t t' : Table κ ρ} {k k' : κ} {r : ρ}

@[simp]
theorem find?_empty : (empty : Table κ ρ).find? k = none :=
  rfl

theorem find?_eq_some_iff : t.find? k = some r ↔ (k, r) ∈ t.rows := by
  obtain ⟨rows, nodup⟩ := t
  simp only [find?, findFirst, Option.map_eq_some_iff, Prod.exists, exists_eq_right]
  constructor
  case mp =>
    rintro ⟨k', h⟩
    have hk := List.find?_some h
    simp only [decide_eq_true_eq] at hk
    exact hk ▸ List.mem_of_find?_eq_some h
  case mpr =>
    intro h
    refine ⟨k, ?_⟩
    induction rows
    case nil => simp at h
    case cons hd tl ih =>
      obtain ⟨k₁, r₁⟩ := hd
      simp only [List.map_cons, List.nodup_cons] at nodup
      by_cases hk : k₁ = k
      case pos =>
        subst hk
        have hn : (k₁, r) ∉ tl := fun hm => nodup.left (List.mem_map_of_mem hm)
        simp_all
      case neg => simp_all [Ne.symm hk]

theorem find?_eq_none_iff : t.find? k = none ↔ k ∉ t.rows.map Prod.fst := by
  constructor
  case mp =>
    intro h hm
    obtain ⟨⟨k', r⟩, hr, rfl⟩ := List.mem_map.mp hm
    simp [find?_eq_some_iff.mpr hr] at h
  case mpr =>
    intro h
    cases hf : t.find? k
    case none => rfl
    case some => exact absurd (List.mem_map_of_mem (find?_eq_some_iff.mp hf)) h

theorem find?_updateMany {p : κ → ρ → Bool} {f : ρ → ρ} :
    (t.updateMany p f).find? k = (t.find? k).map fun r => if p k r then f r else r := by
  cases h : t.find? k
  case none =>
    rw [find?_eq_none_iff] at h
    rw [Option.map_none, find?_eq_none_iff]
    simpa [updateMany] using h
  case some r =>
    rw [Option.map_some, find?_eq_some_iff]
    exact List.mem_map.mpr ⟨_, find?_eq_some_iff.mp h, rfl⟩

theorem find?_modify {f : ρ → ρ} :
    (t.modify k f).find? k' = if k' = k then (t.find? k).map f else t.find? k' := by
  rw [modify, find?_updateMany]
  by_cases h : k' = k
  case pos => subst h; simp
  case neg => simp [h]

@[simp]
theorem find?_modify_self {f : ρ → ρ} : (t.modify k f).find? k = (t.find? k).map f := by
  simp [find?_modify]

theorem find?_modify_of_some {f : ρ → ρ} (h : t.find? k = some r) :
    (t.modify k f).find? k = some (f r) :=
  find?_modify_self.trans <| congrArg (Option.map f) h

theorem find?_modify_of_ne {f : ρ → ρ} (h : k' ≠ k) : (t.modify k f).find? k' = t.find? k' := by
  simp [find?_modify, h]

theorem insert_eq_none_iff : t.insert k r = none ↔ (t.find? k).isSome := by
  rw [← Option.ne_none_iff_isSome, Ne, find?_eq_none_iff]
  simp [insert]

theorem find?_of_insert (h : t.insert k r = some t') : t.find? k = none := by
  cases hf : t.find? k
  case none => rfl
  case some => simp [insert_eq_none_iff.mpr (by simp [hf] : (t.find? k).isSome)] at h

theorem rows_insert (h : t.insert k r = some t') : t'.rows = t.rows ++ [(k, r)] := by
  simp only [insert, Option.dite_none_left_eq_some, Option.some.injEq] at h
  obtain ⟨_, rfl⟩ := h
  rfl

theorem find?_insert (h : t.insert k r = some t') :
    t'.find? k' = if k' = k then some r else t.find? k' := by
  have hn := find?_of_insert h
  split
  case isTrue he =>
    subst he
    simp [find?_eq_some_iff, rows_insert h]
  case isFalse hk =>
    cases hf : t.find? k'
    case none =>
      rw [find?_eq_none_iff] at hf ⊢
      simp_all [rows_insert h]
    case some =>
      rw [find?_eq_some_iff] at hf ⊢
      simp [rows_insert h, hf]

theorem find?_upsert {create : ρ} {update : ρ → ρ} : (t.upsert k create update).find? k' =
    if k' = k then some ((t.find? k).elim create update) else t.find? k' := by
  unfold upsert
  cases hi : t.insert k create
  case none =>
    obtain ⟨r, hr⟩ := Option.isSome_iff_exists.mp <| insert_eq_none_iff.mp hi
    simp [find?_modify, hr]
  case some t' => simp [find?_insert hi, find?_of_insert hi]

section

variable {p : κ → ρ → Bool} {f : ρ → ρ}

theorem count_insert (h : t.insert k r = some t') :
    t'.count p = t.count p + if p k r then 1 else 0 := by
  rw [count, rows_insert h, List.countP_append, List.countP_singleton]
  rfl

-- Rewriting a row only affects the contribution of this row.
theorem count_modify (h : t.find? k = some r) :
    (t.modify k f).count p + (if p k r then 1 else 0) = t.count p + if p k (f r) then 1 else 0 := by
  obtain ⟨rows, nodup⟩ := t
  rw [find?_eq_some_iff] at h
  simp only [modify, updateMany, count, List.countP_map] at h ⊢
  induction rows
  case nil => simp at h
  case cons hd tl ih =>
    obtain ⟨k₁, r₁⟩ := hd
    simp only [List.map_cons, List.nodup_cons] at nodup
    by_cases hk : k₁ = k
    case pos =>
      subst hk
      -- No other row carries the key.
      have hr : r = r₁ := by
        cases List.mem_cons.mp h
        case inl h => exact (Prod.mk.inj h).right
        case inr h => exact absurd (List.mem_map_of_mem h) nodup.left
      have htl : tl.countP ((fun (k, r) => p k r) ∘ fun (k', r) =>
          (k', if decide (k' = k₁) then f r else r)) = tl.countP fun (k, r) => p k r := by
        refine List.countP_congr fun (k', r') hm => ?_
        have hne : k' ≠ k₁ := fun he => nodup.left (he ▸ List.mem_map_of_mem hm)
        simp [hne]
      simp only [List.countP_cons, Function.comp_apply, decide_true, if_true, htl, hr]
      omega
    case neg =>
      have hm : (k, r) ∈ tl := (List.mem_cons.mp h).resolve_left fun he =>
        hk (Prod.mk.inj he).left.symm
      have := ih nodup.right hm
      simp only [List.countP_cons, Function.comp_apply, hk, decide_false, Bool.false_eq_true,
        if_false]
      omega

omit [DecidableEq κ] in
-- Rewriting rows does not change how many of them satisfy what the rewriting does not affect.
theorem count_updateMany {q : κ → ρ → Bool} (h : ∀ k r, p k (f r) = p k r) :
    (t.updateMany q f).count p = t.count p := by
  rw [count, updateMany, List.countP_map]
  refine List.countP_congr fun (k, r) _ => ?_
  simp only [Function.comp_apply]
  split <;> simp [h]

theorem count_erase_le : (t.erase k).count p ≤ t.count p :=
  List.filter_sublist.countP_le

theorem count_eq_zero_iff : t.count p = 0 ↔ ∀ k r, t.find? k = some r → p k r = false := by
  rw [count, List.countP_eq_zero]
  constructor
  case mp =>
    intro h k r hr
    exact Bool.eq_false_iff.mpr <| h (k, r) <| find?_eq_some_iff.mp hr
  case mpr =>
    intro h (k, r) hr
    exact Bool.eq_false_iff.mp <| h k r <| find?_eq_some_iff.mpr hr

theorem count_pos (h : t.find? k = some r) (hp : p k r) : 0 < t.count p :=
  List.countP_pos_iff.mpr ⟨(k, r), find?_eq_some_iff.mp h, hp⟩

end

section

variable {guard : ρ → Bool} {f : ρ → ρ}

theorem cas_of_guard (h : t.find? k = some r) (hg : guard r) :
    t.cas k guard f = (1, t.modify k f) := by
  simp [cas, h, hg]

theorem cas_count : (t.cas k guard f).fst = if (t.find? k).any guard then 1 else 0 := by
  simp only [cas]; split <;> rfl

theorem find?_cas : (t.cas k guard f).snd.find? k' =
    if k' = k then (t.find? k).map fun r => if guard r then f r else r else t.find? k' := by
  simp only [cas]
  cases hf : t.find? k <;> simp only [Option.any_none, Option.any_some, Option.map_none,
    Option.map_some]
  case none    => by_cases h : k' = k <;> simp [h, hf]
  case some r₀ =>
    by_cases hg : guard r₀ <;> by_cases h : k' = k <;> simp [hg, h, hf, find?_modify]

-- A conditional update either leaves a row alone or it was this row that matched.
theorem find?_cas_cases (t : Table κ ρ) (k k' : κ) (guard : ρ → Bool) (f : ρ → ρ) :
    (t.cas k guard f).snd.find? k' = t.find? k' ∨
    ∃ r, k' = k ∧ t.find? k = some r ∧ guard r ∧ (t.cas k guard f).snd.find? k' = some (f r) := by
  rw [find?_cas]
  split
  case isFalse => exact .inl rfl
  case isTrue h =>
    subst h
    cases hf : t.find? k'
    case none => exact .inl rfl
    case some r =>
      by_cases hg : guard r
      case pos => exact .inr ⟨r, rfl, rfl, hg, by simp [hg]⟩
      case neg => exact .inl (by simp [hg])

theorem cas_count_eq_zero_iff : (t.cas k guard f).fst = 0 ↔ ∀ r, t.find? k = some r → ¬guard r := by
  cases hf : t.find? k <;> simp [cas_count, hf]

theorem cas_eq_of_count_eq_zero (h : (t.cas k guard f).fst = 0) : (t.cas k guard f).snd = t := by
  simp only [cas] at h ⊢; split <;> simp_all

theorem cas_cases (t : Table κ ρ) (k : κ) (guard : ρ → Bool) (f : ρ → ρ) :
    t.cas k guard f = (0, t) ∨
      ∃ r, t.find? k = some r ∧ guard r ∧ t.cas k guard f = (1, t.modify k f) := by
  by_cases hc : (t.cas k guard f).fst = 0
  case pos => exact .inl <| Prod.ext hc <| cas_eq_of_count_eq_zero hc
  case neg =>
    rw [cas_count_eq_zero_iff] at hc
    push Not at hc
    have ⟨r, hr, hg⟩ := hc
    exact .inr ⟨r, hr, hg, cas_of_guard hr hg⟩

end

theorem find?_deleteMany {p : κ → ρ → Bool} :
    (t.deleteMany p).find? k = (t.find? k).filter fun r => !p k r := by
  have hm {r} : (t.deleteMany p).find? k = some r ↔ t.find? k = some r ∧ (!p k r) = true := by
    rw [find?_eq_some_iff, find?_eq_some_iff]
    exact List.mem_filter
  refine Option.ext fun r => ?_
  rw [hm, Option.filter_eq_some_iff]

theorem find?_erase : (t.erase k).find? k' = if k' = k then none else t.find? k' := by
  have hm {r} : (t.erase k).find? k' = some r ↔ t.find? k' = some r ∧ k' ≠ k := by
    rw [find?_eq_some_iff, find?_eq_some_iff]
    exact List.mem_filter.trans <| and_congr_right fun _ => decide_eq_true_iff
  refine Option.ext fun r => ?_
  rw [hm]
  split <;> simp_all

theorem find?_erase_eq_some (h : (t.erase k).find? k' = some r) : t.find? k' = some r := by
  rw [find?_eq_some_iff] at h ⊢
  exact List.mem_of_mem_filter h

end Table
