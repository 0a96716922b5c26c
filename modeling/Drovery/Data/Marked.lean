import Drovery.Data.Table

-- Tables whose rows belong to owners, where an owner may mark one of its rows.
namespace Table

variable {κ ρ ι : Type} [DecidableEq κ]

-- No two rows of one owner are marked.
def MarkedOnce (t : Table κ ρ) (owner : ρ → ι) (mark : ρ → Bool) : Prop :=
  ∀ k k' r r', t.find? k = some r → t.find? k' = some r' → mark r → mark r' →
    owner r = owner r' → k = k'

-- No row of the owner is marked, except possibly for the one with the key `k`.
def Unmarked (t : Table κ ρ) (owner : ρ → ι) (mark : ρ → Bool) (i : ι) (k : κ) : Prop :=
  ∀ k' r, t.find? k' = some r → owner r = i → mark r → k' = k

-- Any other marked row of the owner is among those with the given keys.
def Covers (t : Table κ ρ) (owner : ρ → ι) (mark : ρ → Bool) (i : ι) (k : κ) (ks : List κ) : Prop :=
  ∀ k' r, t.find? k' = some r → owner r = i → mark r → k' ≠ k → k' ∈ ks

variable {t t' : Table κ ρ} {k : κ} {r : ρ} {owner : ρ → ι} {mark : ρ → Bool} {f : ρ → ρ}
variable {p : κ → ρ → Bool}

theorem Covers.unmarked {i : ι} {ks : List κ} (h : t.Covers owner mark i k ks)
    (hf : ∀ r, mark (f r) = false) :
    (t.updateMany (fun k _ => k ∈ ks) f).Unmarked owner mark i k := by
  intro k' r hr hi hm
  rw [find?_updateMany] at hr
  have ⟨r', hr', he⟩ := Option.map_eq_some_iff.mp hr
  split at he
  case isTrue =>
    rw [← he, hf] at hm
    contradiction
  case isFalse hn =>
    subst he
    by_contra hne
    exact hn <| decide_eq_true <| h k' r' hr' hi hm hne

namespace MarkedOnce

theorem insert (h : t.MarkedOnce owner mark) (hi : t.insert k r = some t')
    (hm : mark r → t.Unmarked owner mark (owner r) k) : t'.MarkedOnce owner mark := by
  have new {k' : κ} {r' : ρ} (hr' : t'.find? k' = some r') :
      (k' = k ∧ r' = r) ∨ t.find? k' = some r' := by
    rw [find?_insert hi] at hr'
    split at hr'
    case isTrue he => exact .inl ⟨he, (Option.some.inj hr').symm⟩
    case isFalse   => exact .inr hr'
  intro k₁ k₂ r₁ r₂ h₁ h₂ hm₁ hm₂ ho
  cases new h₁ <;> cases new h₂
  case inl.inl n₁ n₂ => exact n₁.left.trans n₂.left.symm
  case inl.inr n₁ n₂ =>
    obtain ⟨hk, hr⟩ := n₁
    exact hk ▸ (hm (hr ▸ hm₁) k₂ r₂ n₂ (hr ▸ ho.symm) hm₂).symm
  case inr.inl n₁ n₂ =>
    obtain ⟨hk, hr⟩ := n₂
    exact hk ▸ hm (hr ▸ hm₂) k₁ r₁ n₁ (hr ▸ ho) hm₁
  case inr.inr n₁ n₂ => exact h k₁ k₂ r₁ r₂ n₁ n₂ hm₁ hm₂ ho

-- Rewriting rows without marking any of them.
theorem updateMany (h : t.MarkedOnce owner mark) (ho : ∀ r, owner (f r) = owner r)
    (hm : ∀ r, mark (f r) → mark r) : (t.updateMany p f).MarkedOnce owner mark := by
  have old {k : κ} {r : ρ} (hr : (t.updateMany p f).find? k = some r) :
      ∃ r₀, t.find? k = some r₀ ∧ owner r = owner r₀ ∧ (mark r → mark r₀) := by
    rw [find?_updateMany] at hr
    have ⟨r₀, h₀, he⟩ := Option.map_eq_some_iff.mp hr
    refine ⟨r₀, h₀, ?_⟩
    split at he
    case isTrue  => exact he ▸ ⟨ho r₀, hm r₀⟩
    case isFalse => exact he ▸ ⟨rfl, id⟩
  intro k₁ k₂ r₁ r₂ h₁ h₂ hm₁ hm₂ he
  have ⟨r₁', h₁', ho₁, hm₁'⟩ := old h₁
  have ⟨r₂', h₂', ho₂, hm₂'⟩ := old h₂
  exact h k₁ k₂ r₁' r₂' h₁' h₂' (hm₁' hm₁) (hm₂' hm₂) (ho₁ ▸ ho₂ ▸ he)

-- Marking a row when no other row of its owner is marked.
theorem modify (h : t.MarkedOnce owner mark) (hr : t.find? k = some r) (ho : owner (f r) = owner r)
    (hm : t.Unmarked owner mark (owner r) k) : (t.modify k f).MarkedOnce owner mark := by
  have new {k' : κ} {r' : ρ} (hr' : (t.modify k f).find? k' = some r') :
      (k' = k ∧ owner r' = owner r) ∨ t.find? k' = some r' := by
    rw [find?_modify] at hr'
    split at hr'
    case isFalse   => exact .inr hr'
    case isTrue he =>
      rw [hr, Option.map_some, Option.some.injEq] at hr'
      exact .inl ⟨he, hr' ▸ ho⟩
  intro k₁ k₂ r₁ r₂ h₁ h₂ hm₁ hm₂ he
  cases new h₁ <;> cases new h₂
  case inl.inl n₁ n₂ => exact n₁.left.trans n₂.left.symm
  case inl.inr n₁ n₂ => exact n₁.left ▸ (hm k₂ r₂ n₂ (he ▸ n₁.right) hm₂).symm
  case inr.inl n₁ n₂ => exact n₂.left ▸ hm k₁ r₁ n₁ (he ▸ n₂.right) hm₁
  case inr.inr n₁ n₂ => exact h k₁ k₂ r₁ r₂ n₁ n₂ hm₁ hm₂ he

theorem erase (h : t.MarkedOnce owner mark) : (t.erase k).MarkedOnce owner mark :=
  fun _ _ _ _ h₁ h₂ => h _ _ _ _ (find?_erase_eq_some h₁) (find?_erase_eq_some h₂)

end MarkedOnce

end Table
