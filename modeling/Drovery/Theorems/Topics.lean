import Drovery.Services.Mqtt

namespace Drovery.MqttService

-- The levels of a filter match those of a topic.
inductive TopicMatch : List String → List String → Prop
  | nil : TopicMatch [] []
  | literal {l : String} {f t : List String} :
    l ≠ "#" → l ≠ "+" → TopicMatch f t → TopicMatch (l :: f) (l :: t)
  | single {l : String} {f t : List String} : TopicMatch f t → TopicMatch ("+" :: f) (l :: t)
  | multi {t : List String} : TopicMatch ["#"] t

section

variable {f t pre pre' : List String} {l l' : String}

theorem topicMatch_nil : TopicMatch [] t ↔ t = [] := by
  constructor
  case mp  => intro h; cases h; rfl
  case mpr => intro h; exact h ▸ .nil

theorem topicMatch_single : TopicMatch ("+" :: f) (l :: t) ↔ TopicMatch f t := by
  constructor
  case mpr => exact .single
  case mp =>
    intro h
    generalize hp : "+" = l' at h
    cases h
    case literal hn _ => exact absurd hp.symm hn
    case single h     => exact h
    case multi        => exact absurd hp (by decide)

theorem topicMatch_literal (h : l ≠ "#") (hn : l ≠ "+") :
    TopicMatch (l :: f) (l' :: t) ↔ l = l' ∧ TopicMatch f t := by
  constructor
  case mpr => exact fun ⟨he, hm⟩ => he ▸ .literal h hn hm
  case mp =>
    intro hm
    cases hm
    case literal hm => exact ⟨rfl, hm⟩
    case single     => contradiction
    case multi      => contradiction

theorem not_topicMatch_nil (h : l ≠ "#") : ¬TopicMatch (l :: f) [] := by
  intro hm
  cases hm
  contradiction

theorem mem_dropLast_of_cons (h : l ∈ f.dropLast) : l ∈ (l' :: f).dropLast := by
  cases f
  case nil  => exact absurd h List.not_mem_nil
  case cons => exact .tail _ h

-- The loop has passed `pre` in the filter and as many levels `pre'` in the topic.
theorem matchLevels_iff (hl : pre.length = pre'.length) (hf : "#" ∉ f.dropLast) :
    matchLevels (pre ++ f) (pre' ++ t) (.range' pre.length f.length) ↔ TopicMatch f t := by
  induction f generalizing pre pre' t
  case nil => simp [matchLevels, topicMatch_nil, hl]
  case cons l f ih =>
    have hi : (pre ++ l :: f)[pre.length]? = some l := by simp
    have next (l' : String) (t : List String) :
        matchLevels (pre ++ l :: f) (pre' ++ l' :: t) (.range' (pre.length + 1) f.length) ↔
          TopicMatch f t := by
      have ht : "#" ∉ f.dropLast := hf ∘ mem_dropLast_of_cons
      have hl : (pre ++ [l]).length = (pre' ++ [l']).length := by simp [hl]
      have := @ih t (pre ++ [l]) (pre' ++ [l']) hl ht
      simpa using this
    rw [List.length_cons, List.range'_succ, matchLevels, hi]
    by_cases hm : l = "#"
    case pos =>
      have : f = [] := by
        by_contra hn
        rw [hm, List.dropLast_cons_of_ne_nil hn] at hf
        exact hf <| .head _
      simp [this, hm, TopicMatch.multi]
    case neg =>
      cases t
      case nil =>
        have ht : (pre' ++ [])[pre.length]? = none := by simp [hl]
        rw [ht]
        simp [hm, not_topicMatch_nil hm]
      case cons l' t =>
        have ht : (pre' ++ l' :: t)[pre.length]? = some l' := by simp [hl]
        rw [ht]
        by_cases hs : l = "+"
        case pos =>
          subst hs
          simpa [topicMatch_single] using next l' t
        case neg =>
          rw [topicMatch_literal hm hs]
          by_cases he : l = l'
          case pos =>
            subst he
            simpa [hm, hs] using next l t
          case neg => simp [hm, hs, he]

end

-- The loop decides the relation, for filters that have `#` as their last level only.
theorem topicMatches_iff {filter topic : String} (h : "#" ∉ (levels filter).dropLast) :
    topicMatches filter topic ↔ TopicMatch (levels filter) (levels topic) := by
  have := @matchLevels_iff (levels filter) (levels topic) [] [] rfl h
  rwa [List.length_nil, ← List.range_eq_range'] at this

-- The parent level matches, and so do empty levels.
theorem topicMatches_iff_parent :
    TopicMatch (levels "drovery/+/#") (levels "drovery/") ∧
      ¬TopicMatch (levels "drovery/+/#") (levels "drovery") :=
  have h : "#" ∉ (levels "drovery/+/#").dropLast := by decide +kernel
  ⟨(topicMatches_iff h).mp (by decide +kernel), mt (topicMatches_iff h).mpr (by decide +kernel)⟩

end Drovery.MqttService
