import Mathlib.Data.List.Basic

namespace Drovery

def isHexDigit (c : Char) : Bool :=
  c.isDigit || 'a' ≤ c && c ≤ 'f' || 'A' ≤ c && c ≤ 'F'

-- Thirty-two hexadecimal digits, with hyphens in front of the 9th, 13th, 17th and 21st of them.
def isUuid (s : String) : Bool :=
  s.toList.length = 36 ∧ s.toList.zipIdx.all fun (c, i) =>
    if i ∈ [8, 13, 18, 23] then c = '-' else isHexDigit c

-- The id of a row, as a text.
@[ext]
structure Uuid where
  text  : String
  valid : isUuid text
  deriving DecidableEq

namespace Uuid

variable {D E : Uuid} {s t : String}

theorem length_toList (D : Uuid) : D.text.toList.length = 36 :=
  (of_decide_eq_true D.valid).left

-- All ids have the same length, so that what begins with an id has no other reading.
theorem append_inj (h : D.text ++ s = E.text ++ t) : D = E ∧ s = t := by
  have h := congrArg String.toList h
  rw [String.toList_append, String.toList_append] at h
  have ⟨hD, hs⟩ := List.append_inj h <| D.length_toList.trans E.length_toList.symm
  exact ⟨Uuid.ext <| String.toList_injective hD, String.toList_injective hs⟩

theorem dot_notMem (D : Uuid) : '.' ∉ D.text.toList := by
  intro h
  have ⟨i, hi, he⟩ := List.getElem_of_mem h
  have hz : ('.', i) ∈ D.text.toList.zipIdx := List.mem_iff_getElem.mpr ⟨i, by simpa using hi, by simp [he]⟩
  have hc := List.all_eq_true.mp (of_decide_eq_true D.valid).right _ hz
  dsimp only at hc
  split at hc
  case isTrue  => exact absurd hc (by decide)
  case isFalse => exact absurd hc (by decide)

end Uuid

def Uuid.small : Uuid where
  text  := "00000000-0000-4000-8000-000000000001"
  valid := by decide

end Drovery
