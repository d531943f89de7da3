import Mathlib.Tactic.Common
import Mathlib.Data.List.Basic

/-- A code without empty words in which no word is a proper beginning of another. -/
structure PrefixCode {ι α : Type} (code : ι → List α) : Prop where
  nonempty : ∀ i, code i ≠ []
  free : ∀ i j, code i <+: code j → code i = code j

namespace PrefixCode

variable {ι α : Type} {code : ι → List α}

/-- Two words at the front of one stream are the same word. -/
theorem head_eq (hc : PrefixCode code) {i j : ι} {xs ys : List α}
    (h : code i ++ xs = code j ++ ys) : code i = code j := by
  have hi : code i <+: code j ++ ys := ⟨xs, h⟩
  have hj : code j <+: code j ++ ys := List.prefix_append _ _
  rcases Nat.le_total (code i).length (code j).length with hle | hle
  · exact hc.free i j (List.prefix_of_prefix_length_le hi hj hle)
  · exact (hc.free j i (List.prefix_of_prefix_length_le hj hi hle)).symm

/-- Two readings of one stream, which may end inside a word, do not contradict each other. -/
theorem comparable (hc : PrefixCode code) {is js : List ι} {xs ys : List α}
    (h : is.flatMap code ++ xs = js.flatMap code ++ ys) :
    is.map code <+: js.map code ∨ js.map code <+: is.map code := by
  induction is generalizing js with
  | nil => exact Or.inl List.nil_prefix
  | cons i is ih =>
    cases js with
    | nil => exact Or.inr List.nil_prefix
    | cons j js =>
      simp only [List.flatMap_cons, List.append_assoc] at h
      have hij := hc.head_eq h
      rw [hij] at h
      simp only [List.map_cons, hij, List.cons_prefix_cons, true_and]
      exact ih (List.append_cancel_left h)

/-- A reading of a part of a stream is a part of the reading of the stream. -/
theorem map_isPrefix (hc : PrefixCode code) {is js : List ι}
    (h : is.flatMap code <+: js.flatMap code) : is.map code <+: js.map code := by
  induction is generalizing js with
  | nil => exact List.nil_prefix
  | cons i is ih =>
    obtain ⟨rest, h⟩ := h
    cases js with
    | nil =>
      have hnil : code i = [] := by
        simp only [List.flatMap_cons, List.flatMap_nil, List.append_eq_nil_iff] at h
        exact h.1.1
      exact absurd hnil (hc.nonempty i)
    | cons j js =>
      simp only [List.flatMap_cons, List.append_assoc] at h
      have hij := hc.head_eq h
      rw [hij] at h
      simp only [List.map_cons, hij, List.cons_prefix_cons, true_and]
      exact ih ⟨rest, List.append_cancel_left h⟩

end PrefixCode
