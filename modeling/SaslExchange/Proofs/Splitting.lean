import Mathlib.Data.List.Basic

/-!
# Splitting at a separator

A list splits into one piece more than it has separators, and no piece holds one. So the pieces
are told by how they stand in the list.

    (list.splitOn separator).length = list.count separator + 1      (length_splitOn)
    list.splitOn separator = [a, b, c] ↔ list is a, b and c with one between neighbours
                                                                    (splitOn_eq_three_iff)
-/

namespace SaslExchange

variable {α : Type} [DecidableEq α] {separator : α}

theorem notMem_of_mem_splitOn {bytes piece : List α} (h : piece ∈ bytes.splitOn separator) :
    separator ∉ piece := by
  induction bytes generalizing piece with
  | nil =>
    rw [List.splitOn_nil, List.mem_singleton] at h
    simp [h]
  | cons b rest ih =>
    rw [List.splitOn_cons_eq_if_modifyHead] at h
    split at h
    · rcases List.mem_cons.1 h with rfl | h
      · simp
      · exact ih h
    · next hb =>
      obtain ⟨first, others, hsplit⟩ :=
        List.exists_cons_of_ne_nil (List.splitOn_ne_nil separator rest)
      rw [hsplit, List.modifyHead_cons] at h
      rcases List.mem_cons.1 h with rfl | h
      · have hfirst := ih (hsplit ▸ List.mem_cons_self : first ∈ rest.splitOn separator)
        intro hmem
        rcases List.mem_cons.1 hmem with rfl | hmem
        · simp at hb
        · exact hfirst hmem
      · exact ih (hsplit ▸ List.mem_cons_of_mem _ h)

theorem length_splitOn (separator : α) (list : List α) :
    (list.splitOn separator).length = list.count separator + 1 := by
  induction list with
  | nil => simp
  | cons a rest ih =>
    rw [List.splitOn_cons_eq_if_modifyHead, List.count_cons]
    by_cases h : a = separator
    · simp [h, ih]
    · simp [h, ih]

/-- A list splits in three exactly where two separators stand in it. -/
theorem splitOn_eq_three_iff {list a b c : List α} :
    list.splitOn separator = [a, b, c] ↔
      list = a ++ [separator] ++ b ++ [separator] ++ c ∧
        separator ∉ a ∧ separator ∉ b ∧ separator ∉ c := by
  constructor
  · intro h
    have hpiece : ∀ piece ∈ [a, b, c], separator ∉ piece := by
      intro piece hpiece
      exact notMem_of_mem_splitOn (h ▸ hpiece)
    refine ⟨?_, hpiece a (by simp), hpiece b (by simp), hpiece c (by simp)⟩
    have hjoin : [separator].intercalate (list.splitOn separator) = list :=
      List.intercalate_splitOn separator
    rw [← hjoin, h]
    simp
  · rintro ⟨rfl, ha, hb, hc⟩
    have hpiece : ∀ piece ∈ [a, b, c], separator ∉ piece := by simp [ha, hb, hc]
    rw [← List.splitOn_intercalate separator hpiece (by simp)]
    simp

end SaslExchange
