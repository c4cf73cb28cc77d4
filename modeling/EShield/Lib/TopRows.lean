import Mathlib

/-!
# The first rows by count

`sort_by_key(Reverse(count))` and `truncate(k)` over the rows of a table, in whatever order the table
yields them: what is cut off counts no more than what is shown.
-/

namespace TopRows

variable {κ ν : Type*} [LinearOrder ν]

def topRows (k : Nat) (rows : List (κ × ν)) : List (κ × ν) :=
  (rows.mergeSort fun a b => b.2 ≤ a.2).take k

theorem sorted_mergeSort (rows : List (κ × ν)) :
    (rows.mergeSort fun a b => decide (b.2 ≤ a.2)).Pairwise fun a b => b.2 ≤ a.2 := by
  have h := @List.pairwise_mergeSort _ (fun a b : κ × ν => decide (b.2 ≤ a.2))
    (fun a b c hab hbc => by
      simp only [decide_eq_true_eq] at *
      exact hbc.trans hab)
    (fun a b => by
      simp only [Bool.or_eq_true, decide_eq_true_eq]
      exact le_total _ _) rows
  exact h.imp fun hab => by simpa using hab

theorem pairwise_topRows (k : Nat) (rows : List (κ × ν)) :
    (topRows k rows).Pairwise fun a b => b.2 ≤ a.2 :=
  (sorted_mergeSort rows).sublist (List.take_sublist k _)

theorem length_topRows (k : Nat) (rows : List (κ × ν)) :
    (topRows k rows).length = min k rows.length := by
  rw [topRows, List.length_take, List.length_mergeSort]

theorem mem_of_mem_topRows {k : Nat} {rows : List (κ × ν)} {a : κ × ν} (h : a ∈ topRows k rows) :
    a ∈ rows :=
  (List.mergeSort_perm rows _).mem_iff.1 (List.mem_of_mem_take h)

/-- A row that is not shown was cut off: as many rows as fit are shown, each with at least its count. -/
theorem le_of_not_mem_topRows {k : Nat} {rows : List (κ × ν)} {a : κ × ν} (ha : a ∈ rows)
    (hnot : a ∉ topRows k rows) :
    (topRows k rows).length = k ∧ ∀ b ∈ topRows k rows, a.2 ≤ b.2 := by
  have hmem := (List.mergeSort_perm rows fun a b => decide (b.2 ≤ a.2)).mem_iff.2 ha
  have hsorted := sorted_mergeSort rows
  rw [← List.take_append_drop k (rows.mergeSort _)] at hmem hsorted
  rcases List.mem_append.1 hmem with htake | hdrop
  · exact absurd htake hnot
  · refine ⟨?_, fun b hb => (List.pairwise_append.1 hsorted).2.2 b hb a hdrop⟩
    have hlength := List.length_pos_of_mem hdrop
    rw [List.length_drop, List.length_mergeSort] at hlength
    rw [length_topRows]
    omega

end TopRows
