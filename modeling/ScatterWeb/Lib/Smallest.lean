import Mathlib.Data.List.Sort

/-! # The smallest elements

Sorting and taking a prefix selects the `k` smallest elements, in whatever order they come. Without repetitions, an element is among them if
and only if fewer than `k` are smaller. -/
namespace ScatterWeb.Lib
set_option autoImplicit false

variable {α : Type*} [LinearOrder α] {k : ℕ} {xs ys : List α} {a b : α}

def smallest (k : ℕ) (xs : List α) : List α := (xs.mergeSort (fun a b => decide (a ≤ b))).take k

theorem pairwise_sorted (xs : List α) : (xs.mergeSort (fun a b => decide (a ≤ b))).Pairwise (· ≤ ·) := by
  have h : (xs.mergeSort (fun a b => decide (a ≤ b))).Pairwise (fun a b => decide (a ≤ b) = true) := by
    apply List.pairwise_mergeSort
    · intro a b c hab hbc
      exact decide_eq_true ((of_decide_eq_true hab).trans (of_decide_eq_true hbc))
    · intro a b
      rw [Bool.or_eq_true, decide_eq_true_iff, decide_eq_true_iff]
      exact le_total a b
  exact h.imp of_decide_eq_true

theorem mem_of_mem_smallest (h : a ∈ smallest k xs) : a ∈ xs := (xs.mergeSort_perm _).mem_iff.mp (List.mem_of_mem_take h)

theorem nodup_smallest (h : xs.Nodup) : (smallest k xs).Nodup :=
  (List.take_sublist k _).nodup ((xs.mergeSort_perm _).nodup_iff.mpr h)

theorem length_smallest (k : ℕ) (xs : List α) : (smallest k xs).length = min k xs.length := by
  rw [smallest, List.length_take, List.length_mergeSort]

/-- The order in which the elements come does not matter. -/
theorem smallest_eq_of_perm (h : xs.Perm ys) : smallest k xs = smallest k ys := by
  have hperm : (xs.mergeSort (fun a b => decide (a ≤ b))).Perm (ys.mergeSort (fun a b => decide (a ≤ b))) :=
    (xs.mergeSort_perm _).trans (h.trans (ys.mergeSort_perm _).symm)
  rw [smallest, hperm.eq_of_pairwise (fun _ _ _ _ => le_antisymm) (pairwise_sorted xs) (pairwise_sorted ys), smallest]

/-- What is left out is not smaller. -/
theorem le_of_mem_smallest (ha : a ∈ smallest k xs) (hb : b ∈ xs) (hout : b ∉ smallest k xs) : a ≤ b := by
  have hsorted := pairwise_sorted xs
  rw [← List.take_append_drop k (xs.mergeSort (fun a b => decide (a ≤ b)))] at hsorted
  refine (List.pairwise_append.mp hsorted).2.2 a ha b ?_
  have hmem : b ∈ xs.mergeSort (fun a b => decide (a ≤ b)) := (xs.mergeSort_perm _).mem_iff.mpr hb
  rw [← List.take_append_drop k (xs.mergeSort (fun a b => decide (a ≤ b))), List.mem_append] at hmem
  exact hmem.resolve_left hout

/-- The selection by rank. -/
theorem mem_smallest_iff (hnodup : xs.Nodup) : a ∈ smallest k xs ↔ a ∈ xs ∧ (xs.filter (fun b => decide (b < a))).length < k := by
  constructor
  · intro ha
    refine ⟨mem_of_mem_smallest ha, ?_⟩
    have hsub : xs.filter (fun b => decide (b < a)) ⊆ (smallest k xs).erase a := by
      intro b hb
      obtain ⟨hmem, hlt⟩ := List.mem_filter.mp hb
      have hlt' : b < a := of_decide_eq_true hlt
      refine (List.mem_erase_of_ne hlt'.ne).mpr ?_
      by_contra hout
      exact absurd (le_of_mem_smallest ha hmem hout) (not_le.mpr hlt')
    have hle := (List.subperm_of_subset (hnodup.filter _) hsub).length_le
    have hpos := List.length_pos_of_mem ha
    rw [List.length_erase_of_mem ha, length_smallest] at hle
    rw [length_smallest] at hpos
    omega
  · rintro ⟨hmem, hrank⟩
    by_contra hout
    -- All that is selected is smaller, so there were not `k` to select.
    have hsub : smallest k xs ⊆ xs.filter (fun b => decide (b < a)) := by
      intro b hb
      refine List.mem_filter.mpr ⟨mem_of_mem_smallest hb, decide_eq_true ?_⟩
      refine lt_of_le_of_ne (le_of_mem_smallest hb hmem hout) ?_
      rintro rfl
      exact hout hb
    have hle := (List.subperm_of_subset (nodup_smallest hnodup) hsub).length_le
    rw [length_smallest] at hle
    have hall : smallest k xs = xs.mergeSort (fun a b => decide (a ≤ b)) := by
      rw [smallest, List.take_of_length_le]
      rw [List.length_mergeSort]
      omega
    rw [hall] at hout
    exact hout ((xs.mergeSort_perm _).mem_iff.mpr hmem)

end ScatterWeb.Lib
