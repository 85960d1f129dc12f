import Mathlib.Data.List.Lex
import Mathlib.Data.UInt

/-! # Maps with ordered keys

An association list in the order of its keys, as the ordered maps of libraries are walked through. `put` replaces the value of a key
or takes the key in at its place. -/
namespace ScatterWeb.Lib.SortedMap
set_option autoImplicit false

/-- Bytes in the order of their values, so that byte strings have the lexicographic one. -/
instance byteOrder : LinearOrder UInt8 where
  le_refl := UInt8.le_refl
  le_trans _ _ _ := UInt8.le_trans
  lt_iff_le_not_ge a b := by
    rw [UInt8.lt_iff_toNat_lt, UInt8.le_iff_toNat_le, UInt8.le_iff_toNat_le]
    omega
  le_antisymm _ _ := UInt8.le_antisymm
  le_total := UInt8.le_total
  toDecidableLE := inferInstance

variable {κ α β : Type} [LinearOrder κ]

def Sorted (l : List (κ × α)) : Prop := (l.map Prod.fst).Pairwise (· < ·)

instance decidableSorted (l : List (κ × α)) : Decidable (Sorted l) := inferInstanceAs (Decidable ((l.map Prod.fst).Pairwise (· < ·)))

def put (k : κ) (a : α) : List (κ × α) → List (κ × α)
  | [] => [(k, a)]
  | (k', a') :: l => if k < k' then (k, a) :: (k', a') :: l else if k = k' then (k, a) :: l else (k', a') :: put k a l

/-- The pairs are put in one after the other, so the last one with a key stays. -/
def putAll (l acc : List (κ × α)) : List (κ × α) := l.foldl (fun acc e => put e.1 e.2 acc) acc

variable {k : κ} {a : α} {l acc : List (κ × α)} {e : κ × α}

theorem mem_put (h : e ∈ put k a l) : e = (k, a) ∨ e ∈ l := by
  induction l with
  | nil => exact Or.inl (List.mem_singleton.mp h)
  | cons e' l ih =>
    obtain ⟨k', a'⟩ := e'
    unfold put at h
    split_ifs at h with hlt heq
    · exact List.mem_cons.mp h
    · rcases List.mem_cons.mp h with hnew | hold
      · exact Or.inl hnew
      · exact Or.inr (List.mem_cons_of_mem _ hold)
    · rcases List.mem_cons.mp h with hfirst | hrest
      · exact Or.inr (hfirst ▸ List.mem_cons_self)
      · exact (ih hrest).imp_right (List.mem_cons_of_mem _)

theorem sorted_cons {k' : κ} {a' : α} : Sorted ((k', a') :: l) ↔ (∀ e ∈ l, k' < e.1) ∧ Sorted l := by
  unfold Sorted
  rw [List.map_cons, List.pairwise_cons]
  simp only [List.forall_mem_map]

theorem Sorted.put (h : Sorted l) (k : κ) (a : α) : Sorted (put k a l) := by
  induction l with
  | nil => exact List.pairwise_singleton _ _
  | cons e' l ih =>
    obtain ⟨k', a'⟩ := e'
    obtain ⟨hfirst, hrest⟩ := sorted_cons.mp h
    unfold SortedMap.put
    split_ifs with hlt heq
    · refine sorted_cons.mpr ⟨?_, h⟩
      intro e he
      rcases List.mem_cons.mp he with rfl | he
      · exact hlt
      · exact hlt.trans (hfirst e he)
    · exact sorted_cons.mpr ⟨heq ▸ hfirst, hrest⟩
    · refine sorted_cons.mpr ⟨?_, ih hrest⟩
      intro e he
      rcases mem_put he with rfl | he
      · exact lt_of_le_of_ne (not_lt.mp hlt) (Ne.symm heq)
      · exact hfirst e he

/-- What is found after `put`: the new value under its key, and the old ones under the others. -/
theorem find_put [DecidableEq κ] (k : κ) (a : α) (l : List (κ × α)) (k' : κ) :
    (put k a l).find? (fun e => decide (e.1 = k')) = if k = k' then some (k, a) else l.find? (fun e => decide (e.1 = k')) := by
  induction l with
  | nil =>
    by_cases hk : k = k'
    · simp [put, hk]
    · simp [put, hk]
  | cons e l ih =>
    obtain ⟨k₁, a₁⟩ := e
    by_cases hk : k = k'
    · rw [if_pos hk] at ih ⊢
      unfold put
      split_ifs with hlt heq
      · simp [hk]
      · simp [hk]
      · have hk₁ : ¬k₁ = k' := fun h => heq (hk.trans h.symm)
        rw [List.find?_cons_of_neg (by simpa using hk₁), ih]
    · rw [if_neg hk] at ih ⊢
      unfold put
      split_ifs with hlt heq
      · rw [List.find?_cons_of_neg (by simpa using hk)]
      · rw [List.find?_cons_of_neg (by simpa using hk), List.find?_cons_of_neg (by simpa using heq ▸ hk)]
      · rw [List.find?_cons, List.find?_cons, ih]

theorem mem_putAll (h : e ∈ putAll l acc) : e ∈ l ∨ e ∈ acc := by
  induction l generalizing acc with
  | nil => exact Or.inr h
  | cons e' l ih =>
    rcases ih h with hl | hput
    · exact Or.inl (List.mem_cons_of_mem _ hl)
    · rcases mem_put hput with rfl | hacc
      · exact Or.inl List.mem_cons_self
      · exact Or.inr hacc

/-- A key above all others goes to the end. -/
theorem put_of_lt (h : ∀ e ∈ l, e.1 < k) : put k a l = l ++ [(k, a)] := by
  induction l with
  | nil => rfl
  | cons e l ih =>
    obtain ⟨k', a'⟩ := e
    have hk : k' < k := h _ List.mem_cons_self
    rw [put, if_neg hk.asymm, if_neg hk.ne', ih (fun e he => h e (List.mem_cons_of_mem _ he)), List.cons_append]

/-- Pairs that come in the order of their keys stay as they are. -/
theorem putAll_of_sorted (h : Sorted (acc ++ l)) : putAll l acc = acc ++ l := by
  induction l generalizing acc with
  | nil => exact (List.append_nil acc).symm
  | cons e l ih =>
    have hlast : ∀ e' ∈ acc, e'.1 < e.1 := by
      unfold Sorted at h
      rw [List.map_append, List.pairwise_append] at h
      intro e' he'
      exact h.2.2 _ (List.mem_map_of_mem he') _ (List.mem_map_of_mem List.mem_cons_self)
    have hnext : putAll (e :: l) acc = putAll l (acc ++ [e]) := by
      rw [putAll, List.foldl_cons, put_of_lt hlast]
      rfl
    rw [hnext, ih (by simpa using h)]
    simp

end ScatterWeb.Lib.SortedMap
