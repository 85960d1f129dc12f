import Mathlib.Data.List.Sort

/-! # Lists that are read in pages

A listing returns, for a cursor, the first entries of what is behind it. Reading starts somewhere and goes on behind the last page
until a page is empty. Where a list descends in a key and the cursor is the smallest key of the page, what is left is the rest of
the list, so the pages are the list. -/
namespace ScatterWeb.Lib
set_option autoImplicit false

section Scroll
variable {α κ : Type}

/-- Page after page, until one is empty; `none` when the fuel does not last. -/
def scroll (list : κ → List α) (next : List α → κ) : ℕ → κ → Option (List (List α))
  | 0, _ => none
  | fuel + 1, c => if (list c).isEmpty then some [] else (scroll list next fuel (next (list c))).map (fun ps => list c :: ps)

/-- The pages of a listing whose cursor goes on where a page ends are what is behind the first cursor, by induction on the fuel. -/
theorem scroll_spec {list : κ → List α} {next : List α → κ} {rest : κ → List α} {n : ℕ} (hn : 0 < n)
    (hlist : ∀ c, list c = (rest c).take n) (hnext : ∀ c, list c ≠ [] → rest (next (list c)) = (rest c).drop n)
    {fuel : ℕ} {c : κ} (hfuel : (rest c).length < fuel) : ∃ ps, scroll list next fuel c = some ps ∧ ps.flatten = rest c := by
  induction fuel generalizing c with
  | zero => omega
  | succ fuel ih =>
    rw [scroll]
    by_cases hnil : list c = []
    · have hrest : rest c = [] := by
        rw [hlist, List.take_eq_nil_iff] at hnil
        exact hnil.resolve_left hn.ne'
      refine ⟨[], ?_, hrest.symm⟩
      rw [hnil]
      rfl
    · have hlen : 0 < (rest c).length := by
        rw [List.length_pos_iff]
        intro hrest
        rw [hlist, hrest, List.take_nil] at hnil
        exact hnil rfl
      have hdrop := hnext c hnil
      obtain ⟨ps, hps, hflat⟩ := ih (c := next (list c)) (by rw [hdrop, List.length_drop]; omega)
      refine ⟨list c :: ps, ?_, ?_⟩
      · rw [if_neg (by simpa using hnil), hps]
        rfl
      · rw [List.flatten_cons, hflat, hdrop, hlist, List.take_append_drop]

end Scroll

section Descending
variable {α κ : Type} [LinearOrder κ] (key : α → κ)

def Descending (xs : List α) : Prop := xs.Pairwise (fun a b => key b < key a)

variable {key} {xs ys : List α}

theorem Descending.filter (h : Descending key xs) (p : α → Bool) : Descending key (xs.filter p) := List.Pairwise.filter p h

/-- There is one descending list of the same entries. -/
theorem Descending.eq_of_perm (hxs : Descending key xs) (hys : Descending key ys) (h : xs.Perm ys) : xs = ys :=
  List.Perm.eq_of_pairwise (fun _ _ _ _ hab hba => absurd hab hba.asymm) hxs hys h

/-- Behind the smallest key of the first entries are the others. -/
theorem Descending.filter_lt (h : Descending key xs) {n : ℕ} {a : α} (ha : a ∈ xs.take n) (hmin : ∀ b ∈ xs.take n, key a ≤ key b) :
    xs.filter (fun b => decide (key b < key a)) = xs.drop n := by
  have hsplit : Descending key (xs.take n ++ xs.drop n) := (List.take_append_drop n xs).symm ▸ h
  obtain ⟨_, _, hbelow⟩ := List.pairwise_append.mp hsplit
  have htake : (xs.take n).filter (fun b => decide (key b < key a)) = [] := by
    rw [List.filter_eq_nil_iff]
    intro b hb hlt
    exact absurd (of_decide_eq_true hlt) (hmin b hb).not_gt
  have hdrop : (xs.drop n).filter (fun b => decide (key b < key a)) = xs.drop n :=
    List.filter_eq_self.mpr (fun b hb => decide_eq_true (hbelow a ha b hb))
  conv_lhs => rw [← List.take_append_drop n xs]
  rw [List.filter_append, htake, hdrop, List.nil_append]

end Descending

/-- A function that can only make its arguments smaller, and gives back the entries of a list in some order, changes none of them. -/
theorem eq_self_of_perm_map {α : Type} {f : α → α} {size : α → ℕ} (hle : ∀ a, size (f a) ≤ size a) (heq : ∀ a, size (f a) = size a → f a = a)
    {xs : List α} (h : (xs.map f).Perm xs) : ∀ a ∈ xs, f a = a := by
  have hsum : ∀ xs : List α, ((xs.map f).map size).sum ≤ (xs.map size).sum ∧
      (((xs.map f).map size).sum = (xs.map size).sum → ∀ a ∈ xs, f a = a) := by
    intro xs
    induction xs with
    | nil => exact ⟨le_refl _, fun _ a ha => absurd ha List.not_mem_nil⟩
    | cons b xs ih =>
      obtain ⟨hrest, hfixed⟩ := ih
      have hb := hle b
      simp only [List.map_cons, List.sum_cons]
      refine ⟨by omega, ?_⟩
      intro hsame a ha
      rcases List.mem_cons.mp ha with rfl | hmem
      · exact heq a (by omega)
      · exact hfixed (by omega) a hmem
  exact (hsum xs).2 (h.map size).sum_nat

end ScatterWeb.Lib
