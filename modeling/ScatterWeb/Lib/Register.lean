import Mathlib.Data.Multiset.AddSub

/-! # A register that every event overwrites

After some events the register holds what the last of them wrote. So the order of a multiset of events does not matter
exactly when all of them write the same. -/
namespace ScatterWeb.Lib
set_option autoImplicit false

section Register
variable {ε α : Type*} (write : ε → α)

def overwrite (a : α) (es : List ε) : α := es.foldl (fun _ e => write e) a

variable {write} {a b : α} {es : List ε} {E : Multiset ε}

theorem overwrite_concat (e : ε) : overwrite write a (es ++ [e]) = write e := by
  unfold overwrite
  rw [List.foldl_append]
  rfl

theorem overwrite_of_forall (hne : es ≠ []) (h : ∀ e ∈ es, write e = b) : overwrite write a es = b := by
  rcases List.eq_nil_or_concat es with rfl | ⟨init, last, rfl⟩
  · exact absurd rfl hne
  · rw [List.concat_eq_append] at h ⊢
    rw [overwrite_concat]
    exact h last (by simp)

/-- Any event of a multiset can be the last one. -/
theorem exists_overwrite_eq (write : ε → α) (a : α) {e : ε} (he : e ∈ E) :
    ∃ es : List ε, (es : Multiset ε) = E ∧ overwrite write a es = write e := by
  obtain ⟨rest, rfl⟩ := Multiset.exists_cons_of_mem he
  induction rest using Quotient.inductionOn with
  | h rest =>
    refine ⟨rest ++ [e], ?_, overwrite_concat e⟩
    have hperm : (rest ++ [e]).Perm (e :: rest) := List.perm_append_singleton e rest
    exact Multiset.coe_eq_coe.mpr hperm

theorem overwrite_order_free_iff : (∀ es es' : List ε, (es : Multiset ε) = E → (es' : Multiset ε) = E →
    overwrite write a es = overwrite write a es') ↔ ∀ e ∈ E, ∀ e' ∈ E, write e = write e' := by
  constructor
  · intro h e he e' he'
    obtain ⟨es, hes, hlast⟩ := exists_overwrite_eq write a he
    obtain ⟨es', hes', hlast'⟩ := exists_overwrite_eq write a he'
    rw [← hlast, ← hlast']
    exact h es es' hes hes'
  · rintro h es es' rfl hes'
    cases es with
    | nil =>
      have hnil : es' = [] := (Multiset.coe_eq_zero es').mp hes'
      rw [hnil]
    | cons e es =>
      have hwrite : ∀ e' ∈ e :: es, write e' = write e := fun e' he' => h e' he' e List.mem_cons_self
      have hne : es' ≠ [] := by
        rintro rfl
        exact List.cons_ne_nil e es ((Multiset.coe_eq_zero (e :: es)).mp hes'.symm)
      rw [overwrite_of_forall (List.cons_ne_nil e es) hwrite, overwrite_of_forall hne]
      intro e' he'
      have hmem : e' ∈ (es' : Multiset ε) := he'
      rw [hes'] at hmem
      exact hwrite e' hmem

end Register

end ScatterWeb.Lib
