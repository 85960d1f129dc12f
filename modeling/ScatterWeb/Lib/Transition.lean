import Mathlib.Logic.Relation

/-! # Runs of a labelled transition system

A system is a relation `step s e t` between a state, an event and a next state. `Run step s es t`
is the finite execution that starts in `s`, takes the events `es` in order and ends in `t`; the last
event is the outermost constructor, so an invariant is proved by looking at one more step. `Since P Q` speaks about
the events of an execution, and `Along` about the steps of a deterministic one. -/
namespace ScatterWeb.Lib
set_option autoImplicit false

section Runs
variable {σ ε : Type*}

inductive Run (step : σ → ε → σ → Prop) (s : σ) : List ε → σ → Prop
  | nil : Run step s [] s
  | snoc {es : List ε} {t u : σ} {e : ε} : Run step s es t → step t e u → Run step s (es ++ [e]) u

def Reachable (step : σ → ε → σ → Prop) (s t : σ) : Prop := ∃ es, Run step s es t

variable {step : σ → ε → σ → Prop} {s t u : σ} {es : List ε} {e : ε}

theorem Reachable.refl (step : σ → ε → σ → Prop) (s : σ) : Reachable step s s := ⟨[], Run.nil⟩

theorem Reachable.tail (h : Reachable step s t) (hs : step t e u) : Reachable step s u := by
  obtain ⟨es, hr⟩ := h
  exact ⟨es ++ [e], hr.snoc hs⟩

/-- The invariant rule: what holds at the start and is kept by every step holds at the end. -/
theorem Run.invariant (Inv : σ → Prop) (h0 : Inv s)
    (hstep : ∀ t e u, Inv t → step t e u → Inv u) (hr : Run step s es t) : Inv t := by
  induction hr with
  | nil => exact h0
  | snoc _ hs ih => exact hstep _ _ _ ih hs

theorem Reachable.invariant (Inv : σ → Prop) (h0 : Inv s)
    (hstep : ∀ t e u, Inv t → step t e u → Inv u) (h : Reachable step s t) : Inv t := by
  obtain ⟨es, hr⟩ := h
  exact hr.invariant Inv h0 hstep

/-- An execution of a system with more guards is an execution of the system with fewer. -/
theorem Reachable.mono {step' : σ → ε → σ → Prop} (hsub : ∀ t e u, step t e u → step' t e u)
    (h : Reachable step s t) : Reachable step' s t := by
  refine h.invariant (fun t => Reachable step' s t) (Reachable.refl step' s) ?_
  intro t e u ht hs
  exact ht.tail (hsub t e u hs)

end Runs

section Histories
variable {ε : Type*}

/-- In the events so far there was one with `P`, and all after it have `Q`. -/
def Since (P Q : ε → Prop) (es : List ε) : Prop := ∃ before e after, es = before ++ e :: after ∧ P e ∧ ∀ e' ∈ after, Q e'

variable {P Q : ε → Prop} {es : List ε} {e : ε}

theorem not_since_nil : ¬Since P Q [] := by
  rintro ⟨before, e, after, h, _⟩
  cases before <;> cases h

theorem since_snoc : Since P Q (es ++ [e]) ↔ P e ∨ (Q e ∧ Since P Q es) := by
  constructor
  · rintro ⟨before, e', after, h, hP, hQ⟩
    rcases List.eq_nil_or_concat after with rfl | ⟨after, last, rfl⟩
    · obtain ⟨_, he⟩ := List.append_inj' h rfl
      cases he
      exact Or.inl hP
    · rw [List.concat_eq_append] at h hQ
      rw [← List.cons_append, ← List.append_assoc] at h
      obtain ⟨hes, he⟩ := List.append_inj' h rfl
      cases he
      exact Or.inr ⟨hQ e (by simp), before, e', after, hes, hP, fun e'' h'' => hQ e'' (by simp [h''])⟩
  · rintro (hP | ⟨hQ, before, e', after, h, hP, hafter⟩)
    · exact ⟨es, e, [], rfl, hP, fun _ h => nomatch h⟩
    · refine ⟨before, e', after ++ [e], ?_, hP, ?_⟩
      · rw [h, List.append_assoc, List.cons_append]
      · intro e'' h''
        rcases List.mem_append.mp h'' with h'' | h''
        · exact hafter e'' h''
        · rw [List.mem_singleton.mp h'']
          exact hQ

end Histories

section Machines
variable {σ ε : Type*} (next : σ → ε → σ)

/-- `P` holds of every state and event of the execution that starts in `s`. -/
def Along (P : σ → ε → Prop) : σ → List ε → Prop
  | _, [] => True
  | s, e :: es => P s e ∧ Along P (next s e) es

variable {next} {P Q : σ → ε → Prop}

/-- Two properties of steps that agree wherever an invariant holds, which the first keeps, hold along the same executions. -/
theorem along_iff (Inv : σ → Prop) (hiff : ∀ s e, Inv s → (P s e ↔ Q s e)) (hkeep : ∀ s e, Inv s → P s e → Inv (next s e))
    {s : σ} (h0 : Inv s) (es : List ε) : Along next P s es ↔ Along next Q s es := by
  induction es generalizing s with
  | nil => exact Iff.rfl
  | cons e es ih =>
    constructor
    · rintro ⟨hP, hrest⟩
      exact ⟨(hiff s e h0).mp hP, (ih (hkeep s e h0 hP)).mp hrest⟩
    · rintro ⟨hQ, hrest⟩
      have hP := (hiff s e h0).mpr hQ
      exact ⟨hP, (ih (hkeep s e h0 hP)).mpr hrest⟩

/-- With an invariant that it keeps, the second property gives the first along every execution. -/
theorem along_of_invariant (Inv : σ → Prop) (hstep : ∀ s e, Inv s → Q s e → P s e ∧ Inv (next s e)) {s : σ} (h0 : Inv s)
    {es : List ε} (h : Along next Q s es) : Along next P s es := by
  induction es generalizing s with
  | nil => exact trivial
  | cons e es ih =>
    obtain ⟨hQ, hrest⟩ := h
    obtain ⟨hP, hnext⟩ := hstep s e h0 hQ
    exact ⟨hP, ih hnext hrest⟩

/-- An invariant that the steps of an execution keep holds at its end. -/
theorem along_foldl (Inv : σ → Prop) (hstep : ∀ s e, Inv s → P s e → Inv (next s e)) {s : σ} (h0 : Inv s) {es : List ε}
    (h : Along next P s es) : Inv (es.foldl next s) := by
  induction es generalizing s with
  | nil => exact h0
  | cons e es ih => exact ih (hstep s e h0 h.1) h.2

end Machines

end ScatterWeb.Lib
