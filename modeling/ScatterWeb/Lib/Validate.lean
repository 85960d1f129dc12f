import Mathlib.Data.Option.Basic

/-! # Validators

A validator is a chain of checks and reads in `Except`, each of which may throw. What it has established when it returns is
read off by `simp` with `bind_eq_ok` and one lemma for each kind of link; on an input that is known it is run with `ok_bind`
and the equations of the links. -/
namespace ScatterWeb.Lib
set_option autoImplicit false

variable {ε α β γ : Type}

def check (p : Prop) [Decidable p] (e : ε) : Except ε Unit := if p then .ok () else .error e

def orThrow (a : Option α) (e : ε) : Except ε α :=
  match a with
  | some a => .ok a
  | none => .error e

theorem bind_eq_ok {x : Except ε α} {f : α → Except ε β} {b : β} : x >>= f = .ok b ↔ ∃ a, x = .ok a ∧ f a = .ok b := by
  cases x with
  | error e => simp [bind, Except.bind]
  | ok a => simp [bind, Except.bind]

theorem map_ok {x : Except ε α} {f : α → β} {b : β} (h : x.map f = .ok b) : ∃ a, x = .ok a ∧ f a = b := by
  cases x with
  | error e => cases h
  | ok a => exact ⟨a, rfl, Except.ok.inj h⟩

theorem pure_eq_ok {a b : α} : (pure a : Except ε α) = .ok b ↔ a = b := by
  simp [pure, Except.pure]

theorem check_eq_ok {p : Prop} [Decidable p] {e : ε} {u : Unit} : check p e = .ok u ↔ p := by
  by_cases h : p
  · simp [check, h]
  · simp [check, h]

theorem orThrow_eq_ok {o : Option α} {e : ε} {a : α} : orThrow o e = .ok a ↔ o = some a := by
  cases o with
  | none => simp [orThrow]
  | some b => simp [orThrow]

/-! ## Running a validator -/

theorem ok_bind (a : α) (f : α → Except ε β) : (Except.ok a >>= f) = f a := rfl

theorem error_bind (e : ε) (f : α → Except ε β) : (Except.error e >>= f) = .error e := rfl

theorem orThrow_some (a : α) (e : ε) : orThrow (some a) e = .ok a := rfl

theorem check_pos {p : Prop} [Decidable p] (h : p) (e : ε) : check p e = .ok () := if_pos h

theorem check_neg {p : Prop} [Decidable p] (h : ¬p) (e : ε) : check p e = .error e := if_neg h

/-- A list of reads returns when each of them does. -/
theorem mapM_map_eq_ok {f : β → Except ε γ} {g : α → β} {h : α → γ} (hf : ∀ a, f (g a) = .ok (h a)) (as : List α) :
    (as.map g).mapM f = .ok (as.map h) := by
  induction as with
  | nil => rfl
  | cons a as ih =>
    rw [List.map_cons, List.mapM_cons, hf a, ih]
    rfl

end ScatterWeb.Lib
