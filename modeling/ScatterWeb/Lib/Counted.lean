import Mathlib.Data.Nat.Notation

/-! # Computations that count

A computation with state and exceptions that counts beside them. It is another computation with a count where every run of it is a run of
the other one, result or exception, `withCount`. -/
namespace ScatterWeb.Lib
set_option autoImplicit false

abbrev CountedM (ε σ : Type) := EStateM ε (σ × ℕ)

namespace CountedM
variable {ε σ α β : Type}

/-- A result with its count. -/
def withCount (n : ℕ) : EStateM.Result ε σ α → EStateM.Result ε (σ × ℕ) α
  | .ok a s => .ok a (s, n)
  | .error e s => .error e (s, n)

def count : EStateM.Result ε (σ × ℕ) α → ℕ
  | .ok _ s => s.2
  | .error _ s => s.2

/-- A computation that counts nothing. -/
def uncounted (m : EStateM ε σ α) : CountedM ε σ α := fun s => withCount s.2 (m s.1)

def tick : CountedM ε σ Unit := fun s => .ok () (s.1, s.2 + 1)

variable {m : EStateM ε σ α} {s s' : σ} {n k : ℕ} {a : α} {e : ε}

@[simp] theorem count_withCount (n : ℕ) (r : EStateM.Result ε σ α) : count (withCount n r) = n := by
  cases r with
  | ok a s => rfl
  | error e s => rfl

theorem run_get_bind (f : σ → CountedM ε σ β) (s : σ) (n : ℕ) : (uncounted get >>= f).run (s, n) = (f s).run (s, n) := rfl

theorem run_set_bind (t : σ) (f : PUnit → CountedM ε σ β) (s : σ) (n : ℕ) : (uncounted (set t) >>= f).run (s, n) = (f ⟨⟩).run (t, n) := rfl

theorem run_tick_bind (f : Unit → CountedM ε σ β) (s : σ) (n : ℕ) : (tick >>= f).run (s, n) = (f ()).run (s, n + 1) := rfl

/-- What follows a computation that returns. -/
theorem run_bind_of_ok {m' : CountedM ε σ α} {f : α → CountedM ε σ β} (h : m'.run (s, n) = withCount k (.ok a s')) :
    (m' >>= f).run (s, n) = (f a).run (s', k) := by
  rw [EStateM.run_bind, h]
  rfl

theorem run_bind_of_error {m' : CountedM ε σ α} {f : α → CountedM ε σ β} (h : m'.run (s, n) = withCount k (.error e s')) :
    (m' >>= f).run (s, n) = withCount k (.error e s') := by
  rw [EStateM.run_bind, h]
  rfl

end CountedM

end ScatterWeb.Lib
