import ScatterWeb.Lib.Transition

/-! # A thread that reads answers and runs handlers

A handler is a program that reads and changes a state and may call: it sends a request and waits for the answer. Answers and pushes come
over one connection, and one thread reads it; for a push this thread runs the handler itself. A call that it makes there waits for
an answer that nobody reads until the call is given up. -/
namespace ScatterWeb.Lib.HandlerThread
set_option autoImplicit false

/-- `step f k` replaces the state by `f` of it and goes on with `k` of what it was. -/
inductive Prog (σ ρ α β : Type)
  | done (b : β)
  | step (f : σ → σ) (k : σ → Prog σ ρ α β)
  | call (r : ρ) (k : α → Prog σ ρ α β)

namespace Prog
variable {σ ρ α β γ ι τ : Type}

def bind : Prog σ ρ α β → (β → Prog σ ρ α γ) → Prog σ ρ α γ
  | done b, f => f b
  | step g k, f => step g (fun s => (k s).bind f)
  | call r k, f => call r (fun a => (k a).bind f)

instance : Monad (Prog σ ρ α) where
  pure := done
  bind := bind

def get : Prog σ ρ α σ := step id done

def modify (f : σ → σ) : Prog σ ρ α Unit := step f (fun _ => done ())

def request (r : ρ) : Prog σ ρ α α := call r done

def forEach (f : ι → Prog σ ρ α Unit) : List ι → Prog σ ρ α Unit
  | [] => done ()
  | x :: xs => (f x).bind (fun _ => forEach f xs)

/-! ## Running a program -/

inductive Paused (σ ρ α β : Type)
  | done (b : β)
  | waiting (r : ρ) (k : α → Prog σ ρ α β)

/-- Up to the first call that is not answered at once. -/
def advance (answer : ρ → Option α) : Prog σ ρ α β → σ → σ × Paused σ ρ α β
  | done b, s => (s, .done b)
  | step f k, s => (k s).advance answer (f s)
  | call r k, s =>
    match answer r with
    | some a => (k a).advance answer s
    | none => (s, .waiting r k)

/-- To the end, with the answers of `oracle`. -/
def replay (oracle : τ → ρ → τ × α) : Prog σ ρ α β → σ → τ → σ × τ × β
  | done b, s, t => (s, t, b)
  | step f k, s, t => (k s).replay oracle (f s) t
  | call r k, s, t => (k (oracle t r).2).replay oracle s (oracle t r).1

/-- There is a call that is not answered at once. -/
def Pauses (answer : ρ → Option α) : Prog σ ρ α β → σ → Prop
  | done _, _ => False
  | step f k, s => (k s).Pauses answer (f s)
  | call r k, s =>
    match answer r with
    | some a => (k a).Pauses answer s
    | none => True

theorem pauses_iff {answer : ρ → Option α} (p : Prog σ ρ α β) (s : σ) :
    p.Pauses answer s ↔ ∃ r k, (p.advance answer s).2 = .waiting r k := by
  induction p generalizing s with
  | done b => simp [Pauses, advance]
  | step f k ih => exact ih s (f s)
  | call r k ih =>
    unfold Pauses advance
    cases answer r with
    | some a => exact ih a s
    | none => simp

/-- Nothing waits where every call is answered at once. -/
theorem not_pauses_of_answered {answer : ρ → Option α} (h : ∀ r, (answer r).isSome) (p : Prog σ ρ α β) (s : σ) : ¬p.Pauses answer s := by
  induction p generalizing s with
  | done b => exact id
  | step f k ih => exact ih s (f s)
  | call r k ih =>
    obtain ⟨a, ha⟩ := Option.isSome_iff_exists.mp (h r)
    rw [Pauses, ha]
    exact ih a s

section Equations
variable {answer : ρ → Option α} {s : σ}

@[simp] theorem pure_eq (b : β) : (pure b : Prog σ ρ α β) = done b := rfl

@[simp] theorem bind_eq (p : Prog σ ρ α β) (f : β → Prog σ ρ α γ) : p >>= f = p.bind f := rfl

@[simp] theorem done_bind (b : β) (f : β → Prog σ ρ α γ) : (done b).bind f = f b := rfl

@[simp] theorem get_bind (f : σ → Prog σ ρ α γ) : get.bind f = step id f := rfl

@[simp] theorem modify_bind (g : σ → σ) (f : Unit → Prog σ ρ α γ) : (modify g).bind f = step g (fun _ => f ()) := rfl

@[simp] theorem request_bind (r : ρ) (f : α → Prog σ ρ α γ) : (request r).bind f = call r f := rfl

@[simp] theorem done_pauses (b : β) : (done b : Prog σ ρ α β).Pauses answer s ↔ False := Iff.rfl

@[simp] theorem step_pauses (f : σ → σ) (k : σ → Prog σ ρ α β) : (step f k).Pauses answer s ↔ (k s).Pauses answer (f s) := Iff.rfl

/-- A call with nobody to answer it at once. -/
@[simp] theorem call_pauses (r : ρ) (k : α → Prog σ ρ α β) : (call r k).Pauses (fun _ => none) s ↔ True := Iff.rfl

theorem bind_pauses (p : Prog σ ρ α β) (f : β → Prog σ ρ α γ) (s : σ) :
    (p.bind f).Pauses answer s ↔ p.Pauses answer s ∨ ∃ b, (p.advance answer s).2 = .done b ∧ (f b).Pauses answer (p.advance answer s).1 := by
  induction p generalizing s with
  | done b => simp [advance]
  | step g k ih => exact ih s (g s)
  | call r k ih =>
    rw [bind, Pauses, Pauses, advance]
    cases answer r with
    | some a => exact ih a s
    | none => simp

theorem bind_replay (oracle : τ → ρ → τ × α) (p : Prog σ ρ α β) (f : β → Prog σ ρ α γ) (s : σ) (t : τ) :
    (p.bind f).replay oracle s t =
      (f (p.replay oracle s t).2.2).replay oracle (p.replay oracle s t).1 (p.replay oracle s t).2.1 := by
  induction p generalizing s t with
  | done b => rfl
  | step g k ih => exact ih s (g s) t
  | call r k ih => exact ih (oracle t r).2 s (oracle t r).1

end Equations

end Prog

/-! ## The thread -/

inductive Recv (σ ρ α : Type)
  | reading
  | waiting (id : UInt64) (r : ρ) (k : α → Prog σ ρ α Unit)
  | stopped

/-- `pending` has the ids of the calls that wait for an answer, of all threads. -/
structure State (σ ρ α : Type) where
  store : σ
  running : Bool
  nextId : UInt64
  pending : List UInt64
  recv : Recv σ ρ α

def State.initial {σ ρ α : Type} (store : σ) : State σ ρ α := ⟨store, true, 1, [], .reading⟩

/-- The receive thread reads a push, an answer or the end, or gives its own call up; other threads call, give up, change the store or
close the connection. -/
inductive Event (σ π : Type)
  | push (p : π)
  | response (id : UInt64)
  | eof
  | timeout
  | call
  | giveUp (id : UInt64)
  | change (store : σ)
  | disconnect

/-- How calls end without an answer. -/
structure Failures (ρ α : Type) where
  notConnected : ρ → α
  timedOut : ρ → α

section Thread
variable {σ ρ α π : Type} (fail : Failures ρ α) (handler : Bool → π → Prog σ ρ α Unit)

def State.answer (s : State σ ρ α) (r : ρ) : Option α := if s.running then none else some (fail.notConnected r)

def State.register (s : State σ ρ α) : State σ ρ α := { s with nextId := s.nextId + 1, pending := s.pending ++ [s.nextId] }

/-- The receive thread runs a program up to its next call. -/
def State.run (s : State σ ρ α) (p : Prog σ ρ α Unit) : State σ ρ α :=
  match p.advance (s.answer fail) s.store with
  | (store, .done _) => { s with store := store, recv := if s.running then .reading else .stopped }
  | (store, .waiting r k) => { s.register with store := store, recv := .waiting s.nextId r k }

/-- An answer is read only where the receive thread reads. -/
inductive Step : State σ ρ α → Event σ π → State σ ρ α → Prop
  | push {s : State σ ρ α} {p : π} (hreading : s.recv = .reading) : Step s (.push p) (s.run fail (handler s.running p))
  | response {s : State σ ρ α} {id : UInt64} (hreading : s.recv = .reading) :
      Step s (.response id) { s with pending := s.pending.erase id }
  | eof {s : State σ ρ α} (hreading : s.recv = .reading) : Step s .eof { s with running := false, recv := .stopped }
  | timeout {s : State σ ρ α} {id : UInt64} {r : ρ} {k : α → Prog σ ρ α Unit} (hwaiting : s.recv = .waiting id r k) :
      Step s .timeout ({ s with pending := s.pending.erase id }.run fail (k (fail.timedOut r)))
  | call {s : State σ ρ α} (hrunning : s.running = true) : Step s .call s.register
  | giveUp {s : State σ ρ α} {id : UInt64} : Step s (.giveUp id) { s with pending := s.pending.erase id }
  | change {s : State σ ρ α} {store : σ} : Step s (.change store) { s with store := store }
  | disconnect {s : State σ ρ α} : Step s .disconnect { s with running := false }

/-- The receive thread waits for an answer that only it could read. -/
def State.SelfWaits (s : State σ ρ α) : Prop := ∃ id r k, s.recv = .waiting id r k

/-- A push that is read while the connection is up is not one of `Calls`. -/
def Quiet (Calls : σ → π → Prop) (s : State σ ρ α) : Event σ π → Prop
  | .push p => s.running = true → ¬Calls s.store p
  | _ => True

variable {fail handler}

theorem run_selfWaits_iff (s : State σ ρ α) (p : Prog σ ρ α Unit) : (s.run fail p).SelfWaits ↔ p.Pauses (s.answer fail) s.store := by
  rw [Prog.pauses_iff]
  unfold State.run State.SelfWaits
  split
  · rename_i store b h
    cases hrunning : s.running with
    | true => simp [h]
    | false => simp [h]
  · rename_i store r k h
    simp [h]

/-- What the handler does on the receive thread, where it is known which pushes make it call. -/
theorem push_selfWaits_iff {Calls : σ → π → Prop} (hcalls : ∀ store p, (handler true p).Pauses (fun _ => none) store ↔ Calls store p)
    {s s' : State σ ρ α} {p : π} (h : Step fail handler s (.push p) s') : s'.SelfWaits ↔ s.running = true ∧ Calls s.store p := by
  cases h with
  | push hreading =>
    rw [run_selfWaits_iff]
    cases hrunning : s.running with
    | true =>
      have hanswer : s.answer fail = fun _ => none := by
        funext r
        simp [State.answer, hrunning]
      rw [hanswer, hcalls]
      simp
    | false =>
      have hanswer : ∀ r, (s.answer fail r).isSome := by simp [State.answer, hrunning]
      simpa using Prog.not_pauses_of_answered hanswer (handler false p) s.store

theorem exists_selfWaits {Calls : σ → π → Prop} (hcalls : ∀ store p, (handler true p).Pauses (fun _ => none) store ↔ Calls store p)
    {store : σ} {p : π} (h : Calls store p) : ∃ s, Reachable (Step fail handler) (State.initial store) s ∧ s.SelfWaits := by
  have hstep : Step fail handler (State.initial store) (.push p) _ := .push rfl
  exact ⟨_, (Reachable.refl _ _).tail hstep, (push_selfWaits_iff hcalls hstep).mpr ⟨rfl, h⟩⟩

/-- Where no push makes its handler call, the receive thread never waits for itself. -/
theorem not_selfWaits_of_quiet {Calls : σ → π → Prop} (hcalls : ∀ store p, (handler true p).Pauses (fun _ => none) store ↔ Calls store p)
    {store : σ} {s : State σ ρ α}
    (h : Reachable (fun s e s' => Step fail handler s e s' ∧ Quiet Calls s e) (State.initial store) s) : ¬s.SelfWaits := by
  refine h.invariant (fun s => ¬s.SelfWaits) ?_ ?_
  · rintro ⟨id, r, k, h⟩
    cases h
  · rintro s e s' hinv ⟨hstep, hquiet⟩
    cases e with
    | push p =>
      rw [push_selfWaits_iff hcalls hstep, not_and]
      exact hquiet
    | timeout =>
      cases hstep with
      | timeout hwaiting => exact absurd ⟨_, _, _, hwaiting⟩ hinv
    | eof =>
      cases hstep
      rintro ⟨id, r, k, h⟩
      cases h
    | response id =>
      cases hstep
      exact hinv
    | call =>
      cases hstep
      exact hinv
    | giveUp id =>
      cases hstep
      exact hinv
    | change store =>
      cases hstep
      exact hinv
    | disconnect =>
      cases hstep
      exact hinv

end Thread

end ScatterWeb.Lib.HandlerThread
