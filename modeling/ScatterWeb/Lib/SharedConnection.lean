import ScatterWeb.Lib.Connection
import Mathlib.Logic.Function.Iterate

/-! # One connection, many threads

Threads take turns on one connection. What one of them writes while another has a transaction open is part of that transaction: the other
commits it, and takes it back when it gives the transaction up. `turn_cases` is what one turn can do to the contents that the threads see;
`Finishes` is a job that nobody interrupts. -/
namespace ScatterWeb.Lib.SharedConnection
set_option autoImplicit false

/-! ## Jobs -/

inductive Call (κ : Type)
  | begin
  | commit
  | rollback
  | command (k : κ)
  /-- A write to a member of the process, which no rollback undoes. -/
  | assign (k : κ)

/-- What a thread still has to do: it goes on with what it reads, and where a call throws, with what is done about that. -/
inductive Job (δ κ : Type)
  | done
  /-- An exception where there must be none. -/
  | terminate
  /-- An exception ends the job. -/
  | read (next : δ → Job δ κ)
  | call (c : Call κ) (next thrown : Job δ κ)

/-- Every command has `P`. -/
def Call.All {κ : Type} (P : κ → Prop) : Call κ → Prop
  | .command k => P k
  | .assign k => P k
  | _ => True

namespace Job
variable {δ κ : Type}

/-- The same for a job, whatever is read in it. -/
def All (P : κ → Prop) : Job δ κ → Prop
  | .done => True
  | .terminate => True
  | .read next => ∀ d, (next d).All P
  | .call c next thrown => c.All P ∧ next.All P ∧ thrown.All P

/-- One command on its own. -/
def command (k : κ) : Job δ κ := .call (.command k) .done .done

/-- The destructor of the guard. -/
def unwind : Job δ κ := .call .rollback .done .terminate

/-- The commands of an open transaction. -/
def guarded : List κ → Job δ κ
  | [] => .call .commit .done unwind
  | k :: ks => .call (.command k) (guarded ks) unwind

/-- The commands in a transaction whose guard rolls it back unless it was committed. -/
def transaction (ks : List κ) : Job δ κ := .call .begin (guarded ks) .done

variable {P : κ → Prop}

end Job

/-! ## Turns -/

/-- The threads and their connection. -/
structure System (δ κ : Type) where
  conn : Conn δ
  jobs : List (Job δ κ)

section Turns
variable {δ κ : Type} (run : κ → Statement δ) (boot : δ → δ)

def everywhere (f : δ → δ) (conn : Conn δ) : Conn δ := ⟨f conn.disk, conn.pending.map f⟩

def Call.on (conn : Conn δ) (fate : Fate) : Call κ → Conn δ × Option Exit
  | .begin => conn.begin fate
  | .commit => conn.commit fate
  | .rollback => conn.rollback fate
  | .command k => conn.exec (run k) fate
  | .assign k => conn.call (some (everywhere (fun d => (run k d).getD d) conn)) fate

/-- The connection, and what is left to do if the process goes on. -/
def follow (r : Conn δ × Option Exit) (next thrown : Job δ κ) : Conn δ × Option (Job δ κ) :=
  (r.1, match r.2 with
    | none => some next
    | some .threw => some thrown
    | some .stopped => none)

def Job.turn (conn : Conn δ) (fate : Fate) : Job δ κ → Conn δ × Option (Job δ κ)
  | .done => (conn, some .done)
  | .terminate => (conn, none)
  | .read next => follow (conn.call (some conn) fate) (next conn.view) .done
  | .call c next thrown => follow (c.on run conn fate) next thrown

/-- The command that the next call of the job carries out. -/
def Job.performs (fate : Fate) : Job δ κ → Option κ
  | .call (.command k) _ _ => if fate = .done then some k else none
  | .call (.assign k) _ _ => if fate = .done then some k else none
  | _ => none

/-- A transaction that is open does not outlive the turn, and is not committed. -/
def Job.GivesUp (fate : Fate) : Job δ κ → Prop
  | .done => False
  | .terminate => True
  | .call .rollback _ _ => fate ≠ .failed
  | _ => fate = .failedRolledBack ∨ fate = .stopped

namespace System

/-- The threads of a process that has just opened the database. -/
def idle (d : δ) : System δ κ := ⟨⟨d, none⟩, []⟩

/-- The process ends, and a new one opens the database. -/
def restarted (s : System δ κ) : System δ κ := idle (boot s.conn.disk)

def started (s : System δ κ) (job : Job δ κ) : System δ κ := { s with jobs := s.jobs ++ [job] }

def turn (s : System δ κ) (i : ℕ) (fate : Fate) : System δ κ :=
  match s.jobs[i]? with
  | none => s
  | some job =>
    match job.turn run s.conn fate with
    | (conn, none) => restarted boot { s with conn }
    | (conn, some job) => ⟨conn, s.jobs.set i job⟩

def performs (s : System δ κ) (i : ℕ) (fate : Fate) : Option κ := s.jobs[i]?.bind (Job.performs fate)

def GivesUp (s : System δ κ) (i : ℕ) (fate : Fate) : Prop := ∃ job, s.jobs[i]? = some job ∧ job.GivesUp fate

end System

variable {run boot} {s : System δ κ} {job job' : Job δ κ} {conn conn' : Conn δ} {i : ℕ} {fate : Fate} {P : κ → Prop}

/-- The contents that the threads see after a turn. -/
inductive Seen (run : κ → Statement δ) (boot : δ → δ) (s : System δ κ) (i : ℕ) (fate : Fate) : δ → Prop
  | same : Seen run boot s i fate s.conn.view
  | performed {k : κ} {d : δ} (hperforms : s.performs i fate = some k) (hrun : run k s.conn.view = some d) : Seen run boot s i fate d
  | lost (hgivesUp : s.GivesUp i fate) : Seen run boot s i fate s.conn.disk
  | restarted (hgivesUp : s.GivesUp i fate) : Seen run boot s i fate (boot s.conn.disk)

theorem Job.performs_cases {k : κ} (h : job.performs fate = some k) :
    fate = .done ∧ ∃ next thrown, job = .call (.command k) next thrown ∨ job = .call (.assign k) next thrown := by
  cases job with
  | done => cases h
  | terminate => cases h
  | read next => cases h
  | call c next thrown =>
    cases c with
    | command k' =>
      obtain ⟨hfate, hk⟩ := Option.ite_none_right_eq_some.mp h
      cases hk
      exact ⟨hfate, next, thrown, .inl rfl⟩
    | assign k' =>
      obtain ⟨hfate, hk⟩ := Option.ite_none_right_eq_some.mp h
      cases hk
      exact ⟨hfate, next, thrown, .inr rfl⟩
    | _ => cases h

theorem Job.of_performs {k : κ} (hall : job.All P) (h : job.performs fate = some k) : P k := by
  obtain ⟨_, next, thrown, rfl | rfl⟩ := Job.performs_cases h
  · exact hall.1
  · exact hall.1

/-- What a turn carries out was in a job. -/
theorem System.of_performs {k : κ} (hall : ∀ job ∈ s.jobs, job.All P) (h : s.performs i fate = some k) : P k := by
  obtain ⟨job, hjob, hk⟩ := Option.bind_eq_some_iff.mp h
  exact Job.of_performs (hall job (List.mem_of_getElem? hjob)) hk

/-! ## A job that nobody interrupts -/

/-- Turns of one thread alone, with a database that does its part. -/
inductive Finishes (run : κ → Statement δ) : Conn δ → Job δ κ → Conn δ → Prop
  | done {conn : Conn δ} : Finishes run conn .done conn
  | read {conn conn' : Conn δ} {next : δ → Job δ κ} : Finishes run conn (next conn.view) conn' → Finishes run conn (.read next) conn'
  | returned {conn conn' conn'' : Conn δ} {c : Call κ} {next thrown : Job δ κ} : c.on run conn .done = (conn', none) →
      Finishes run conn' next conn'' → Finishes run conn (.call c next thrown) conn''
  | threw {conn conn' conn'' : Conn δ} {c : Call κ} {next thrown : Job δ κ} : c.on run conn .done = (conn', some .threw) →
      Finishes run conn' thrown conn'' → Finishes run conn (.call c next thrown) conn''

theorem turn_of_job {left : Job δ κ} (hjob : s.jobs[i]? = some job) (h : job.turn run s.conn fate = (conn, some left)) :
    s.turn run boot i fate = ⟨conn, s.jobs.set i left⟩ := by
  unfold System.turn
  rw [hjob]
  dsimp only
  rw [h]

/-- The thread gets there by turns of its own. -/
theorem Finishes.turns (h : Finishes run conn job conn') (boot : δ → δ) {jobs : List (Job δ κ)} (hjob : jobs[i]? = some job) :
    ∃ n, (fun s => System.turn run boot s i .done)^[n] ⟨conn, jobs⟩ = ⟨conn', jobs.set i .done⟩ := by
  have hstep : ∀ {conn conn' conn'' : Conn δ} {job left : Job δ κ} {jobs : List (Job δ κ)}, jobs[i]? = some job →
      job.turn run conn .done = (conn', some left) →
      (∀ {jobs : List (Job δ κ)}, jobs[i]? = some left →
        ∃ n, (fun s => System.turn run boot s i .done)^[n] ⟨conn', jobs⟩ = ⟨conn'', jobs.set i .done⟩) →
      ∃ n, (fun s => System.turn run boot s i .done)^[n] ⟨conn, jobs⟩ = ⟨conn'', jobs.set i .done⟩ := by
    intro conn conn' conn'' job left jobs hjob hturn hrest
    obtain ⟨hlt, _⟩ := List.getElem?_eq_some_iff.mp hjob
    obtain ⟨n, hn⟩ := @hrest (jobs.set i left) (List.getElem?_set_self hlt)
    refine ⟨n + 1, ?_⟩
    rw [Function.iterate_succ_apply, show System.turn run boot ⟨conn, jobs⟩ i .done = ⟨conn', jobs.set i left⟩ from turn_of_job hjob hturn, hn,
      List.set_set]
  induction h generalizing jobs with
  | done =>
    obtain ⟨hlt, hget⟩ := List.getElem?_eq_some_iff.mp hjob
    refine ⟨0, ?_⟩
    rw [Function.iterate_zero_apply, ← hget, List.set_getElem_self]
  | read _ ih => exact hstep hjob rfl ih
  | returned hon _ ih => exact hstep hjob (by rw [Job.turn, hon]; rfl) ih
  | threw hon _ ih => exact hstep hjob (by rw [Job.turn, hon]; rfl) ih

theorem on_command_of_some {k : κ} {d : δ} (h : run k conn.view = some d) : (Call.command k).on run conn .done = (conn.write d, none) := by
  change conn.call ((run k conn.view).map conn.write) .done = _
  rw [h]
  rfl

theorem on_command_of_none {k : κ} (h : run k conn.view = none) : (Call.command k).on run conn .done = (conn, some .threw) := by
  change conn.call ((run k conn.view).map conn.write) .done = _
  rw [h]
  rfl

theorem finishes_command (k : κ) (d : δ) : Finishes run ⟨d, none⟩ (.command k) ⟨(run k d).getD d, none⟩ := by
  cases hrun : run k d with
  | none => exact .threw (on_command_of_none hrun) .done
  | some d' => exact .returned (on_command_of_some hrun) .done

theorem finishes_guarded (ks : List κ) (disk d : δ) :
    Finishes run ⟨disk, some d⟩ (.guarded ks) ⟨(applyAll (ks.map run) d).getD disk, none⟩ := by
  induction ks generalizing d with
  | nil => exact .returned rfl .done
  | cons k ks ih =>
    rw [List.map_cons, applyAll_cons]
    cases hrun : run k d with
    | none => exact .threw (on_command_of_none hrun) (.returned rfl .done)
    | some d' => exact .returned (on_command_of_some hrun) (ih d')

/-- Without interruption a transaction does all of its commands or none. -/
theorem finishes_transaction (ks : List κ) (d : δ) :
    Finishes run ⟨d, none⟩ (.transaction ks) ⟨(applyAll (ks.map run) d).getD d, none⟩ := .returned rfl (finishes_guarded ks d d)

end Turns

end ScatterWeb.Lib.SharedConnection
