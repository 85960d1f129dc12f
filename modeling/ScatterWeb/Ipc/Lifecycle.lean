import Mathlib.Logic.Function.Basic
import ScatterWeb.Lib.Transition

/-! # Connections that are lost

`recv_loop` clears `running_` when it ends, and `disconnect` returns at once where `running_` is not set. So the thread of a connection
that the peer has closed is never joined. The next `connect` that succeeds assigns to the thread object, and the destructor destroys
it; both call `std::terminate`. A client process that has lost a daemon does not reach it again, and cannot end without an abort.
It also ends with one where `stop` cannot save the keystore, since nothing catches the exception.

Calls of `unlock`, `lock` and `stop` come one after another here; each is a single step, in which other threads see no difference. -/
namespace ScatterWeb.Ipc.Lifecycle
open Lib
set_option autoImplicit false

/-! ## One connection -/

/-- `recv_thread_`: not joinable, in its loop, or at its end and not joined. -/
inductive RecvThread
  | none
  | reading
  | finished
  deriving DecidableEq

/-- An `ipc::Client`. -/
structure Link where
  running : Bool
  thread : RecvThread
  inLoop : running = true ↔ thread = .reading

namespace Link

def fresh : Link := ⟨false, .none, by decide⟩

def connected : Link := ⟨true, .reading, by decide⟩

def lost : Link := ⟨false, .finished, by decide⟩

/-- `none` is `std::terminate`; the flag says that `connect` does not throw. It throws where there is no socket, the path is too long
or nobody listens. -/
def connect (accepted : Bool) (l : Link) : Option (Link × Bool) :=
  if accepted = false then some (l, false)
  else if l.thread = .none then some (connected, true)
  else none

def disconnect (l : Link) : Link := if l.running = false then l else fresh

/-- `recv_loop` has read the end of the stream. -/
def ended (l : Link) : Link := if l.running = false then l else lost

/-- The destructor: `disconnect`, then the destructor of the thread object. -/
def destroy (l : Link) : Option Unit := if l.disconnect.thread = .none then some () else none

variable {l l' : Link} {accepted ok : Bool}

theorem connect_eq_none_iff : l.connect accepted = none ↔ accepted = true ∧ l.thread ≠ .none := by
  unfold connect
  cases accepted with
  | false => simp
  | true => by_cases h : l.thread = .none <;> simp [h]

/-- A connection is made only where there is none that has to be joined. -/
theorem connect_cases (h : l.connect accepted = some (l', ok)) : l' = l ∨ (l.thread = .none ∧ l' = connected) := by
  unfold connect at h
  split at h
  · cases h
    exact Or.inl rfl
  · split at h
    · rename_i hnone
      cases h
      exact Or.inr ⟨hnone, rfl⟩
    · cases h

theorem connect_lost_iff (h : l.connect accepted = some (l', ok)) : l'.thread = .finished ↔ l.thread = .finished := by
  obtain rfl | ⟨hnone, rfl⟩ := connect_cases h
  · rfl
  · rw [hnone]
    decide

theorem disconnect_lost_iff : l.disconnect.thread = .finished ↔ l.thread = .finished := by
  unfold disconnect
  split
  · rfl
  · rename_i hrunning
    have hreading := l.inLoop.mp (Bool.not_eq_false _ ▸ hrunning)
    rw [hreading]
    decide

theorem disconnect_not_reading (l : Link) : l.disconnect.thread ≠ .reading := by
  unfold disconnect
  split
  · rename_i hrunning
    intro hreading
    rw [l.inLoop.mpr hreading] at hrunning
    cases hrunning
  · decide

theorem destroy_eq_none_iff : l.destroy = none ↔ l.thread = .finished := by
  have hnot := disconnect_not_reading l
  rw [← disconnect_lost_iff]
  unfold destroy
  cases hthread : l.disconnect.thread with
  | none => simp
  | reading => exact absurd hthread hnot
  | finished => simp

theorem running_false_of_finished (h : l.thread = .finished) : l.running = false := by
  rw [← Bool.not_eq_true]
  intro hrunning
  rw [l.inLoop.mp hrunning] at h
  cases h

end Link

/-! ## Inbox and Outbox -/

/-- A daemon and its connection to the AnonRouter. -/
structure Service where
  running : Bool := false
  router : Link := .fresh

namespace Service

/-- Where `connect` throws, so does `start`. -/
def start (accepted : Bool) (s : Service) : Option Service :=
  if s.running then some s else (s.router.connect accepted).map (fun r => ⟨true, r.1⟩)

def stop (s : Service) : Service := if s.running then ⟨false, s.router.disconnect⟩ else s

/-- The destructor. -/
def destroy (s : Service) : Option Unit := s.stop.router.destroy

end Service

inductive ServiceEvent
  | start (accepted : Bool)
  | stop
  | routerGone
  deriving DecidableEq

def nextService (s : Service) : ServiceEvent → Option Service
  | .start accepted => s.start accepted
  | .stop => some s.stop
  | .routerGone => some { s with router := s.router.ended }

/-- A step that the process survives. A connection ends if there is one. -/
def ServiceStep (s : Service) (e : ServiceEvent) (s' : Service) : Prop :=
  (e = .routerGone → s.router.running = true) ∧ nextService s e = some s'

/-! ## The Client -/

inductive Daemon
  | router
  | inbox
  | outbox
  deriving DecidableEq

/-- `background` says that `dht_thread_` and `cert_renew_thread_` are joinable. -/
structure Process where
  links : Daemon → Link
  unlocked : Bool
  background : Bool

/-- How the parts of `unlock` go: the keystore, the save of a new Key A, the connections, and the rest of `connect_services`. -/
structure UnlockEnv where
  opens : Bool
  keyA : Bool
  accepted : Daemon → Bool
  startup : Bool

namespace Process

def fresh : Process := ⟨fun _ => .fresh, false, false⟩

def setLink (p : Process) (d : Daemon) (l : Link) : Process := { p with links := Function.update p.links d l }

@[simp] theorem links_setLink_self (p : Process) (d : Daemon) (l : Link) : (p.setLink d l).links d = l := Function.update_self _ _ _

theorem links_setLink_of_ne {d d' : Daemon} (h : d' ≠ d) (p : Process) (l : Link) : (p.setLink d l).links d' = p.links d' :=
  Function.update_of_ne h _ _

def connect (accepted : Bool) (d : Daemon) (p : Process) : Option Process :=
  ((p.links d).connect accepted).map (fun r => p.setLink d r.1)

/-- An exception of `connect` is caught, and what comes after the connections finds some of them or none. -/
def connectServices (accepted : Daemon → Bool) (p : Process) : Option Process := do
  let p ← p.connect (accepted .router) .router
  let p ← p.connect (accepted .inbox) .inbox
  p.connect (accepted .outbox) .outbox

/-- Both threads are assigned to. -/
def startThreads (p : Process) : Option Process := if p.background then none else some { p with background := true }

def unlock (env : UnlockEnv) (p : Process) : Option Process :=
  if p.unlocked = true ∨ env.opens = false then some p
  else
    let p := { p with unlocked := true }
    if env.keyA = false then some p
    else do
      let p ← p.connectServices env.accepted
      if env.startup = false then some p else p.startThreads

def disconnectAll (p : Process) : Process := { p with links := fun d => (p.links d).disconnect }

/-- Where the keystore cannot be saved, `lock` throws before it joins the threads and disconnects. -/
def lock (saves : Bool) (p : Process) : Process :=
  if p.unlocked = true ∧ saves = false then p else { p.disconnectAll with unlocked := false, background := false }

/-- `stop`, and the destructors at the end of the process. `stop` is called by the signal handler or by the destructor of the client,
and an exception of the `save` at its end leaves both. -/
def stop (saves : Bool) (p : Process) : Option Unit :=
  if p.unlocked = true ∧ saves = false then none
  else do
    let p := { p.disconnectAll with background := false }
    (p.links .outbox).destroy
    (p.links .inbox).destroy
    (p.links .router).destroy

end Process

inductive Event
  | unlock (env : UnlockEnv)
  | lock (saves : Bool)
  | gone (d : Daemon)

def next (p : Process) : Event → Option Process
  | .unlock env => p.unlock env
  | .lock saves => some (p.lock saves)
  | .gone d => some (p.setLink d (p.links d).ended)

def Step (p : Process) (e : Event) (p' : Process) : Prop := (∀ d, e = .gone d → (p.links d).running = true) ∧ next p e = some p'

/-! ## What a run leaves -/

namespace Process
variable {p p' : Process} {d d' : Daemon} {accepted : Bool}

theorem connect_eq_none_iff : p.connect accepted d = none ↔ accepted = true ∧ (p.links d).thread ≠ .none := by
  unfold connect
  rw [Option.map_eq_none_iff, Link.connect_eq_none_iff]

/-- `connect` changes one link, and that only if it has none. -/
theorem connect_some (h : p.connect accepted d = some p') : p'.unlocked = p.unlocked ∧ p'.background = p.background ∧
    (∀ d', d' ≠ d → p'.links d' = p.links d') ∧ (p'.links d = p.links d ∨ ((p.links d).thread = .none ∧ p'.links d = .connected)) := by
  unfold connect at h
  obtain ⟨⟨l, ok⟩, hconnect, rfl⟩ := Option.map_eq_some_iff.mp h
  refine ⟨rfl, rfl, ?_, ?_⟩
  · intro d' hne
    exact links_setLink_of_ne hne p l
  · dsimp only
    rw [links_setLink_self]
    exact Link.connect_cases hconnect

theorem connectServices_eq_none_iff {accepted : Daemon → Bool} :
    p.connectServices accepted = none ↔ ∃ d, accepted d = true ∧ (p.links d).thread ≠ .none := by
  unfold connectServices
  cases hrouter : p.connect (accepted .router) .router with
  | none => exact iff_of_true rfl ⟨.router, connect_eq_none_iff.mp hrouter⟩
  | some p1 =>
    obtain ⟨_, _, hothers1, _⟩ := connect_some hrouter
    have hnot1 : ¬(accepted .router = true ∧ (p.links .router).thread ≠ .none) := by
      rw [← connect_eq_none_iff, hrouter]
      exact Option.some_ne_none p1
    rw [Option.bind_eq_bind, Option.bind_some]
    cases hinbox : p1.connect (accepted .inbox) .inbox with
    | none =>
      have hgone := connect_eq_none_iff.mp hinbox
      rw [hothers1 .inbox (by decide)] at hgone
      exact iff_of_true rfl ⟨.inbox, hgone⟩
    | some p2 =>
      obtain ⟨_, _, hothers2, _⟩ := connect_some hinbox
      have hnot2 : ¬(accepted .inbox = true ∧ (p.links .inbox).thread ≠ .none) := by
        rw [← hothers1 .inbox (by decide), ← connect_eq_none_iff, hinbox]
        exact Option.some_ne_none p2
      rw [Option.bind_some, connect_eq_none_iff, hothers2 .outbox (by decide), hothers1 .outbox (by decide)]
      constructor
      · intro h
        exact ⟨.outbox, h⟩
      · rintro ⟨d, h⟩
        cases d with
        | router => exact absurd h hnot1
        | inbox => exact absurd h hnot2
        | outbox => exact h

/-- Each link is as it was, or it had none and is connected. -/
def Connects (p p' : Process) : Prop := ∀ d, p'.links d = p.links d ∨ ((p.links d).thread = .none ∧ p'.links d = .connected)

theorem connectServices_some {accepted : Daemon → Bool} (h : p.connectServices accepted = some p') :
    p'.unlocked = p.unlocked ∧ p'.background = p.background ∧ Connects p p' := by
  unfold connectServices at h
  obtain ⟨p1, h1, h⟩ := Option.bind_eq_some_iff.mp h
  obtain ⟨p2, h2, h3⟩ := Option.bind_eq_some_iff.mp h
  obtain ⟨hunlocked1, hbackground1, hothers1, hlink1⟩ := connect_some h1
  obtain ⟨hunlocked2, hbackground2, hothers2, hlink2⟩ := connect_some h2
  obtain ⟨hunlocked3, hbackground3, hothers3, hlink3⟩ := connect_some h3
  refine ⟨hunlocked3.trans (hunlocked2.trans hunlocked1), hbackground3.trans (hbackground2.trans hbackground1), ?_⟩
  intro d
  cases d with
  | router =>
    rw [hothers3 .router (by decide), hothers2 .router (by decide)]
    exact hlink1
  | inbox =>
    rw [hothers3 .inbox (by decide)]
    rw [hothers1 .inbox (by decide)] at hlink2
    exact hlink2
  | outbox =>
    rw [hothers2 .outbox (by decide), hothers1 .outbox (by decide)] at hlink3
    exact hlink3

end Process

/-- A thread is at its end and not joined exactly if the connection has ended by itself; there is no other one while the keystore is
locked. -/
structure Followed (es : List Event) (p : Process) : Prop where
  lost : ∀ d, (p.links d).thread = .finished ↔ .gone d ∈ es
  reading : ∀ d, (p.links d).thread = .reading → p.unlocked = true
  background : p.background = true → p.unlocked = true

section Following
variable {es : List Event} {p p' : Process}

/-- How `unlock` ends if the process survives. -/
theorem unlock_some {env : UnlockEnv} (h : p.unlock env = some p') : p' = p ∨ (p'.unlocked = true ∧ Process.Connects p p') := by
  unfold Process.unlock at h
  split at h
  · cases h
    exact Or.inl rfl
  · dsimp only at h
    refine Or.inr ?_
    split at h
    · cases h
      exact ⟨rfl, fun _ => Or.inl rfl⟩
    · obtain ⟨p1, hconnect, h⟩ := Option.bind_eq_some_iff.mp h
      obtain ⟨hunlocked, _, hlinks⟩ := Process.connectServices_some hconnect
      split at h
      · cases h
        exact ⟨hunlocked, hlinks⟩
      · unfold Process.startThreads at h
        split at h
        · cases h
        · cases h
          exact ⟨hunlocked, hlinks⟩

/-- `unlock` kills the process exactly if it connects to a daemon whose thread has not been joined. -/
theorem unlock_eq_none_iff (hbackground : p.background = true → p.unlocked = true) (env : UnlockEnv) : p.unlock env = none ↔
    p.unlocked = false ∧ env.opens = true ∧ env.keyA = true ∧ ∃ d, env.accepted d = true ∧ (p.links d).thread ≠ .none := by
  unfold Process.unlock
  by_cases hrefused : p.unlocked = true ∨ env.opens = false
  · rw [if_pos hrefused]
    refine iff_of_false (Option.some_ne_none p) ?_
    rintro ⟨hlocked, hopens, _⟩
    simp [hlocked, hopens] at hrefused
  · rw [if_neg hrefused, not_or, Bool.not_eq_true, Bool.not_eq_false] at *
    obtain ⟨hlocked, hopens⟩ := hrefused
    have hidle : p.background = false := by
      rw [← Bool.not_eq_true]
      intro hback
      rw [hbackground hback] at hlocked
      cases hlocked
    dsimp only
    cases hkey : env.keyA with
    | false => simp
    | true =>
      rw [if_neg (by decide)]
      have hservices : ({ p with unlocked := true } : Process).connectServices env.accepted = none ↔
          ∃ d, env.accepted d = true ∧ (p.links d).thread ≠ .none := Process.connectServices_eq_none_iff
      cases hconnect : ({ p with unlocked := true } : Process).connectServices env.accepted with
      | none => exact iff_of_true rfl ⟨hlocked, hopens, rfl, hservices.mp hconnect⟩
      | some p1 =>
        have hnone : ¬∃ d, env.accepted d = true ∧ (p.links d).thread ≠ .none := by
          rw [hconnect] at hservices
          exact fun h => Option.some_ne_none p1 (hservices.mpr h)
        refine iff_of_false ?_ (fun h => hnone h.2.2.2)
        obtain ⟨_, hbackground1, _⟩ := Process.connectServices_some hconnect
        rw [Option.bind_eq_bind, Option.bind_some]
        split
        · exact Option.some_ne_none p1
        · unfold Process.startThreads
          rw [if_neg (by rw [hbackground1, hidle]; decide)]
          exact Option.some_ne_none _

theorem Process.Connects.lost_iff (h : Process.Connects p p') (d : Daemon) : (p'.links d).thread = .finished ↔ (p.links d).thread = .finished := by
  obtain hsame | ⟨hnone, hnew⟩ := h d
  · rw [hsame]
  · rw [hnone, hnew]
    decide

theorem Followed.snoc (h : Followed es p) {e : Event} (hstep : Step p e p') : Followed (es ++ [e]) p' := by
  obtain ⟨hpossible, hnext⟩ := hstep
  cases e with
  | unlock env =>
    have hmem : ∀ d, .gone d ∈ es ++ [.unlock env] ↔ .gone d ∈ es := by simp
    obtain rfl | ⟨hunlocked, hconnects⟩ := unlock_some hnext
    · exact ⟨fun d => (h.lost d).trans (hmem d).symm, h.reading, h.background⟩
    · exact ⟨fun d => (hconnects.lost_iff d).trans ((h.lost d).trans (hmem d).symm), fun _ _ => hunlocked, fun _ => hunlocked⟩
  | lock saves =>
    have hmem : ∀ d, .gone d ∈ es ++ [.lock saves] ↔ .gone d ∈ es := by simp
    cases hnext
    unfold Process.lock
    split
    · exact ⟨fun d => (h.lost d).trans (hmem d).symm, h.reading, h.background⟩
    · refine ⟨?_, ?_, fun hback => nomatch hback⟩
      · intro d
        rw [hmem]
        exact Link.disconnect_lost_iff.trans (h.lost d)
      · intro d hreading
        exact absurd hreading (Link.disconnect_not_reading (p.links d))
  | gone d =>
    cases hnext
    have hrunning := hpossible d rfl
    have hended : (p.links d).ended = .lost := by
      unfold Link.ended
      rw [if_neg (by rw [hrunning]; decide)]
    refine ⟨?_, ?_, h.background⟩
    · intro d'
      by_cases hd : d' = d
      · subst hd
        rw [Process.links_setLink_self, hended]
        simp [Link.lost]
      · rw [Process.links_setLink_of_ne hd, h.lost d']
        simp [hd]
    · intro d' hreading
      by_cases hd : d' = d
      · exact h.reading d ((p.links d).inLoop.mp hrunning)
      · rw [Process.links_setLink_of_ne hd] at hreading
        exact h.reading d' hreading

theorem followed_of_run (h : Run Step .fresh es p) : Followed es p := by
  induction h with
  | nil => exact ⟨fun d => by simp [Process.fresh, Link.fresh], (fun d hreading => nomatch hreading), (fun hback => nomatch hback)⟩
  | snoc _ hstep ih => exact ih.snoc hstep

theorem stop_eq_none_iff (saves : Bool) :
    p.stop saves = none ↔ (p.unlocked = true ∧ saves = false) ∨ ∃ d, (p.links d).thread = .finished := by
  have hdestroy : ∀ d, (p.links d).disconnect.destroy = none ↔ (p.links d).thread = .finished := by
    intro d
    rw [Link.destroy_eq_none_iff, Link.disconnect_lost_iff]
  unfold Process.stop
  dsimp only
  by_cases hsave : p.unlocked = true ∧ saves = false
  · exact iff_of_true (if_pos hsave) (Or.inl hsave)
  rw [or_iff_right hsave, if_neg hsave]
  change ((p.links .outbox).disconnect.destroy.bind fun _ => (p.links .inbox).disconnect.destroy.bind fun _ =>
    (p.links .router).disconnect.destroy) = none ↔ _
  cases houtbox : (p.links .outbox).disconnect.destroy with
  | none => exact iff_of_true rfl ⟨.outbox, (hdestroy .outbox).mp houtbox⟩
  | some _ =>
    rw [Option.bind_some]
    cases hinbox : (p.links .inbox).disconnect.destroy with
    | none => exact iff_of_true rfl ⟨.inbox, (hdestroy .inbox).mp hinbox⟩
    | some _ =>
      rw [Option.bind_some, hdestroy .router]
      constructor
      · intro hrouter
        exact ⟨.router, hrouter⟩
      · rintro ⟨d, hd⟩
        have hnone := (hdestroy d).mpr hd
        cases d with
        | router => exact hd
        | inbox => rw [hinbox] at hnone; cases hnone
        | outbox => rw [houtbox] at hnone; cases hnone

end Following

/-- A daemon that went away is not connected again. What kills the process is the next `unlock` that would reach it; the process ends with
an abort if a daemon went away or the keystore is open and cannot be saved, and otherwise it does not. -/
theorem lost_daemon_fatal (es : List Event) (p : Process) (h : Run Step .fresh es p) :
    (∀ d, .gone d ∈ es → (p.links d).running = false) ∧
      (∀ env, p.unlock env = none ↔
        p.unlocked = false ∧ env.opens = true ∧ env.keyA = true ∧ ∃ d, env.accepted d = true ∧ .gone d ∈ es) ∧
      (∀ saves, p.stop saves = none ↔ (p.unlocked = true ∧ saves = false) ∨ ∃ d, .gone d ∈ es) := by
  have hfollowed := followed_of_run h
  refine ⟨?_, ?_, ?_⟩
  · intro d hd
    exact Link.running_false_of_finished ((hfollowed.lost d).mpr hd)
  · intro env
    rw [unlock_eq_none_iff hfollowed.background]
    refine and_congr_right ?_
    intro hlocked
    have hfinished : ∀ d, (p.links d).thread ≠ .none ↔ .gone d ∈ es := by
      intro d
      rw [← hfollowed.lost d]
      cases hthread : (p.links d).thread with
      | none => simp
      | reading =>
        have hunlocked := hfollowed.reading d hthread
        rw [hlocked] at hunlocked
        cases hunlocked
      | finished => simp
    simp only [hfinished]
  · intro saves
    rw [stop_eq_none_iff]
    simp only [hfollowed.lost]

def allUp : UnlockEnv := ⟨true, true, fun _ => true, true⟩

def lostRouter : List Event := [.unlock allUp, .gone .router, .lock true]

theorem run_lostRouter : ∃ p, Run Step .fresh lostRouter p ∧ p.unlocked = false := by
  let p1 := (Process.fresh.unlock allUp).get rfl
  let p2 := p1.setLink .router (p1.links .router).ended
  have h1 : Step .fresh (.unlock allUp) p1 := ⟨(fun _ h => nomatch h), (Option.some_get _).symm⟩
  have h2 : Step p1 (.gone .router) p2 := by
    refine ⟨?_, rfl⟩
    rintro d ⟨⟩
    rfl
  have h3 : Step p2 (.lock true) (p2.lock true) := ⟨(fun _ h => nomatch h), rfl⟩
  exact ⟨p2.lock true, ((Run.nil.snoc h1).snoc h2).snoc h3, rfl⟩

/-- The AnonRouter is started anew, the user locks and unlocks. -/
theorem lost_daemon_fatal_lostRouter : ∃ p, Run Step .fresh lostRouter p ∧ p.unlock allUp = none ∧ p.stop true = none := by
  obtain ⟨p, hrun, hlocked⟩ := run_lostRouter
  have hgone : .gone .router ∈ lostRouter := by simp [lostRouter]
  obtain ⟨_, hunlock, hstop⟩ := lost_daemon_fatal lostRouter p hrun
  exact ⟨p, hrun, (hunlock allUp).mpr ⟨hlocked, rfl, rfl, .router, rfl, hgone⟩, (hstop true).mpr (Or.inr ⟨.router, hgone⟩)⟩

/-! ### The daemons -/

/-- Inbox and Outbox: without the AnonRouter they go on, do not reach it again, and end with an abort. -/
theorem lost_router_aborts (es : List ServiceEvent) (s : Service) (h : Run ServiceStep {} es s) :
    (.routerGone ∈ es → s.router.running = false) ∧ (s.destroy = none ↔ .routerGone ∈ es) := by
  have hlost : s.router.thread = .finished ↔ .routerGone ∈ es := by
    induction h with
    | nil => simp [Link.fresh]
    | @snoc es s1 s2 e _ hstep ih =>
      obtain ⟨hpossible, hnext⟩ := hstep
      cases e with
      | start accepted =>
        simp only [List.mem_append, List.mem_singleton, reduceCtorEq, or_false, ← ih]
        rw [nextService, Service.start] at hnext
        split at hnext
        · cases hnext
          rfl
        · obtain ⟨⟨l, ok⟩, hconnect, rfl⟩ := Option.map_eq_some_iff.mp hnext
          exact Link.connect_lost_iff hconnect
      | stop =>
        simp only [List.mem_append, List.mem_singleton, reduceCtorEq, or_false, ← ih]
        cases hnext
        unfold Service.stop
        split
        · exact Link.disconnect_lost_iff
        · rfl
      | routerGone =>
        cases hnext
        dsimp only
        unfold Link.ended
        rw [if_neg (by rw [hpossible rfl]; decide)]
        simp [Link.lost]
  refine ⟨fun hgone => Link.running_false_of_finished (hlost.mpr hgone), ?_⟩
  rw [← hlost, Service.destroy, Link.destroy_eq_none_iff]
  unfold Service.stop
  split
  · exact Link.disconnect_lost_iff
  · rfl

end ScatterWeb.Ipc.Lifecycle
