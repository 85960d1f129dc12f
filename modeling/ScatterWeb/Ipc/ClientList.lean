import Mathlib.Data.Finset.Erase
import Mathlib.Data.Finset.Insert
import Mathlib.Data.List.Count
import ScatterWeb.Lib.Transition

/-! # The list of a server's clients

`conn_loop` closes its socket before `remove_client` takes it off the list that `push` goes through, and `remove_client` takes off every
entry with that number. In between the number is free, and the system may give it to the next connection. Then a push reaches that
connection twice until the old one is taken off, and never afterwards. Any other file that gets the number has the frames
written into it. A push is looked at in one moment: what closes while it goes through the list is left out. -/
namespace ScatterWeb.Ipc.ClientList
open Lib
set_option autoImplicit false

/-! ## A server and its descriptors -/

/-- How far a connection is: accepted, in `client_fds_` with its `conn_loop`, closed, or removed. -/
inductive Phase
  | accepted
  | listed
  | closed
  | removed
  deriving DecidableEq

/-- `fresh` is no field of the source: when the connection was put on the list, no closed one with its number was still to be removed. -/
structure Conn where
  fd : ℕ
  phase : Phase
  fresh : Bool := false
  deriving DecidableEq

def Conn.Open (c : Conn) : Prop := c.phase = .accepted ∨ c.phase = .listed

instance (c : Conn) : Decidable c.Open := inferInstanceAs (Decidable (_ ∨ _))

/-- The connections in the order of their acceptance, `client_fds_`, and the other descriptors that the process has open. -/
structure State where
  conns : List Conn := []
  clientFds : List ℕ := []
  others : Finset ℕ := ∅

namespace State

/-- A closed connection with the number is not removed yet. -/
def Waiting (s : State) (fd : ℕ) : Prop := ∃ c ∈ s.conns, c.phase = .closed ∧ c.fd = fd

instance (s : State) (fd : ℕ) : Decidable (s.Waiting fd) := inferInstanceAs (Decidable (∃ c ∈ s.conns, c.phase = .closed ∧ c.fd = fd))

def InUse (s : State) (fd : ℕ) : Prop := (∃ c ∈ s.conns, c.Open ∧ c.fd = fd) ∨ fd ∈ s.others

instance (s : State) (fd : ℕ) : Decidable (s.InUse fd) := inferInstanceAs (Decidable ((∃ c ∈ s.conns, c.Open ∧ c.fd = fd) ∨ fd ∈ s.others))

end State

inductive Event
  | accept (fd : ℕ)
  | register (k : ℕ)
  | close (k : ℕ)
  | removeClient (k : ℕ)
  | openOther (fd : ℕ)
  | closeOther (fd : ℕ)

/-- The system gives a number that is not in use. The thread of a connection is started when it is on the list. -/
def Possible (s : State) : Event → Prop
  | .accept fd => ¬s.InUse fd
  | .register k => ∃ c, s.conns[k]? = some c ∧ c.phase = .accepted
  | .close k => ∃ c, s.conns[k]? = some c ∧ c.phase = .listed
  | .removeClient k => ∃ c, s.conns[k]? = some c ∧ c.phase = .closed
  | .openOther fd => ¬s.InUse fd
  | .closeOther fd => fd ∈ s.others

def register (s : State) (k : ℕ) (c : Conn) : State :=
  { s with conns := s.conns.set k ⟨c.fd, .listed, !decide (s.Waiting c.fd)⟩, clientFds := s.clientFds ++ [c.fd] }

def close (s : State) (k : ℕ) (c : Conn) : State := { s with conns := s.conns.set k { c with phase := .closed } }

/-- `std::remove` takes off all entries with the number. -/
def removeClient (s : State) (k : ℕ) (c : Conn) : State :=
  { s with conns := s.conns.set k { c with phase := .removed }, clientFds := s.clientFds.filter (fun fd => fd ≠ c.fd) }

def next (s : State) : Event → State
  | .accept fd => { s with conns := s.conns ++ [⟨fd, .accepted, false⟩] }
  | .register k => (s.conns[k]?).elim s (register s k)
  | .close k => (s.conns[k]?).elim s (close s k)
  | .removeClient k => (s.conns[k]?).elim s (removeClient s k)
  | .openOther fd => { s with others := insert fd s.others }
  | .closeOther fd => { s with others := s.others.erase fd }

def Step (s : State) (e : Event) (s' : State) : Prop := Possible s e ∧ s' = next s e

/-! ### A push -/

inductive Target
  | conn (k : ℕ)
  | other (fd : ℕ)
  | nobody
  deriving DecidableEq

/-- Where what is written to a descriptor goes. -/
def writeTo (s : State) (fd : ℕ) : Target :=
  match s.conns.findIdx? (fun c => decide (c.Open ∧ c.fd = fd)) with
  | some k => .conn k
  | none => if fd ∈ s.others then .other fd else .nobody

/-- What `push` writes to. -/
def push (s : State) : List Target := s.clientFds.map (writeTo s)

/-! ## What every step keeps -/

/-- Descriptors in use are all different; a fresh connection is on the list once, another one is not once nothing is waiting any more;
whatever is on the list is a connection's, or was one's. -/
structure Tracked (s : State) : Prop where
  distinct : ∀ {i j : ℕ} {c d : Conn}, s.conns[i]? = some c → s.conns[j]? = some d → c.Open → d.Open → c.fd = d.fd → i = j
  apart : ∀ c ∈ s.conns, c.Open → c.fd ∉ s.others
  fresh : ∀ c ∈ s.conns, c.phase = .listed → c.fresh = true → ¬s.Waiting c.fd ∧ s.clientFds.count c.fd = 1
  stale : ∀ c ∈ s.conns, c.phase = .listed → c.fresh = false → ¬s.Waiting c.fd → s.clientFds.count c.fd = 0
  onList : ∀ fd ∈ s.clientFds, (∃ c ∈ s.conns, c.phase = .listed ∧ c.fd = fd) ∨ s.Waiting fd

section Steps
variable {s s' : State} {k : ℕ} {c c' d : Conn}

/-- A connection of the list with one entry replaced. -/
theorem getElem?_set_cases {i : ℕ} (h : (s.conns.set k c')[i]? = some d) : (i = k ∧ d = c') ∨ (i ≠ k ∧ s.conns[i]? = some d) := by
  by_cases hik : i = k
  · subst hik
    rw [List.getElem?_set_self'] at h
    obtain ⟨_, _, hd⟩ := Option.map_eq_some_iff.mp h
    exact Or.inl ⟨rfl, hd.symm⟩
  · rw [List.getElem?_set_ne (Ne.symm hik)] at h
    exact Or.inr ⟨hik, h⟩

theorem mem_set (h : d ∈ s.conns.set k c') : d = c' ∨ ∃ i, i ≠ k ∧ s.conns[i]? = some d := by
  obtain ⟨i, hi⟩ := List.mem_iff_getElem?.mp h
  obtain ⟨_, hd⟩ | ⟨hik, hold⟩ := getElem?_set_cases hi
  · exact Or.inl hd
  · exact Or.inr ⟨i, hik, hold⟩

theorem mem_set_self (hk : s.conns[k]? = some c) : c' ∈ s.conns.set k c' := by
  obtain ⟨hlt, _⟩ := List.getElem?_eq_some_iff.mp hk
  exact List.mem_set hlt c'

theorem mem_set_of_ne {i : ℕ} (hik : i ≠ k) (hi : s.conns[i]? = some d) : d ∈ s.conns.set k c' := by
  refine List.mem_iff_getElem?.mpr ⟨i, ?_⟩
  rw [List.getElem?_set_ne (Ne.symm hik)]
  exact hi

/-- Whose phase is another is another connection. -/
theorem ne_of_phase {i : ℕ} (hk : s.conns[k]? = some c) (hi : s.conns[i]? = some d) (hphase : d.phase ≠ c.phase) : i ≠ k := by
  rintro rfl
  rw [hk] at hi
  cases hi
  exact hphase rfl

/-- A connection keeps its number, and is not opened again. -/
theorem Tracked.distinct_set (h : Tracked s) (hk : s.conns[k]? = some c) (c' : Conn) (hfd : c'.fd = c.fd) (hopen : c'.Open → c.Open)
    {i j : ℕ} {c1 c2 : Conn} (hi : (s.conns.set k c')[i]? = some c1) (hj : (s.conns.set k c')[j]? = some c2) (hc1 : c1.Open) (hc2 : c2.Open)
    (heq : c1.fd = c2.fd) : i = j := by
  have hold : ∀ {i : ℕ} {d : Conn}, (s.conns.set k c')[i]? = some d → d.Open →
      ∃ d', s.conns[i]? = some d' ∧ d'.Open ∧ d'.fd = d.fd := by
    intro i d hd hdopen
    obtain ⟨rfl, rfl⟩ | ⟨_, hsame⟩ := getElem?_set_cases hd
    · exact ⟨c, hk, hopen hdopen, hfd.symm⟩
    · exact ⟨d, hsame, hdopen, rfl⟩
  obtain ⟨d1, hd1, hopen1, hfd1⟩ := hold hi hc1
  obtain ⟨d2, hd2, hopen2, hfd2⟩ := hold hj hc2
  exact h.distinct hd1 hd2 hopen1 hopen2 (hfd1.trans (heq.trans hfd2.symm))

theorem Tracked.apart_set (h : Tracked s) (hk : s.conns[k]? = some c) (c' : Conn) (hfd : c'.fd = c.fd) (hopen : c'.Open → c.Open) :
    ∀ d ∈ s.conns.set k c', d.Open → d.fd ∉ s.others := by
  intro d hd hdopen
  obtain rfl | ⟨i, _, hi⟩ := mem_set hd
  · rw [hfd]
    exact h.apart c (List.mem_of_getElem? hk) (hopen hdopen)
  · exact h.apart d (List.mem_of_getElem? hi) hdopen

/-- No other listed connection has the number of an open one. -/
theorem Tracked.fd_ne (h : Tracked s) (hk : s.conns[k]? = some c) (hopen : c.Open) {i : ℕ} (hik : i ≠ k) (hi : s.conns[i]? = some d)
    (hlisted : d.phase = .listed) : d.fd ≠ c.fd := fun hfd => hik (h.distinct hi hk (Or.inr hlisted) hopen hfd)

theorem Tracked.accept (h : Tracked s) {fd : ℕ} (hfree : ¬s.InUse fd) : Tracked (next s (.accept fd)) := by
  have hmem : ∀ d ∈ (next s (.accept fd)).conns, d.phase ≠ .accepted → d ∈ s.conns := by
    intro d hd hphase
    obtain hold | hnew := List.mem_append.mp hd
    · exact hold
    · rw [List.mem_singleton.mp hnew] at hphase
      exact absurd rfl hphase
  have hwaiting : ∀ fd', (next s (.accept fd)).Waiting fd' ↔ s.Waiting fd' := by
    intro fd'
    constructor
    · rintro ⟨d, hd, hphase, hfd⟩
      exact ⟨d, hmem d hd (by rw [hphase]; decide), hphase, hfd⟩
    · rintro ⟨d, hd, hphase, hfd⟩
      exact ⟨d, List.mem_append_left _ hd, hphase, hfd⟩
  have hnew : ∀ d ∈ s.conns, d.Open → d.fd ≠ fd := fun d hd hopen hfd => hfree (Or.inl ⟨d, hd, hopen, hfd⟩)
  refine ⟨?_, ?_, ?_, ?_, ?_⟩
  · intro i j c d hi hj hc hd hfd
    have hcases : ∀ {i : ℕ} {c : Conn}, (next s (.accept fd)).conns[i]? = some c →
        s.conns[i]? = some c ∨ (i = s.conns.length ∧ c.fd = fd) := by
      intro i c hi
      change (s.conns ++ [_])[i]? = some c at hi
      rw [List.getElem?_append] at hi
      split at hi
      · exact Or.inl hi
      · rename_i hlt
        obtain ⟨hlen, hval⟩ := List.getElem?_eq_some_iff.mp hi
        rw [List.length_singleton] at hlen
        refine Or.inr ⟨by omega, ?_⟩
        rw [← hval, List.getElem_singleton]
    obtain hi | ⟨rfl, hci⟩ := hcases hi
    · obtain hj | ⟨rfl, hdj⟩ := hcases hj
      · exact h.distinct hi hj hc hd hfd
      · exact absurd (hfd.trans hdj) (hnew c (List.mem_of_getElem? hi) hc)
    · obtain hj | ⟨rfl, _⟩ := hcases hj
      · exact absurd (hfd.symm.trans hci) (hnew d (List.mem_of_getElem? hj) hd)
      · rfl
  · intro d hd hopen
    obtain hold | hnew := List.mem_append.mp hd
    · exact h.apart d hold hopen
    · rw [List.mem_singleton.mp hnew]
      exact fun hother => hfree (Or.inr hother)
  · intro d hd hlisted hfresh
    rw [hwaiting]
    exact h.fresh d (hmem d hd (by rw [hlisted]; decide)) hlisted hfresh
  · intro d hd hlisted hstale
    rw [hwaiting]
    exact h.stale d (hmem d hd (by rw [hlisted]; decide)) hlisted hstale
  · intro fd' hfd'
    rw [hwaiting]
    obtain ⟨d, hd, hrest⟩ | hwait := h.onList fd' hfd'
    · exact Or.inl ⟨d, List.mem_append_left _ hd, hrest⟩
    · exact Or.inr hwait

theorem Tracked.register (h : Tracked s) (hk : s.conns[k]? = some c) (hc : c.phase = .accepted) : Tracked (register s k c) := by
  have hopen : c.Open := Or.inl hc
  have hwaiting : ∀ fd, (ClientList.register s k c).Waiting fd ↔ s.Waiting fd := by
    intro fd
    constructor
    · rintro ⟨d, hd, hphase, hfd⟩
      obtain rfl | ⟨i, _, hi⟩ := mem_set hd
      · cases hphase
      · exact ⟨d, List.mem_of_getElem? hi, hphase, hfd⟩
    · rintro ⟨d, hd, hphase, hfd⟩
      obtain ⟨i, hi⟩ := List.mem_iff_getElem?.mp hd
      have hne := ne_of_phase hk hi (by rw [hphase, hc]; decide)
      exact ⟨d, mem_set_of_ne hne hi, hphase, hfd⟩
  -- a listed connection with this number would be another open one
  have hnotListed : ∀ d ∈ s.conns, d.phase = .listed → d.fd ≠ c.fd := by
    intro d hd hlisted
    obtain ⟨i, hi⟩ := List.mem_iff_getElem?.mp hd
    exact h.fd_ne hk hopen (ne_of_phase hk hi (by rw [hlisted, hc]; decide)) hi hlisted
  have hcount : ∀ d ∈ s.conns, d.phase = .listed → (s.clientFds ++ [c.fd]).count d.fd = s.clientFds.count d.fd := by
    intro d hd hlisted
    rw [List.count_append, List.count_singleton, if_neg (by simpa using (hnotListed d hd hlisted).symm), Nat.add_zero]
  refine ⟨h.distinct_set hk ⟨c.fd, .listed, _⟩ rfl (fun _ => hopen), h.apart_set hk ⟨c.fd, .listed, _⟩ rfl (fun _ => hopen), ?_, ?_, ?_⟩
  · intro d hd hlisted hfresh
    rw [hwaiting]
    obtain rfl | ⟨i, _, hi⟩ := mem_set hd
    · have hnot : ¬s.Waiting c.fd := by simpa using hfresh
      refine ⟨hnot, ?_⟩
      have hzero : s.clientFds.count c.fd = 0 := by
        rw [List.count_eq_zero]
        intro hmem
        obtain ⟨d, hd, hdlisted, hfd⟩ | hwait := h.onList c.fd hmem
        · exact hnotListed d hd hdlisted hfd
        · exact hnot hwait
      change (s.clientFds ++ [c.fd]).count c.fd = 1
      rw [List.count_append, hzero, List.count_singleton_self]
    · have hmem := List.mem_of_getElem? hi
      obtain ⟨hnot, hone⟩ := h.fresh d hmem hlisted hfresh
      exact ⟨hnot, (hcount d hmem hlisted).trans hone⟩
  · intro d hd hlisted hstale
    rw [hwaiting]
    intro hnot
    obtain rfl | ⟨i, _, hi⟩ := mem_set hd
    · simp [hnot] at hstale
    · have hmem := List.mem_of_getElem? hi
      exact (hcount d hmem hlisted).trans (h.stale d hmem hlisted hstale hnot)
  · intro fd hfd
    rw [hwaiting]
    obtain hold | hnew := List.mem_append.mp hfd
    · obtain ⟨d, hd, hlisted, hdfd⟩ | hwait := h.onList fd hold
      · obtain ⟨i, hi⟩ := List.mem_iff_getElem?.mp hd
        have hne := ne_of_phase hk hi (by rw [hlisted, hc]; decide)
        exact Or.inl ⟨d, mem_set_of_ne hne hi, hlisted, hdfd⟩
      · exact Or.inr hwait
    · exact Or.inl ⟨_, mem_set_self hk, rfl, (List.mem_singleton.mp hnew).symm⟩

theorem Tracked.close (h : Tracked s) (hk : s.conns[k]? = some c) (hc : c.phase = .listed) : Tracked (close s k c) := by
  have hopen : c.Open := Or.inr hc
  have hwaiting : ∀ fd, (ClientList.close s k c).Waiting fd ↔ s.Waiting fd ∨ fd = c.fd := by
    intro fd
    constructor
    · rintro ⟨d, hd, hphase, hfd⟩
      obtain rfl | ⟨i, _, hi⟩ := mem_set hd
      · exact Or.inr hfd.symm
      · exact Or.inl ⟨d, List.mem_of_getElem? hi, hphase, hfd⟩
    · rintro (⟨d, hd, hphase, hfd⟩ | rfl)
      · obtain ⟨i, hi⟩ := List.mem_iff_getElem?.mp hd
        have hne := ne_of_phase hk hi (by rw [hphase, hc]; decide)
        exact ⟨d, mem_set_of_ne hne hi, hphase, hfd⟩
      · exact ⟨_, mem_set_self hk, rfl, rfl⟩
  refine ⟨h.distinct_set hk { c with phase := .closed } rfl (fun _ => hopen),
    h.apart_set hk { c with phase := .closed } rfl (fun _ => hopen), ?_, ?_, ?_⟩
  · intro d hd hlisted hfresh
    obtain rfl | ⟨i, hik, hi⟩ := mem_set hd
    · cases hlisted
    · obtain ⟨hnot, hone⟩ := h.fresh d (List.mem_of_getElem? hi) hlisted hfresh
      refine ⟨?_, hone⟩
      rw [hwaiting, not_or]
      exact ⟨hnot, h.fd_ne hk hopen hik hi hlisted⟩
  · intro d hd hlisted hstale hnot
    obtain rfl | ⟨i, _, hi⟩ := mem_set hd
    · cases hlisted
    · rw [hwaiting, not_or] at hnot
      exact h.stale d (List.mem_of_getElem? hi) hlisted hstale hnot.1
  · intro fd hfd
    rw [hwaiting]
    obtain ⟨d, hd, hlisted, hdfd⟩ | hwait := h.onList fd hfd
    · obtain ⟨i, hi⟩ := List.mem_iff_getElem?.mp hd
      by_cases hik : i = k
      · subst hik
        rw [hk] at hi
        cases hi
        exact Or.inr (Or.inr hdfd.symm)
      · exact Or.inl ⟨d, mem_set_of_ne hik hi, hlisted, hdfd⟩
    · exact Or.inr (Or.inl hwait)

theorem Tracked.removeClient (h : Tracked s) (hk : s.conns[k]? = some c) (hc : c.phase = .closed) : Tracked (removeClient s k c) := by
  have hgone : ¬Conn.Open { c with phase := .removed } := by rintro (h | h) <;> cases h
  have hwait : s.Waiting c.fd := ⟨c, List.mem_of_getElem? hk, hc, rfl⟩
  have hsub : ∀ fd, (ClientList.removeClient s k c).Waiting fd → s.Waiting fd := by
    rintro fd ⟨d, hd, hphase, hfd⟩
    obtain rfl | ⟨i, _, hi⟩ := mem_set hd
    · cases hphase
    · exact ⟨d, List.mem_of_getElem? hi, hphase, hfd⟩
  have hstill : ∀ fd, fd ≠ c.fd → s.Waiting fd → (ClientList.removeClient s k c).Waiting fd := by
    rintro fd hne ⟨d, hd, hphase, rfl⟩
    obtain ⟨i, hi⟩ := List.mem_iff_getElem?.mp hd
    refine ⟨d, mem_set_of_ne ?_ hi, hphase, rfl⟩
    rintro rfl
    rw [hk] at hi
    cases hi
    exact hne rfl
  have hcount : ∀ fd, fd ≠ c.fd → (s.clientFds.filter (fun fd => fd ≠ c.fd)).count fd = s.clientFds.count fd :=
    fun fd hne => List.count_filter (by simpa using hne)
  refine ⟨h.distinct_set hk { c with phase := .removed } rfl (fun hopen => absurd hopen hgone),
    h.apart_set hk { c with phase := .removed } rfl (fun hopen => absurd hopen hgone), ?_, ?_, ?_⟩
  · intro d hd hlisted hfresh
    obtain rfl | ⟨i, _, hi⟩ := mem_set hd
    · cases hlisted
    · obtain ⟨hnot, hone⟩ := h.fresh d (List.mem_of_getElem? hi) hlisted hfresh
      have hne : d.fd ≠ c.fd := fun heq => hnot (heq ▸ hwait)
      exact ⟨fun hd => hnot (hsub d.fd hd), (hcount d.fd hne).trans hone⟩
  · intro d hd hlisted hstale hnot
    obtain rfl | ⟨i, _, hi⟩ := mem_set hd
    · cases hlisted
    · by_cases heq : d.fd = c.fd
      · rw [List.count_eq_zero, heq]
        intro hmem
        simpa using (List.mem_filter.mp hmem).2
      · have hnone := h.stale d (List.mem_of_getElem? hi) hlisted hstale (fun hw => hnot (hstill d.fd heq hw))
        exact (hcount d.fd heq).trans hnone
  · intro fd hfd
    obtain ⟨hmem, hne⟩ := List.mem_filter.mp hfd
    have hne : fd ≠ c.fd := of_decide_eq_true hne
    obtain ⟨d, hd, hlisted, hdfd⟩ | hw := h.onList fd hmem
    · obtain ⟨i, hi⟩ := List.mem_iff_getElem?.mp hd
      exact Or.inl ⟨d, mem_set_of_ne (ne_of_phase hk hi (by rw [hlisted, hc]; decide)) hi, hlisted, hdfd⟩
    · exact Or.inr (hstill fd hne hw)

theorem Tracked.step (h : Tracked s) {e : Event} (hstep : Step s e s') : Tracked s' := by
  obtain ⟨hpossible, rfl⟩ := hstep
  cases e with
  | accept fd => exact h.accept hpossible
  | register k =>
    obtain ⟨c, hk, hc⟩ := hpossible
    rw [next, hk]
    exact h.register hk hc
  | close k =>
    obtain ⟨c, hk, hc⟩ := hpossible
    rw [next, hk]
    exact h.close hk hc
  | removeClient k =>
    obtain ⟨c, hk, hc⟩ := hpossible
    rw [next, hk]
    exact h.removeClient hk hc
  | openOther fd =>
    refine ⟨h.distinct, ?_, h.fresh, h.stale, h.onList⟩
    intro c hc hopen hmem
    obtain rfl | hold := Finset.mem_insert.mp hmem
    · exact hpossible (Or.inl ⟨c, hc, hopen, rfl⟩)
    · exact h.apart c hc hopen hold
  | closeOther fd => exact ⟨h.distinct, fun c hc hopen hmem => h.apart c hc hopen (Finset.mem_of_mem_erase hmem), h.fresh, h.stale, h.onList⟩

theorem tracked_of_run {es : List Event} (h : Run Step {} es s) : Tracked s := by
  refine h.invariant Tracked ?_ (fun _ _ _ ht hs => ht.step hs)
  exact ⟨(fun hi => nomatch hi), (fun _ hc => nomatch hc), (fun _ hc => nomatch hc), (fun _ hc => nomatch hc), (fun _ hfd => nomatch hfd)⟩

end Steps

/-! ## Where the pushes go -/

section Pushes
variable {s : State} {k fd : ℕ} {c : Conn}

theorem writeTo_eq_conn_iff (h : Tracked s) (hk : s.conns[k]? = some c) (hopen : c.Open) : writeTo s fd = .conn k ↔ fd = c.fd := by
  unfold writeTo
  cases hfind : s.conns.findIdx? (fun c => decide (c.Open ∧ c.fd = fd)) with
  | none =>
    have hnot := List.findIdx?_eq_none_iff.mp hfind c (List.mem_of_getElem? hk)
    have hne : fd ≠ c.fd := by
      rintro rfl
      simp [hopen] at hnot
    dsimp only
    split <;> simp [hne]
  | some j =>
    obtain ⟨hlt, hfound, _⟩ := List.findIdx?_eq_some_iff_getElem.mp hfind
    obtain ⟨hjopen, hjfd⟩ := of_decide_eq_true hfound
    have hj : s.conns[j]? = some s.conns[j] := List.getElem?_eq_getElem hlt
    dsimp only
    rw [Target.conn.injEq]
    constructor
    · rintro rfl
      rw [hk] at hj
      cases hj
      exact hjfd.symm
    · rintro rfl
      exact h.distinct hj hk hjopen hopen hjfd

theorem count_push (h : Tracked s) (hk : s.conns[k]? = some c) (hopen : c.Open) : (push s).count (.conn k) = s.clientFds.count c.fd := by
  unfold push
  rw [List.count_eq_countP, List.count_eq_countP, List.countP_map]
  refine List.countP_congr ?_
  intro fd _
  simp [writeTo_eq_conn_iff h hk hopen]

theorem waiting_of_other (h : Tracked s) (hother : .other fd ∈ push s) : s.Waiting fd := by
  obtain ⟨fd', hmem, hwrite⟩ := List.mem_map.mp hother
  unfold writeTo at hwrite
  split at hwrite
  · cases hwrite
  · rename_i hnone
    split at hwrite
    · rename_i hin
      cases hwrite
      obtain ⟨c, hc, hlisted, rfl⟩ | hwait := h.onList fd hmem
      · exact absurd hin (h.apart c hc (Or.inr hlisted))
      · exact hwait
    · cases hwrite

end Pushes

/-- A connection that was put on the list when no closed one with its number was left gets every push exactly once. Another one gets none
any more as soon as the closed one has been removed. Another file is written into only while a closed connection with its number has not
been removed. -/
theorem push_targets (es : List Event) (s : State) (h : Run Step {} es s) :
    (∀ k c, s.conns[k]? = some c → c.phase = .listed → c.fresh = true → (push s).count (.conn k) = 1) ∧
      (∀ k c, s.conns[k]? = some c → c.phase = .listed → c.fresh = false → ¬s.Waiting c.fd → (push s).count (.conn k) = 0) ∧
        ∀ fd, .other fd ∈ push s → s.Waiting fd := by
  have htracked := tracked_of_run h
  refine ⟨?_, ?_, fun fd hother => waiting_of_other htracked hother⟩
  · intro k c hk hlisted hfresh
    rw [count_push htracked hk (Or.inr hlisted)]
    exact (htracked.fresh c (List.mem_of_getElem? hk) hlisted hfresh).2
  · intro k c hk hlisted hstale hnot
    rw [count_push htracked hk (Or.inr hlisted)]
    exact htracked.stale c (List.mem_of_getElem? hk) hlisted hstale hnot

/-- The second connection gets the number of the first one before this is removed. -/
def tooSoon : List Event := [.accept 5, .register 0, .close 0, .accept 5, .register 1, .removeClient 0]

def deaf : State where
  conns := [⟨5, .removed, true⟩, ⟨5, .listed, false⟩]

theorem run_tooSoon : Run Step {} tooSoon deaf := by
  have h1 : Step {} (.accept 5) ⟨[⟨5, .accepted, false⟩], [], ∅⟩ := ⟨show ¬State.InUse _ 5 by decide, rfl⟩
  have h2 : Step ⟨[⟨5, .accepted, false⟩], [], ∅⟩ (.register 0) ⟨[⟨5, .listed, true⟩], [5], ∅⟩ := ⟨⟨_, rfl, rfl⟩, rfl⟩
  have h3 : Step ⟨[⟨5, .listed, true⟩], [5], ∅⟩ (.close 0) ⟨[⟨5, .closed, true⟩], [5], ∅⟩ := ⟨⟨_, rfl, rfl⟩, rfl⟩
  have h4 : Step ⟨[⟨5, .closed, true⟩], [5], ∅⟩ (.accept 5) ⟨[⟨5, .closed, true⟩, ⟨5, .accepted, false⟩], [5], ∅⟩ :=
    ⟨show ¬State.InUse _ 5 by decide, rfl⟩
  have h5 : Step ⟨[⟨5, .closed, true⟩, ⟨5, .accepted, false⟩], [5], ∅⟩ (.register 1)
      ⟨[⟨5, .closed, true⟩, ⟨5, .listed, false⟩], [5, 5], ∅⟩ := ⟨⟨_, rfl, rfl⟩, rfl⟩
  have h6 : Step ⟨[⟨5, .closed, true⟩, ⟨5, .listed, false⟩], [5, 5], ∅⟩ (.removeClient 0) deaf := ⟨⟨_, rfl, rfl⟩, rfl⟩
  exact (((((Run.nil.snoc h1).snoc h2).snoc h3).snoc h4).snoc h5).snoc h6

theorem push_targets_deaf : (push deaf).count (.conn 1) = 0 := by
  obtain ⟨_, hstale, _⟩ := push_targets tooSoon deaf run_tooSoon
  exact hstale 1 ⟨5, .listed, false⟩ rfl rfl rfl (by decide)

/-- Until then it gets every push twice. -/
example : push ⟨[⟨5, .closed, true⟩, ⟨5, .listed, false⟩], [5, 5], ∅⟩ = [.conn 1, .conn 1] := by
  decide

end ScatterWeb.Ipc.ClientList
