import ScatterWeb.Crypto.Symbolic
import ScatterWeb.Lib.Transition
import ScatterWeb.Ratchet.Track

/-! # Two-party sessions

Two honest parties run the ratchet of `Model.lean` against each other over a network that holds every
message sent and hands each one to its addressee unmodified, in any order and at most once. What the
receiver got, the plaintext or the exception, is recorded with the position of the message in its
sender's log. Nothing else is assumed of a run: messages may be lost, delivered before the message that
carries the KEM ciphertext of their epoch, or delivered when the cache is full. -/
namespace ScatterWeb.Ratchet
open Crypto Lib
set_option autoImplicit false
variable {C : Carriers}

/-- Alice calls `init_as_sender`, Bob `init_as_receiver`. -/
inductive Side
  | alice
  | bob
  deriving DecidableEq

namespace Side

def other : Side → Side
  | alice => bob
  | bob => alice

@[simp] theorem other_other (p : Side) : p.other.other = p := by cases p <;> rfl

@[simp] theorem other_ne (p : Side) : p.other ≠ p := by cases p <;> decide

theorem ne_other (p : Side) : p ≠ p.other := p.other_ne.symm

theorem eq_or_other (p q : Side) : q = p ∨ q = p.other := by
  cases p <;> cases q <;> simp [other]

end Side

structure Sent (C : Carriers) where
  msg : Message C
  plaintext : Bytes

structure Session (C : Carriers) where
  st : Side → State C
  /-- The messages of each side, in the order they were encrypted. -/
  sent : Side → List (Sent C)
  /-- What became of the messages of each side, in the order they were delivered to the other side. -/
  received : Side → List (ℕ × Except RatchetError Bytes)

/-! ## Events -/

/-- The public keys of the two parties and the random draws of the initialisers. -/
structure Setup (C : Carriers) where
  aliceKeyB : C.Pub
  bobKeyB : C.Pub
  prekey : C.Coin
  encap : C.Coin
  aliceKeygen : C.Coin
  bobKeygen : C.Coin

def Setup.alice (u : Setup C) (P : Primitives C) : InitResult C :=
  initAsSender P (P.kem.keygen u.prekey).pub u.aliceKeyB u.bobKeyB u.encap u.aliceKeygen

def Setup.bob (u : Setup C) (P : Primitives C) : State C :=
  initAsReceiver P (P.kem.keygen u.prekey).priv (u.alice P).prekeyCt u.aliceKeyB u.bobKeyB
    (u.alice P).myRatchetPub u.bobKeygen

def Session.start (P : Primitives C) (u : Setup C) : Session C where
  st p := match p with
    | .alice => (u.alice P).state
    | .bob => u.bob P
  sent _ := []
  received _ := []

inductive Event (C : Carriers)
  | send (p : Side) (coins : Coins C) (plaintext : Bytes)
  | deliver (p : Side) (i : ℕ)

/-- The next `encrypt` does not carry a counter to 2^32. -/
def CounterRoom (s : State C) : Prop :=
  if s.needKemStep then s.sendEpoch.toNat + 1 < 2 ^ 32 else s.sendMsgNum.toNat + 1 < 2 ^ 32

namespace Session

def send (P : Primitives C) (s : Session C) (p : Side) (coins : Coins C) (plaintext : Bytes) : Session C :=
  { s with
    st := Function.update s.st p (encrypt P (s.st p) coins plaintext).1
    sent := Function.update s.sent p (s.sent p ++ [⟨(encrypt P (s.st p) coins plaintext).2, plaintext⟩]) }

/-- The addressee of message `i` of `p` ends in `st'` with outcome `r`. -/
def record (s : Session C) (p : Side) (i : ℕ) (st' : State C) (r : Except RatchetError Bytes) : Session C :=
  { s with
    st := Function.update s.st p.other st'
    received := Function.update s.received p (s.received p ++ [(i, r)]) }

def deliver (P : Primitives C) (s : Session C) (p : Side) (i : ℕ) (msg : Message C) : Session C :=
  match (decrypt P msg).run (s.st p.other) with
  | .ok plaintext st' => s.record p i st' (.ok plaintext)
  | .error e st' => s.record p i st' (.error e)

theorem deliver_record (P : Primitives C) (s : Session C) (p : Side) (i : ℕ) (msg : Message C) :
    ∃ st' r, s.deliver P p i msg = s.record p i st' r := by
  unfold deliver
  cases (decrypt P msg).run (s.st p.other) with
  | ok plaintext st' => exact ⟨st', .ok plaintext, rfl⟩
  | error e st' => exact ⟨st', .error e, rfl⟩

section Send
variable (P : Primitives C) (s : Session C) (p : Side) (coins : Coins C) (plaintext : Bytes)

theorem send_st_self : (s.send P p coins plaintext).st p = (encrypt P (s.st p) coins plaintext).1 := by
  simp [send]

theorem send_st_other : (s.send P p coins plaintext).st p.other = s.st p.other := by
  simp [send]

theorem send_sent_self : (s.send P p coins plaintext).sent p =
    s.sent p ++ [⟨(encrypt P (s.st p) coins plaintext).2, plaintext⟩] := by
  simp [send]

theorem send_sent_other : (s.send P p coins plaintext).sent p.other = s.sent p.other := by
  simp [send]

end Send

/-- The messages of `p` that were delivered, whether they opened or not. -/
def delivered (s : Session C) (p : Side) : Finset ℕ := ((s.received p).map Prod.fst).toFinset

def opened (s : Session C) (p : Side) : Finset ℕ :=
  (((s.received p).filter (fun r => r.2.isOk)).map Prod.fst).toFinset

theorem opened_subset (s : Session C) (p : Side) : s.opened p ⊆ s.delivered p := by
  intro i hi
  simp only [opened, delivered, List.mem_toFinset, List.mem_map, List.mem_filter] at hi ⊢
  obtain ⟨r, ⟨hr, _⟩, rfl⟩ := hi
  exact ⟨r, hr, rfl⟩

theorem delivered_record (s : Session C) (p : Side) (i : ℕ) (st' : State C) (r : Except RatchetError Bytes) :
    (s.record p i st' r).delivered p = insert i (s.delivered p) := by
  ext j
  simp [delivered, record]

theorem delivered_record_other (s : Session C) (p : Side) (i : ℕ) (st' : State C) (r : Except RatchetError Bytes) :
    (s.record p i st' r).delivered p.other = s.delivered p.other := by
  simp [delivered, record]

theorem opened_record_ok (s : Session C) (p : Side) (i : ℕ) (st' : State C) (b : Bytes) :
    (s.record p i st' (.ok b)).opened p = insert i (s.opened p) := by
  ext j
  simp [opened, record, List.filter_append, Except.isOk, Except.toBool]

theorem opened_record_error (s : Session C) (p : Side) (i : ℕ) (st' : State C) (e : RatchetError) :
    (s.record p i st' (.error e)).opened p = s.opened p := by
  ext j
  simp [opened, record, List.filter_append, Except.isOk, Except.toBool]

theorem opened_record_other (s : Session C) (p : Side) (i : ℕ) (st' : State C) (r : Except RatchetError Bytes) :
    (s.record p i st' r).opened p.other = s.opened p.other := by
  simp [opened, record]

theorem record_st_self (s : Session C) (p : Side) (i : ℕ) (st' : State C) (r : Except RatchetError Bytes) :
    (s.record p i st' r).st p.other = st' := by
  simp [record]

theorem record_st_other (s : Session C) (p : Side) (i : ℕ) (st' : State C) (r : Except RatchetError Bytes) :
    (s.record p i st' r).st p = s.st p := by
  simp [record, p.ne_other]

theorem deliver_st_self (P : Primitives C) (s : Session C) (p : Side) (i : ℕ) (msg : Message C) :
    (s.deliver P p i msg).st p.other = endState ((decrypt P msg).run (s.st p.other)) := by
  unfold deliver
  cases (decrypt P msg).run (s.st p.other) with
  | ok plaintext st' => exact record_st_self s p i st' _
  | error e st' => exact record_st_self s p i st' _

theorem deliver_st_other (P : Primitives C) (s : Session C) (p : Side) (i : ℕ) (msg : Message C) : (s.deliver P p i msg).st p = s.st p := by
  obtain ⟨st', r, hd⟩ := deliver_record P s p i msg
  rw [hd, record_st_other]

end Session

/-- One event of an honest session: each message is delivered unmodified and at most once. -/
inductive Step (P : Primitives C) : Session C → Event C → Session C → Prop
  | send (s : Session C) (p : Side) (coins : Coins C) (plaintext : Bytes) (room : CounterRoom (s.st p)) :
      Step P s (.send p coins plaintext) (s.send P p coins plaintext)
  | deliver (s : Session C) (p : Side) (i : ℕ) (m : Sent C) (sent : (s.sent p)[i]? = some m)
      (once : i ∉ s.delivered p) : Step P s (.deliver p i) (s.deliver P p i m.msg)

def Honest (P : Primitives C) (u : Setup C) (s : Session C) : Prop := Reachable (Step P) (Session.start P u) s

/-! ## A small session -/

def demo : Setup symbols := ⟨Term.coin 0, Term.coin 1, Term.coin 2, Term.coin 3, Term.coin 4, Term.coin 5⟩

def demoCoins (n : ℕ) : Coins symbols := ⟨Term.coin (3 * n + 6), Term.coin (3 * n + 7), Term.coin (3 * n + 8)⟩

/-- Bob writes twice before anything is delivered; only the first message carries a KEM ciphertext. -/
def twoReplies : Session symbols :=
  ((Session.start symbolic demo).send symbolic .bob (demoCoins 0) [1]).send symbolic .bob (demoCoins 1) [2]

def replyOne : Sent symbols := ⟨(encrypt symbolic (demo.bob symbolic) (demoCoins 0) [1]).2, [1]⟩

def replyTwo : Sent symbols :=
  ⟨(encrypt symbolic (encrypt symbolic (demo.bob symbolic) (demoCoins 0) [1]).1 (demoCoins 1) [2]).2, [2]⟩

theorem twoReplies_sent : twoReplies.sent .bob = [replyOne, replyTwo] := rfl

/-- The two sends are a run of every system that allows sending. -/
theorem twoReplies_reachable {step : Session symbols → Event symbols → Session symbols → Prop}
    (hsend : ∀ s p coins plaintext, CounterRoom (s.st p) → step s (.send p coins plaintext) (s.send symbolic p coins plaintext)) :
    Reachable step (Session.start symbolic demo) twoReplies := by
  refine ((Reachable.refl _ _).tail (hsend _ .bob (demoCoins 0) [1] ?_)).tail (hsend _ .bob (demoCoins 1) [2] ?_)
  · change (0 : ℕ) + 1 < 2 ^ 32
    decide
  · change (1 : ℕ) + 1 < 2 ^ 32
    decide

end ScatterWeb.Ratchet
