import ScatterWeb.Ratchet.Session

/-! # The session invariant

The two sides take KEM steps in turns. Each step mixes one shared secret into the root key, so both
root keys lie on one line `rootAt 0, rootAt 1, …`: a side stands at the number of epochs it has sent
plus the number it has received. Epoch `e` of Alice hangs on root `2 e`, epoch `e` of Bob on root
`2 e - 1`; only epoch 0 of Bob hangs on root 0, under another label.

Between two steps the session is in one of two phases. In `Turn p` both sides stand at the same root
and the next `encrypt` of `p` takes a step. In `Flight p` that step was taken and the message that
carries it has not been opened. `Inv` joins the phase with what the two directions are in
(`Sends`, `Receives`, `Accounts`) and is kept by every step of an honest session. -/
namespace ScatterWeb.Ratchet
open Crypto Lib
set_option autoImplicit false
variable {C : Carriers}

/-! ## The line of root keys -/

def rootAt (P : Primitives C) (root0 : C.Key) (secret : ℕ → C.SS) : ℕ → C.Key
  | 0 => root0
  | k + 1 => ratchetStep P (rootAt P root0 secret k) (secret k)

theorem rootAt_update (P : Primitives C) (root0 : C.Key) (secret : ℕ → C.SS) {k n : ℕ} (hn : n ≤ k) (ss : C.SS) :
    rootAt P root0 (Function.update secret k ss) n = rootAt P root0 secret n := by
  induction n with
  | zero => rfl
  | succ n ih =>
    have hne : n ≠ k := by omega
    simp only [rootAt, Function.update_of_ne hne, ih (by omega)]

/-- The root on which epoch `e` of a side hangs. -/
def stepIndex : Side → ℕ → ℕ
  | .alice, e => 2 * e
  | .bob, e => 2 * e - 1

/-- The chain key with which epoch `e` of a side starts. -/
def chainOf (P : Primitives C) (root0 : C.Key) (secret : ℕ → C.SS) : Side → ℕ → C.Key
  | .bob, 0 => recvChain P root0
  | p, e => sendChain P (rootAt P root0 secret (stepIndex p e))

theorem chainOf_succ (P : Primitives C) (root0 : C.Key) (secret : ℕ → C.SS) (p : Side) (e : ℕ) :
    chainOf P root0 secret p (e + 1) = sendChain P (rootAt P root0 secret (stepIndex p (e + 1))) := by
  cases p <;> rfl

theorem chainOf_update (P : Primitives C) (root0 : C.Key) (secret : ℕ → C.SS) {p : Side} {k e : ℕ}
    (he : stepIndex p e ≤ k) (ss : C.SS) :
    chainOf P root0 (Function.update secret k ss) p e = chainOf P root0 secret p e := by
  cases p with
  | alice => simp only [chainOf, rootAt_update P root0 secret he]
  | bob =>
    cases e with
    | zero => rfl
    | succ e => simp only [chainOf, rootAt_update P root0 secret he]

/-! ## The sending half of a state -/

/-- The sending half of `s` stands at the end of the track, in an epoch whose chain starts at `ck` and
which may not have a message yet; `log` is what was sent. -/
structure Ready (P : Primitives C) (t : Track C) (ck : C.Key) (s : State C) (log : List (Sent C)) : Prop where
  num_eq : s.sendMsgNum.toNat = t.count s.sendEpoch.toNat
  chain_eq : s.sendChainKey = chainAt P ck s.sendMsgNum.toNat
  fits : t.count s.sendEpoch.toNat = 0 ∨ t.chain s.sendEpoch.toNat = ck
  prev_eq : s.prevSendCount.toNat = t.prev s.sendEpoch.toNat
  later_zero : ∀ e > s.sendEpoch.toNat, t.count e = 0
  length_eq : log.length = t.start (s.sendEpoch.toNat + 1)
  entry : ∀ e n, n < t.count e → ∃ m, log[t.start e + n]? = some m ∧ Genuine P t e n m.msg m.plaintext

/-- Between two calls of `encrypt` every epoch but the first has a message. -/
structure Sends (P : Primitives C) (t : Track C) (s : State C) (log : List (Sent C)) : Prop
    extends Ready P t (t.chain s.sendEpoch.toNat) s log where
  begun : 0 < s.sendEpoch.toNat → 0 < t.count s.sendEpoch.toNat

variable {P : Primitives C} {t : Track C} {ck : C.Key} {s : State C} {log : List (Sent C)}

theorem Sends.congr (h : Sends P t s log) {s' : State C} (hn : s'.sendMsgNum = s.sendMsgNum)
    (hc : s'.sendChainKey = s.sendChainKey) (hp : s'.prevSendCount = s.prevSendCount)
    (he : s'.sendEpoch = s.sendEpoch) : Sends P t s' log := by
  refine ⟨⟨?_, ?_, Or.inr rfl, ?_, ?_, ?_, h.entry⟩, ?_⟩
  · rw [hn, he]
    exact h.num_eq
  · rw [hc, hn, he]
    exact h.chain_eq
  · rw [hp, he]
    exact h.prev_eq
  · rw [he]
    exact h.later_zero
  · rw [he]
    exact h.length_eq
  · rw [he]
    exact h.begun

theorem Ready.epoch_le (h : Ready P t ck s log) {e n : ℕ} (hn : n < t.count e) : e ≤ s.sendEpoch.toNat := by
  by_contra hgt
  have := h.later_zero e (by omega)
  omega

theorem Ready.locate (h : Ready P t ck s log) {i : ℕ} {m : Sent C} (hm : log[i]? = some m) :
    ∃ e n, e ≤ s.sendEpoch.toNat ∧ n < t.count e ∧ t.start e + n = i ∧ Genuine P t e n m.msg m.plaintext := by
  have hi : i < t.start (s.sendEpoch.toNat + 1) := by
    rw [← h.length_eq]
    exact (List.getElem?_eq_some_iff.mp hm).1
  obtain ⟨e, n, he, hn, rfl⟩ := t.exists_of_lt hi
  obtain ⟨m', hm', hg⟩ := h.entry e n hn
  rw [hm] at hm'
  obtain rfl := Option.some.inj hm'
  exact ⟨e, n, he, hn, rfl, hg⟩

theorem Track.push_prev (t : Track C) {e e' : ℕ} (ck : C.Key) (h : e' ≤ e) : (t.push e ck).prev e' = t.prev e' := by
  cases e' with
  | zero => rfl
  | succ e' => exact t.push_count_ne ck (by omega)

theorem Genuine.push {e n : ℕ} {msg : Message C} {plaintext : Bytes} (g : Genuine P t e n msg plaintext)
    {e' : ℕ} {ck : C.Key} (he : e ≤ e') (hck : t.count e' = 0 ∨ t.chain e' = ck) :
    Genuine P (t.push e' ck) e n msg plaintext := by
  have hchain : (t.push e' ck).chain e = t.chain e := by
    by_cases heq : e = e'
    · subst heq
      rw [t.push_chain_self]
      rcases hck with hck | hck
      · have := g.num_lt
        omega
      · exact hck.symm
    · exact t.push_chain_ne ck heq
  refine ⟨?_, g.epoch_eq, g.msgNum_eq, ?_, g.kemCt_iff, ?_⟩
  · by_cases heq : e = e'
    · subst heq
      rw [t.push_count_self]
      exact Nat.lt_succ_of_lt g.num_lt
    · rw [t.push_count_ne ck heq]
      exact g.num_lt
  · rw [t.push_prev ck he]
    exact g.prevCount_eq
  · rw [g.sealed]
    simp only [Track.key, hchain]

/-- What `encrypt` makes is the next message of its epoch. -/
theorem Ready.genuine_encryptStep (h : Ready P t ck s log) {kemCt : Option C.Ct}
    (hk : kemCt.isSome ↔ 0 < s.sendEpoch.toNat ∧ t.count s.sendEpoch.toNat = 0) (nonce : C.Nonce) (plaintext : Bytes) :
    Genuine P (t.push s.sendEpoch.toNat ck) s.sendEpoch.toNat (t.count s.sendEpoch.toNat)
      (encryptStep P s kemCt nonce plaintext).2 plaintext := by
  refine ⟨?_, rfl, h.num_eq, ?_, hk, ?_⟩
  · rw [t.push_count_self]
    exact Nat.lt_succ_self _
  · exact h.prev_eq.trans (t.push_prev ck (le_refl _)).symm
  · change P.aes.encrypt (messageKey P s.sendChainKey) nonce plaintext [] = _
    rw [h.chain_eq, h.num_eq]
    simp only [Track.key, t.push_chain_self]
    rfl

/-- With the next message at its end, the log has every slot of the longer track. -/
theorem Ready.entry_push (h : Ready P t ck s log) {m : Sent C}
    (hm : Genuine P (t.push s.sendEpoch.toNat ck) s.sendEpoch.toNat (t.count s.sendEpoch.toNat) m.msg m.plaintext) {e n : ℕ}
    (hn : n < (t.push s.sendEpoch.toNat ck).count e) :
    ∃ m', (log ++ [m])[(t.push s.sendEpoch.toNat ck).start e + n]? = some m' ∧
      Genuine P (t.push s.sendEpoch.toNat ck) e n m'.msg m'.plaintext := by
  rcases t.lt_or_eq_of_push hn with hold | ⟨rfl, rfl⟩
  · obtain ⟨m', hm', hg⟩ := h.entry e n hold
    have hle := h.epoch_le hold
    refine ⟨m', ?_, hg.push hle h.fits⟩
    rw [t.push_start ck hle, List.getElem?_append_left (List.getElem?_eq_some_iff.mp hm').1]
    exact hm'
  · have hend : log.length = t.start s.sendEpoch.toNat + t.count s.sendEpoch.toNat := h.length_eq
    refine ⟨m, ?_, hm⟩
    rw [t.push_start ck (le_refl _), ← hend, List.getElem?_concat_length]

/-- `encrypt` after its KEM step: one more message on the track. -/
theorem Ready.encryptStep (h : Ready P t ck s log) (hlt : t.count s.sendEpoch.toNat + 1 < 2 ^ 32)
    {kemCt : Option C.Ct} (hk : kemCt.isSome ↔ 0 < s.sendEpoch.toNat ∧ t.count s.sendEpoch.toNat = 0)
    (nonce : C.Nonce) (plaintext : Bytes) :
    Sends P (t.push s.sendEpoch.toNat ck) (encryptStep P s kemCt nonce plaintext).1
      (log ++ [⟨(encryptStep P s kemCt nonce plaintext).2, plaintext⟩]) := by
  have hone : (s.sendMsgNum + 1).toNat = t.count s.sendEpoch.toNat + 1 := by
    rw [toNat_succ (by rw [h.num_eq]; exact hlt), h.num_eq]
  have hend : log.length = t.start s.sendEpoch.toNat + t.count s.sendEpoch.toNat := h.length_eq
  refine ⟨⟨?_, ?_, Or.inr rfl, ?_, ?_, ?_, ?_⟩, ?_⟩
  · change (s.sendMsgNum + 1).toNat = (t.push s.sendEpoch.toNat ck).count s.sendEpoch.toNat
    rw [hone, t.push_count_self]
  · change nextChainKey P s.sendChainKey =
      chainAt P ((t.push s.sendEpoch.toNat ck).chain s.sendEpoch.toNat) (s.sendMsgNum + 1).toNat
    rw [t.push_chain_self, hone, h.chain_eq, h.num_eq]
    rfl
  · exact h.prev_eq.trans (t.push_prev ck (le_refl _)).symm
  · intro e he
    have hne : e ≠ s.sendEpoch.toNat := Nat.ne_of_gt he
    rw [t.push_count_ne ck hne]
    exact h.later_zero e he
  · change _ = (t.push s.sendEpoch.toNat ck).start s.sendEpoch.toNat +
      (t.push s.sendEpoch.toNat ck).count s.sendEpoch.toNat
    rw [List.length_append, hend, t.push_start ck (le_refl _), t.push_count_self]
    rfl
  · intro e n hn
    exact h.entry_push (h.genuine_encryptStep hk nonce plaintext) hn
  · intro _
    change 0 < (t.push s.sendEpoch.toNat ck).count s.sendEpoch.toNat
    rw [t.push_count_self]
    exact Nat.succ_pos _

/-- The KEM step of `encrypt` opens an empty epoch. -/
theorem Sends.kemStepSend (h : Sends P t s log) (hlt : s.sendEpoch.toNat + 1 < 2 ^ 32) (coins : Coins C) :
    Ready P t (sendChain P (kemStepSend P s coins).1.rootKey) (kemStepSend P s coins).1 log := by
  have hone : (Ratchet.kemStepSend P s coins).1.sendEpoch.toNat = s.sendEpoch.toNat + 1 := toNat_succ hlt
  have hzero : t.count (s.sendEpoch.toNat + 1) = 0 := h.later_zero _ (Nat.lt_succ_self _)
  refine ⟨?_, rfl, ?_, ?_, ?_, ?_, h.entry⟩
  · rw [hone, hzero]
    rfl
  · rw [hone]
    exact Or.inl hzero
  · rw [hone]
    exact h.num_eq
  · intro e he
    rw [hone] at he
    exact h.later_zero e (by omega)
  · rw [hone, h.length_eq]
    change _ = t.start (s.sendEpoch.toNat + 1) + t.count (s.sendEpoch.toNat + 1)
    rw [hzero]
    exact (Nat.add_zero _).symm

/-! ## Phases -/

/-- What the proof knows beyond the session: both tracks, both windows and the shared secrets. -/
structure Ghost (C : Carriers) where
  track : Side → Track C
  window : Side → Window maxSkippedKeys
  secret : ℕ → C.SS

/-- Both sides stand at one root, and `p` takes the next step. -/
structure Turn (P : Primitives C) (st : Side → State C) (p : Side) : Prop where
  need : (st p).needKemStep = true
  idle : (st p.other).needKemStep = false
  sent_eq : (st p.other).recvEpoch = (st p).sendEpoch
  got_eq : (st p).recvEpoch = (st p.other).sendEpoch
  level : (st p).sendEpoch.toNat + (st p).recvEpoch.toNat + 1 = stepIndex p ((st p).sendEpoch.toNat + 1)
  pub_eq : (st p).peerRatchetPub = (st p.other).myRatchetKem.pub
  keypair : ∃ r, (st p.other).myRatchetKem = P.kem.keygen r

/-- The first message of an epoch of `p`: it carries the secret that the epoch's root was made with. -/
structure Carries (P : Primitives C) (st : Side → State C) (p : Side) (secret : ℕ → C.SS) (msg : Message C) (ct : C.Ct) :
    Prop where
  kemCt_eq : msg.header.kemCt = some ct
  secret_eq : P.kem.decapsulate (st p.other).myRatchetKem.priv ct =
    secret ((st p.other).sendEpoch.toNat + (st p.other).recvEpoch.toNat)
  pub_eq : msg.header.senderRatchetPub = (st p).myRatchetKem.pub

/-- `p` has taken a step, and the other side has not opened the message that carries it. -/
structure Flight (P : Primitives C) (g : Ghost C) (s : Session C) (p : Side) : Prop where
  idle : (s.st p).needKemStep = false
  idle_other : (s.st p.other).needKemStep = false
  ahead : (s.st p).sendEpoch.toNat = (s.st p.other).recvEpoch.toNat + 1
  got_eq : (s.st p).recvEpoch = (s.st p.other).sendEpoch
  level : (s.st p).sendEpoch.toNat + (s.st p).recvEpoch.toNat = stepIndex p (s.st p).sendEpoch.toNat
  keypair : ∃ r, (s.st p).myRatchetKem = P.kem.keygen r
  first : ∃ m ct, (s.sent p)[(g.track p).start (s.st p).sendEpoch.toNat]? = some m ∧
    Carries P s.st p g.secret m.msg ct

def Setup.root (u : Setup C) (P : Primitives C) : C.Key := (u.alice P).state.rootKey

structure Inv (P : Primitives C) (u : Setup C) (g : Ghost C) (s : Session C) : Prop where
  sends : ∀ p, Sends P (g.track p) (s.st p) (s.sent p)
  receives : ∀ p, Receives P (g.track p) (s.st p.other) (g.window p)
  accounts : ∀ p, (g.window p).Accounts (s.opened p)
  root_eq : ∀ p, (s.st p).rootKey =
    rootAt P (u.root P) g.secret ((s.st p).sendEpoch.toNat + (s.st p).recvEpoch.toNat)
  chain_eq : ∀ p e, e ≤ (s.st p).sendEpoch.toNat → (g.track p).chain e = chainOf P (u.root P) g.secret p e
  entered : ∀ p e, 0 < e → e ≤ (s.st p.other).recvEpoch.toNat → (g.track p).start e ∈ s.opened p
  phase : ∃ p, Turn P s.st p ∨ Flight P g s p

def Ghost.start (P : Primitives C) (u : Setup C) (secret : ℕ → C.SS) : Ghost C where
  track p := ⟨fun _ => chainOf P (u.root P) secret p 0, fun _ => 0⟩
  window _ := Window.empty maxSkippedKeys
  secret := secret

theorem Setup.bob_root (u : Setup C) (hP : P.kem.Correct) : (u.bob P).rootKey = u.root P := by
  have h := hP u.prekey u.encap
  simp only [Setup.bob, Setup.root, Setup.alice, initAsReceiver, initAsSender, h]

theorem Inv.start (u : Setup C) (hP : P.kem.Correct) (secret : ℕ → C.SS) :
    Inv P u (Ghost.start P u secret) (Session.start P u) := by
  have hbob := u.bob_root hP
  have hzero : ∀ p e, ((Ghost.start P u secret).track p).start e = 0 := by
    intro p e
    induction e with
    | zero => rfl
    | succ e ih => exact ih
  refine ⟨?_, ?_, fun p => Window.Accounts.empty _, ?_, ?_, ?_, ⟨.bob, Or.inl ?_⟩⟩
  · intro p
    refine ⟨⟨?_, ?_, Or.inr rfl, ?_, fun _ _ => rfl, (hzero p _).symm, fun _ _ hn => absurd hn (Nat.not_lt_zero _)⟩, ?_⟩
    · cases p <;> rfl
    · cases p with
      | alice => rfl
      | bob =>
        change recvChain P (u.bob P).rootKey = recvChain P (u.root P)
        rw [hbob]
    · cases p <;> rfl
    · intro h
      cases p <;> exact absurd h (Nat.lt_irrefl 0)
  · intro p
    refine ⟨fun _ => Nat.two_pow_pos 32, ?_, ?_, ?_, ?_, ?_, ?_⟩
    · cases p <;> exact Nat.zero_le _
    · rw [hzero]
      cases p <;> rfl
    · cases p with
      | alice =>
        change sendChain P (u.bob P).rootKey = sendChain P (u.root P)
        rw [hbob]
      | bob => rfl
    · intro e n hn
      exact absurd hn (Nat.not_lt_zero _)
    · intro e n _
      cases p <;> rfl
    · cases p <;> rfl
  · intro p
    cases p with
    | alice => rfl
    | bob => exact hbob
  · intro p e he
    have h0 : e = 0 := by
      cases p <;> exact Nat.le_zero.mp he
    rw [h0]
    rfl
  · intro p e hpos he
    have h0 : e = 0 := by
      cases p <;> exact Nat.le_zero.mp he
    omega
  · exact ⟨rfl, rfl, rfl, rfl, rfl, rfl, ⟨u.aliceKeygen, rfl⟩⟩

/-! ## Steps that leave the phase alone -/

structure Steady (s s' : State C) : Prop where
  need : s'.needKemStep = s.needKemStep
  sendEpoch : s'.sendEpoch = s.sendEpoch
  recvEpoch : s'.recvEpoch = s.recvEpoch
  kem : s'.myRatchetKem = s.myRatchetKem
  peer : s'.peerRatchetPub = s.peerRatchetPub
  root : s'.rootKey = s.rootKey

theorem Steady.refl (s : State C) : Steady s s := ⟨rfl, rfl, rfl, rfl, rfl, rfl⟩

theorem OnlyRecv.steady {s s' : State C} (h : OnlyRecv s s') : Steady s s' := by
  obtain ⟨_, _, _, rfl⟩ := h
  exact ⟨rfl, rfl, rfl, rfl, rfl, rfl⟩

theorem Turn.steady {st st' : Side → State C} {p : Side} (h : Turn P st p) (hs : ∀ q, Steady (st q) (st' q)) :
    Turn P st' p := by
  obtain ⟨h1, h2, h3, h4, h5, h6, h7⟩ := h
  refine ⟨?_, ?_, ?_, ?_, ?_, ?_, ?_⟩
  · rw [(hs p).need, h1]
  · rw [(hs p.other).need, h2]
  · rw [(hs p.other).recvEpoch, (hs p).sendEpoch, h3]
  · rw [(hs p).recvEpoch, (hs p.other).sendEpoch, h4]
  · rw [(hs p).sendEpoch, (hs p).recvEpoch, h5]
  · rw [(hs p).peer, (hs p.other).kem, h6]
  · rw [(hs p.other).kem]
    exact h7

theorem Flight.steady {g g' : Ghost C} {s s' : Session C} {p : Side} (h : Flight P g s p)
    (hs : ∀ q, Steady (s.st q) (s'.st q)) (hsecret : g'.secret = g.secret)
    (hstart : (g'.track p).start (s.st p).sendEpoch.toNat = (g.track p).start (s.st p).sendEpoch.toNat)
    (hlog : ∀ (i : ℕ) (m : Sent C), (s.sent p)[i]? = some m → (s'.sent p)[i]? = some m) : Flight P g' s' p := by
  obtain ⟨h1, h2, h3, h4, h5, h6, m, ct, hm, hc⟩ := h
  refine ⟨?_, ?_, ?_, ?_, ?_, ?_, m, ct, ?_, ?_⟩
  · rw [(hs p).need, h1]
  · rw [(hs p.other).need, h2]
  · rw [(hs p).sendEpoch, (hs p.other).recvEpoch, h3]
  · rw [(hs p).recvEpoch, (hs p.other).sendEpoch, h4]
  · rw [(hs p).sendEpoch, (hs p).recvEpoch, h5]
  · rw [(hs p).kem]
    exact h6
  · rw [(hs p).sendEpoch, hstart]
    exact hlog _ _ hm
  · refine ⟨hc.kemCt_eq, ?_, ?_⟩
    · rw [(hs p.other).kem, (hs p.other).sendEpoch, (hs p.other).recvEpoch, hsecret]
      exact hc.secret_eq
    · rw [(hs p).kem]
      exact hc.pub_eq

variable {u : Setup C} {g : Ghost C} {s : Session C} {p : Side}

theorem Inv.recvEpoch_le (h : Inv P u g s) (p : Side) :
    (s.st p.other).recvEpoch.toNat ≤ (s.st p).sendEpoch.toNat := by
  obtain ⟨q, hq⟩ := h.phase
  obtain rfl | rfl := p.eq_or_other q
  · rcases hq with hq | hq
    · rw [hq.sent_eq]
    · have := hq.ahead
      omega
  · rcases hq with hq | hq
    · rw [hq.got_eq, p.other_other]
    · rw [hq.got_eq, p.other_other]

/-- An epoch that is sent and not entered is in flight. -/
theorem Inv.flight_of_lt (h : Inv P u g s) (hlt : (s.st p.other).recvEpoch.toNat < (s.st p).sendEpoch.toNat) :
    Flight P g s p := by
  obtain ⟨q, hq⟩ := h.phase
  obtain rfl | rfl := p.eq_or_other q
  · rcases hq with hq | hq
    · rw [hq.sent_eq] at hlt
      omega
    · exact hq
  · rcases hq with hq | hq
    · rw [hq.got_eq, p.other_other] at hlt
      omega
    · rw [hq.got_eq, p.other_other] at hlt
      omega

theorem Receives.congr {w : Window maxSkippedKeys} {s s' : State C} (h : Receives P t s w)
    (he : s'.recvEpoch = s.recvEpoch) (hn : s'.recvMsgNum = s.recvMsgNum)
    (hc : s'.recvChainKey = s.recvChainKey) (hk : s'.skippedKeys = s.skippedKeys) : Receives P t s' w := by
  refine ⟨h.count_lt, ?_, ?_, ?_, ?_, ?_, ?_⟩
  · rw [hn, he]
    exact h.num_le
  · rw [hn, he]
    exact h.next_eq
  · rw [hn, he, hc]
    exact h.chain_eq
  · rw [hk]
    exact h.cached
  · rw [hk]
    exact h.uncached
  · rw [hk]
    exact h.size_eq

/-! ## Sending -/

def Ghost.push (g : Ghost C) (p : Side) (e : ℕ) (ck : C.Key) (secret : ℕ → C.SS) : Ghost C where
  track := Function.update g.track p ((g.track p).push e ck)
  window := g.window
  secret := secret

theorem Ghost.push_track_self (g : Ghost C) (p : Side) (e : ℕ) (ck : C.Key) (secret : ℕ → C.SS) :
    (g.push p e ck secret).track p = (g.track p).push e ck := by
  simp [Ghost.push]

theorem Ghost.push_track_other (g : Ghost C) (p : Side) (e : ℕ) (ck : C.Key) (secret : ℕ → C.SS) :
    (g.push p e ck secret).track p.other = g.track p.other := by
  simp [Ghost.push]

theorem encrypt_recv (P : Primitives C) (s : State C) (coins : Coins C) (plaintext : Bytes) :
    (encrypt P s coins plaintext).1.recvEpoch = s.recvEpoch ∧
    (encrypt P s coins plaintext).1.recvMsgNum = s.recvMsgNum ∧
    (encrypt P s coins plaintext).1.recvChainKey = s.recvChainKey ∧
    (encrypt P s coins plaintext).1.skippedKeys = s.skippedKeys := by
  unfold encrypt
  cases s.needKemStep <;> exact ⟨rfl, rfl, rfl, rfl⟩

theorem Inv.send_receives (h : Inv P u g s) {e : ℕ} {ck : C.Key} {secret : ℕ → C.SS} (coins : Coins C)
    (plaintext : Bytes) (hlast : (s.st p).sendEpoch.toNat ≤ e) (hzero : ∀ e' > e, (g.track p).count e' = 0)
    (hck : (g.track p).count e = 0 ∧ (s.st p.other).recvEpoch.toNat < e ∨ (g.track p).chain e = ck)
    (hlt : (g.track p).count e + 1 < 2 ^ 32) (q : Side) :
    Receives P ((g.push p e ck secret).track q) ((s.send P p coins plaintext).st q.other) (g.window q) := by
  obtain rfl | rfl := p.eq_or_other q
  · rw [g.push_track_self, Session.send_st_other]
    exact (h.receives q).push ((h.recvEpoch_le q).trans hlast) hzero hck hlt
  · rw [g.push_track_other, p.other_other, Session.send_st_self]
    obtain ⟨he, hn, hc, hk⟩ := encrypt_recv P (s.st p) coins plaintext
    have hr := h.receives p.other
    rw [p.other_other] at hr
    exact hr.congr he hn hc hk

theorem Inv.send_entered (h : Inv P u g s) {e : ℕ} {ck : C.Key} {secret : ℕ → C.SS} (coins : Coins C)
    (plaintext : Bytes) (hlast : (s.st p).sendEpoch.toNat ≤ e) (q : Side) (e' : ℕ) (hpos : 0 < e')
    (he' : e' ≤ ((s.send P p coins plaintext).st q.other).recvEpoch.toNat) :
    ((g.push p e ck secret).track q).start e' ∈ (s.send P p coins plaintext).opened q := by
  change _ ∈ s.opened q
  obtain rfl | rfl := p.eq_or_other q
  · rw [Session.send_st_other] at he'
    have hle := h.recvEpoch_le q
    rw [g.push_track_self, Track.push_start _ _ (by omega)]
    exact h.entered q e' hpos he'
  · rw [p.other_other, Session.send_st_self, (encrypt_recv P (s.st p) coins plaintext).1] at he'
    rw [g.push_track_other]
    exact h.entered p.other e' hpos (by rw [p.other_other]; exact he')

theorem Inv.send_chain (h : Inv P u g s) (hneed : (s.st p).needKemStep = false)
    (room : (s.st p).sendMsgNum.toNat + 1 < 2 ^ 32) (coins : Coins C) (plaintext : Bytes) :
    Inv P u (g.push p (s.st p).sendEpoch.toNat ((g.track p).chain (s.st p).sendEpoch.toNat) g.secret)
      (s.send P p coins plaintext) := by
  have henc : encrypt P (s.st p) coins plaintext = encryptStep P (s.st p) none coins.nonce plaintext := by
    simp [encrypt, hneed]
  have hlt : (g.track p).count (s.st p).sendEpoch.toNat + 1 < 2 ^ 32 := by
    rw [← (h.sends p).num_eq]
    exact room
  have hsteady : ∀ q, Steady (s.st q) ((s.send P p coins plaintext).st q) := by
    intro q
    obtain rfl | rfl := p.eq_or_other q
    · rw [Session.send_st_self, henc]
      exact ⟨rfl, rfl, rfl, rfl, rfl, rfl⟩
    · rw [Session.send_st_other]
      exact Steady.refl _
  refine ⟨?_, ?_, h.accounts, ?_, ?_, ?_, ?_⟩
  · intro q
    obtain rfl | rfl := p.eq_or_other q
    · rw [g.push_track_self, Session.send_st_self, Session.send_sent_self, henc]
      refine (h.sends q).toReady.encryptStep hlt ?_ coins.nonce plaintext
      have hbegun := (h.sends q).begun
      simp only [Option.isSome_none, Bool.false_eq_true, false_iff]
      omega
    · rw [g.push_track_other, Session.send_st_other, Session.send_sent_other]
      exact h.sends p.other
  · exact h.send_receives coins plaintext (le_refl _) (h.sends p).later_zero (Or.inr rfl) hlt
  · intro q
    rw [(hsteady q).root, (hsteady q).sendEpoch, (hsteady q).recvEpoch]
    exact h.root_eq q
  · intro q e he
    rw [(hsteady q).sendEpoch] at he
    have hchain := h.chain_eq q e he
    obtain rfl | rfl := p.eq_or_other q
    · rw [g.push_track_self]
      by_cases heq : e = (s.st q).sendEpoch.toNat
      · rw [heq, Track.push_chain_self, ← heq]
        exact hchain
      · rw [Track.push_chain_ne _ _ heq]
        exact hchain
    · rw [g.push_track_other]
      exact hchain
  · exact h.send_entered coins plaintext (le_refl _)
  · obtain ⟨q, hq⟩ := h.phase
    refine ⟨q, hq.imp (fun hq => hq.steady hsteady) (fun hq => hq.steady hsteady rfl ?_ ?_)⟩
    · obtain rfl | rfl := p.eq_or_other q
      · rw [g.push_track_self, Track.push_start _ _ (le_refl _)]
      · rw [g.push_track_other]
    · intro i m hm
      obtain rfl | rfl := p.eq_or_other q
      · rw [Session.send_sent_self, List.getElem?_append_left (List.getElem?_eq_some_iff.mp hm).1]
        exact hm
      · rw [Session.send_sent_other]
        exact hm

theorem Inv.turn_of_need (h : Inv P u g s) (hneed : (s.st p).needKemStep = true) : Turn P s.st p := by
  obtain ⟨q, hq⟩ := h.phase
  obtain rfl | rfl := p.eq_or_other q
  · rcases hq with hq | hq
    · exact hq
    · exact absurd (hneed.symm.trans hq.idle) (by decide)
  · rcases hq with hq | hq
    · have hidle := hq.idle
      rw [p.other_other] at hidle
      exact absurd (hneed.symm.trans hidle) (by decide)
    · have hidle := hq.idle_other
      rw [p.other_other] at hidle
      exact absurd (hneed.symm.trans hidle) (by decide)

theorem stepIndex_lt {p : Side} {e e' : ℕ} (h : e < e') : stepIndex p e < stepIndex p e' := by
  cases p <;> simp only [stepIndex] <;> omega

/-- When `p` is to take a step, every epoch sent so far hangs on a root that both sides have. -/
theorem Turn.stepIndex_le {st : Side → State C} (h : Turn P st p) (q : Side) {e : ℕ}
    (he : e ≤ (st q).sendEpoch.toNat) : stepIndex q e ≤ (st p).sendEpoch.toNat + (st p).recvEpoch.toNat := by
  have hlevel := h.level
  obtain rfl | rfl := p.eq_or_other q
  · have := stepIndex_lt (p := q) (show e < (st q).sendEpoch.toNat + 1 by omega)
    omega
  · rw [← h.got_eq] at he
    cases p <;> simp only [Side.other, stepIndex] at hlevel he ⊢ <;> omega

/-! ### With a KEM step -/

/-- The shared secret of the step, and the new epoch of `p`. -/
def Ghost.kemStep (P : Primitives C) (g : Ghost C) (s : Session C) (p : Side) (coins : Coins C) : Ghost C :=
  g.push p ((s.st p).sendEpoch.toNat + 1) (sendChain P (kemStepSend P (s.st p) coins).1.rootKey)
    (Function.update g.secret ((s.st p).sendEpoch.toNat + (s.st p).recvEpoch.toNat)
      (P.kem.encapsulate (s.st p).peerRatchetPub coins.encap).2)

section KemStep
variable (h : Inv P u g s) (hneed : (s.st p).needKemStep = true) (room : (s.st p).sendEpoch.toNat + 1 < 2 ^ 32)
  (coins : Coins C) (plaintext : Bytes)

include hneed in
theorem encrypt_of_need : encrypt P (s.st p) coins plaintext =
    encryptStep P (kemStepSend P (s.st p) coins).1 (some (kemStepSend P (s.st p) coins).2) coins.nonce plaintext := by
  simp [encrypt, hneed]

include hneed room in
theorem sendEpoch_send_of_need : ((s.send P p coins plaintext).st p).sendEpoch.toNat = (s.st p).sendEpoch.toNat + 1 := by
  rw [Session.send_st_self, encrypt_of_need hneed]
  exact toNat_succ room

theorem recvEpoch_send : ((s.send P p coins plaintext).st p).recvEpoch = (s.st p).recvEpoch := by
  rw [Session.send_st_self, (encrypt_recv P (s.st p) coins plaintext).1]

include h hneed

theorem Inv.level_other : (s.st p.other).sendEpoch.toNat + (s.st p.other).recvEpoch.toNat =
    (s.st p).sendEpoch.toNat + (s.st p).recvEpoch.toNat := by
  have hturn := h.turn_of_need hneed
  rw [← hturn.got_eq, hturn.sent_eq, Nat.add_comm]

omit hneed in
/-- The root the step leads to. -/
theorem Inv.root_kemStepSend : (kemStepSend P (s.st p) coins).1.rootKey =
    rootAt P (u.root P) (g.kemStep P s p coins).secret ((s.st p).sendEpoch.toNat + (s.st p).recvEpoch.toNat + 1) := by
  change ratchetStep P (s.st p).rootKey _ = ratchetStep P _ (Function.update g.secret _ _ _)
  rw [Function.update_self]
  refine congrArg (fun root => ratchetStep P root _) ?_
  exact (h.root_eq p).trans (rootAt_update P _ _ (le_refl _) _).symm

include room

theorem Inv.send_kem_root (q : Side) : ((s.send P p coins plaintext).st q).rootKey =
    rootAt P (u.root P) (g.kemStep P s p coins).secret
      (((s.send P p coins plaintext).st q).sendEpoch.toNat + ((s.send P p coins plaintext).st q).recvEpoch.toNat) := by
  obtain rfl | rfl := p.eq_or_other q
  · rw [sendEpoch_send_of_need hneed room, recvEpoch_send, Session.send_st_self, encrypt_of_need hneed]
    change (kemStepSend P (s.st q) coins).1.rootKey = _
    rw [h.root_kemStepSend]
    congr 1
    omega
  · rw [Session.send_st_other, h.root_eq p.other]
    exact (rootAt_update P _ _ (le_of_eq (h.level_other hneed)) _).symm

theorem Inv.send_kem_chain (q : Side) (e : ℕ) (he : e ≤ ((s.send P p coins plaintext).st q).sendEpoch.toNat) :
    ((g.kemStep P s p coins).track q).chain e = chainOf P (u.root P) (g.kemStep P s p coins).secret q e := by
  have hturn := h.turn_of_need hneed
  have hroot := h.root_kemStepSend (p := p) coins
  unfold Ghost.kemStep at hroot ⊢
  obtain rfl | rfl := p.eq_or_other q
  · rw [sendEpoch_send_of_need hneed room] at he
    rw [g.push_track_self]
    by_cases heq : e = (s.st q).sendEpoch.toNat + 1
    · rw [heq, Track.push_chain_self, hroot, chainOf_succ, ← hturn.level]
      rfl
    · rw [Track.push_chain_ne _ _ heq, h.chain_eq q e (by omega)]
      exact (chainOf_update P _ _ (hturn.stepIndex_le q (by omega)) _).symm
  · rw [Session.send_st_other] at he
    rw [g.push_track_other, h.chain_eq p.other e he]
    exact (chainOf_update P _ _ (hturn.stepIndex_le p.other he) _).symm

omit room in
/-- The other side will get the secret from the ciphertext of the step. -/
theorem Inv.send_kem_carries (hP : P.kem.Correct) :
    Carries P (s.send P p coins plaintext).st p (g.kemStep P s p coins).secret (encrypt P (s.st p) coins plaintext).2
      (kemStepSend P (s.st p) coins).2 := by
  have hturn := h.turn_of_need hneed
  refine ⟨?_, ?_, ?_⟩
  · rw [encrypt_of_need hneed]
    rfl
  · rw [Session.send_st_other, h.level_other hneed]
    change _ = Function.update g.secret _ _ _
    rw [Function.update_self]
    change P.kem.decapsulate _ (P.kem.encapsulate (s.st p).peerRatchetPub coins.encap).1 = _
    obtain ⟨r, hr⟩ := hturn.keypair
    rw [hturn.pub_eq, hr]
    exact hP r coins.encap
  · rw [Session.send_st_self, encrypt_of_need hneed]
    rfl

theorem Inv.send_kem_flight (hP : P.kem.Correct) : Flight P (g.kemStep P s p coins) (s.send P p coins plaintext) p := by
  have hturn := h.turn_of_need hneed
  have hsent := sendEpoch_send_of_need (P := P) hneed room coins plaintext
  have hgot := recvEpoch_send (P := P) (s := s) (p := p) coins plaintext
  refine ⟨?_, ?_, ?_, ?_, ?_, ?_, ⟨(encrypt P (s.st p) coins plaintext).2, plaintext⟩, (kemStepSend P (s.st p) coins).2, ?_,
    h.send_kem_carries hneed coins plaintext hP⟩
  · rw [Session.send_st_self, encrypt_of_need hneed]
    rfl
  · rw [Session.send_st_other]
    exact hturn.idle
  · rw [hsent, Session.send_st_other, hturn.sent_eq]
  · rw [hgot, Session.send_st_other]
    exact hturn.got_eq
  · rw [hsent, hgot, ← hturn.level]
    omega
  · refine ⟨coins.keygen, ?_⟩
    rw [Session.send_st_self, encrypt_of_need hneed]
    rfl
  · unfold Ghost.kemStep
    rw [hsent, g.push_track_self, Track.push_start _ _ (le_refl _), Session.send_sent_self, ← (h.sends p).length_eq,
      List.getElem?_concat_length]

/-- `encrypt` with a KEM step: the message that carries it is now in flight. -/
theorem Inv.send_kem (hP : P.kem.Correct) : Inv P u (g.kemStep P s p coins) (s.send P p coins plaintext) := by
  have hturn := h.turn_of_need hneed
  have hready := (h.sends p).kemStepSend room coins
  have hepoch : (kemStepSend P (s.st p) coins).1.sendEpoch.toNat = (s.st p).sendEpoch.toNat + 1 := toNat_succ room
  have hzero : (g.track p).count ((s.st p).sendEpoch.toNat + 1) = 0 := (h.sends p).later_zero _ (Nat.lt_succ_self _)
  refine ⟨?_, ?_, h.accounts, h.send_kem_root hneed room coins plaintext, h.send_kem_chain hneed room coins plaintext, ?_,
    ⟨p, Or.inr (h.send_kem_flight hneed room coins plaintext hP)⟩⟩
  · intro q
    unfold Ghost.kemStep
    obtain rfl | rfl := p.eq_or_other q
    · rw [g.push_track_self, Session.send_st_self, Session.send_sent_self, encrypt_of_need hneed]
      rw [← hepoch] at hzero ⊢
      refine hready.encryptStep (by rw [hzero]; decide) ?_ coins.nonce plaintext
      simp only [Option.isSome_some, true_iff]
      exact ⟨by omega, hzero⟩
    · rw [g.push_track_other, Session.send_st_other, Session.send_sent_other]
      exact h.sends p.other
  · refine h.send_receives coins plaintext (Nat.le_succ _) ?_ (Or.inl ⟨hzero, ?_⟩) (by rw [hzero]; decide)
    · intro e he
      exact (h.sends p).later_zero e (by omega)
    · rw [hturn.sent_eq]
      exact Nat.lt_succ_self _
  · exact h.send_entered coins plaintext (Nat.le_succ _)

end KemStep

/-! ## Delivering -/

theorem Inv.ahead (h : Inv P u g s) {i : ℕ} (hi : i ∉ s.opened p) (hc : i ∉ (g.window p).cache) :
    (g.window p).next ≤ i := by
  by_contra hlt
  exact hc ((h.accounts p).mem_cache.mpr ⟨by omega, hi⟩)

/-- A message ahead of the epoch that is read is of the next one, which is on its way. -/
theorem Inv.next_epoch (h : Inv P u g s) {e : ℕ} (he : e ≤ (s.st p).sendEpoch.toNat) (hlow : (s.st p.other).recvEpoch.toNat < e) :
    Flight P g s p ∧ e = (s.st p.other).recvEpoch.toNat + 1 ∧ (s.st p).sendEpoch.toNat = e := by
  have hfl := h.flight_of_lt (lt_of_lt_of_le hlow he)
  have hahead := hfl.ahead
  exact ⟨hfl, by omega, by omega⟩

/-- The chain of that epoch is the one that the receiver derives from the ciphertext. -/
theorem Inv.chain_carried (h : Inv P u g s) (hfl : Flight P g s p) {m : Message C} {ct : C.Ct} (hcar : Carries P s.st p g.secret m ct) :
    (g.track p).chain ((s.st p.other).recvEpoch.toNat + 1) =
      sendChain P (ratchetStep P (s.st p.other).rootKey (P.kem.decapsulate (s.st p.other).myRatchetKem.priv ct)) := by
  have hidx : stepIndex p ((s.st p.other).recvEpoch.toNat + 1) =
      (s.st p.other).sendEpoch.toNat + (s.st p.other).recvEpoch.toNat + 1 := by
    have hl := hfl.level
    rw [hfl.got_eq, hfl.ahead] at hl
    omega
  rw [h.chain_eq p _ hfl.ahead.ge, chainOf_succ, hidx, hcar.secret_eq, h.root_eq p.other]
  rfl

/-- What the receiver does with a message up to the first of the next epoch: the window decides. -/
theorem Inv.decrypt_open (h : Inv P u g s) (hP : P.Correct) {i : ℕ} {m : Sent C} (hm : (s.sent p)[i]? = some m)
    (hi : i ∉ s.opened p) (hle : i ≤ (g.track p).start ((s.st p.other).recvEpoch.toNat + 1)) :
    ∃ st', (decrypt P m.msg).run (s.st p.other) =
        (if ((g.window p).receive i).2 then .ok m.plaintext st' else .error .tooManySkipped st') ∧
      Receives P (g.track p) st' ((g.window p).receive i).1 ∧
      (OnlyRecv (s.st p.other) st' ∨
        ((g.window p).receive i).2 = true ∧ Flight P g s p ∧ i = (g.track p).start (s.st p).sendEpoch.toNat ∧
        ∃ ct, Carries P s.st p g.secret m.msg ct ∧ m.msg.header.epoch = (s.st p).sendEpoch ∧
          OnlyRecv (kemStepRecv P ct m.msg.header.senderRatchetPub m.msg.header.epoch (s.st p.other)) st') := by
  have hrec := h.receives p
  obtain ⟨e, n, he, hn, rfl, hg⟩ := (h.sends p).locate hm
  by_cases hc : (g.track p).start e + n ∈ (g.window p).cache
  · obtain ⟨st', hrun, hrec', hok, honly⟩ := hrec.decrypt_cached hP.aes hg hc
    exact ⟨st', by simpa only [hok, if_true] using hrun, hrec', Or.inl honly⟩
  have hnext := h.ahead hi hc
  by_cases hcur : (s.st p.other).recvEpoch.toNat = e
  · obtain ⟨st', hrun, hrec', honly⟩ := hrec.decrypt_current hP.aes hg hcur hnext
    exact ⟨st', hrun, hrec', Or.inl honly⟩
  -- ahead of the window and not in the current epoch: the first message of the next one
  have hlow : (s.st p.other).recvEpoch.toNat < e := by
    by_contra hge
    have h1 := (g.track p).end_le_start (show e < (s.st p.other).recvEpoch.toNat by omega)
    have h2 := hrec.next_eq
    omega
  obtain ⟨hfl, he', hse⟩ := h.next_epoch he hlow
  have hn0 : n = 0 := by
    rw [← he'] at hle
    omega
  subst hn0
  obtain ⟨m', ct, hm', hcar⟩ := hfl.first
  rw [hse] at hm'
  rw [Nat.add_zero, hm'] at hm
  obtain rfl := Option.some.inj hm
  have hchain := h.chain_carried hfl hcar
  rw [← he'] at hchain
  obtain ⟨st', hrun, hrec', honly⟩ := hrec.decrypt_kem hP.aes hg he' hcar.kemCt_eq hchain
  rw [Nat.add_zero]
  refine ⟨st', hrun, hrec', ?_⟩
  by_cases hok : ((g.window p).receive ((g.track p).start e)).2 = true
  · rw [if_pos hok] at honly
    refine Or.inr ⟨hok, hfl, by rw [hse], ct, hcar, UInt32.toNat.inj ?_, honly⟩
    rw [hg.epoch_eq, hse]
  · rw [if_neg hok] at honly
    exact Or.inl honly

/-- A message beyond the first of the next epoch is refused, and nothing changes. -/
theorem Inv.decrypt_blocked (h : Inv P u g s) {i : ℕ} {m : Sent C} (hm : (s.sent p)[i]? = some m)
    (hlt : (g.track p).start ((s.st p.other).recvEpoch.toNat + 1) < i) :
    (decrypt P m.msg).run (s.st p.other) = .error .missingKemCt (s.st p.other) := by
  obtain ⟨e, n, he, hn, rfl, hg⟩ := (h.sends p).locate hm
  have hlow : (s.st p.other).recvEpoch.toNat < e := by
    by_contra hge
    have := (g.track p).start_mono (show e + 1 ≤ (s.st p.other).recvEpoch.toNat + 1 by omega)
    have h2 : (g.track p).start (e + 1) = (g.track p).start e + (g.track p).count e := rfl
    omega
  obtain ⟨_, he', _⟩ := h.next_epoch he hlow
  refine (h.receives p).decrypt_blocked hg hlow ?_
  rw [← he'] at hlt
  omega

def Ghost.read (g : Ghost C) (p : Side) (w : Window maxSkippedKeys) : Ghost C where
  track := g.track
  window := Function.update g.window p w
  secret := g.secret

theorem Ghost.read_window_self (g : Ghost C) (p : Side) (w : Window maxSkippedKeys) : (g.read p w).window p = w := by
  simp [Ghost.read]

theorem Ghost.read_window_other (g : Ghost C) (p : Side) (w : Window maxSkippedKeys) :
    (g.read p w).window p.other = g.window p.other := by
  simp [Ghost.read]

section Record
variable {i : ℕ} {st' : State C} {r : Except RatchetError Bytes} {w : Window maxSkippedKeys}

theorem Inv.record_receives (h : Inv P u g s) (hrec : Receives P (g.track p) st' w) (q : Side) :
    Receives P ((g.read p w).track q) ((s.record p i st' r).st q.other) ((g.read p w).window q) := by
  obtain rfl | rfl := p.eq_or_other q
  · rw [g.read_window_self, Session.record_st_self]
    exact hrec
  · have hr := h.receives p.other
    rw [p.other_other] at hr ⊢
    rw [g.read_window_other, Session.record_st_other]
    exact hr

theorem Inv.record_accounts (h : Inv P u g s) (hacc : w.Accounts ((s.record p i st' r).opened p)) (q : Side) :
    ((g.read p w).window q).Accounts ((s.record p i st' r).opened q) := by
  obtain rfl | rfl := p.eq_or_other q
  · rw [g.read_window_self]
    exact hacc
  · rw [g.read_window_other, Session.opened_record_other]
    exact h.accounts p.other

theorem Inv.record_sends (h : Inv P u g s) (hn : st'.sendMsgNum = (s.st p.other).sendMsgNum)
    (hc : st'.sendChainKey = (s.st p.other).sendChainKey) (hp : st'.prevSendCount = (s.st p.other).prevSendCount)
    (he : st'.sendEpoch = (s.st p.other).sendEpoch) (q : Side) :
    Sends P ((g.read p w).track q) ((s.record p i st' r).st q) ((s.record p i st' r).sent q) := by
  obtain rfl | rfl := p.eq_or_other q
  · rw [Session.record_st_other]
    exact h.sends q
  · rw [Session.record_st_self]
    exact (h.sends p.other).congr hn hc hp he

/-- A delivery that moves at most the receive chain and the cache. -/
theorem Inv.record_only (h : Inv P u g s) (hrec : Receives P (g.track p) st' w)
    (hacc : w.Accounts ((s.record p i st' r).opened p)) (hsub : s.opened p ⊆ (s.record p i st' r).opened p)
    (honly : OnlyRecv (s.st p.other) st') : Inv P u (g.read p w) (s.record p i st' r) := by
  have hsteady : ∀ q, Steady (s.st q) ((s.record p i st' r).st q) := by
    intro q
    obtain rfl | rfl := p.eq_or_other q
    · rw [Session.record_st_other]
      exact Steady.refl _
    · rw [Session.record_st_self]
      exact honly.steady
  refine ⟨?_, h.record_receives hrec, h.record_accounts hacc, ?_, ?_, ?_, ?_⟩
  · obtain ⟨_, _, _, rfl⟩ := honly
    exact h.record_sends rfl rfl rfl rfl
  · intro q
    rw [(hsteady q).root, (hsteady q).sendEpoch, (hsteady q).recvEpoch]
    exact h.root_eq q
  · intro q e he
    rw [(hsteady q).sendEpoch] at he
    exact h.chain_eq q e he
  · intro q e hpos he
    rw [(hsteady q.other).recvEpoch] at he
    have hmem := h.entered q e hpos he
    obtain rfl | rfl := p.eq_or_other q
    · exact hsub hmem
    · rw [Session.opened_record_other]
      exact hmem
  · obtain ⟨q, hq⟩ := h.phase
    exact ⟨q, hq.imp (fun hq => hq.steady hsteady) (fun hq => hq.steady hsteady rfl rfl (fun _ _ hm => hm))⟩

section Kem
variable {msg : Message C} {ct : C.Ct} {plaintext : Bytes}

/-- The receiver has entered the sender's epoch by opening its first message. -/
theorem Inv.record_kem_entered (h : Inv P u g s) (hfl : Flight P g s p) (hi : i = (g.track p).start (s.st p).sendEpoch.toNat)
    (hrecv : st'.recvEpoch = (s.st p).sendEpoch) (q : Side) (e : ℕ) (hpos : 0 < e)
    (he : e ≤ ((s.record p i st' (.ok plaintext)).st q.other).recvEpoch.toNat) :
    (g.track q).start e ∈ (s.record p i st' (.ok plaintext)).opened q := by
  obtain rfl | rfl := p.eq_or_other q
  · rw [Session.record_st_self, hrecv] at he
    rw [Session.opened_record_ok, hi]
    by_cases heq : e = (s.st q).sendEpoch.toNat
    · rw [heq]
      exact Finset.mem_insert_self _ _
    · have := hfl.ahead
      exact Finset.mem_insert_of_mem (h.entered q e hpos (by omega))
  · rw [p.other_other, Session.record_st_other] at he
    rw [Session.opened_record_other]
    exact h.entered p.other e hpos (by rw [p.other_other]; exact he)

/-- The step has arrived, and the receiver takes the next one. -/
theorem Flight.turn_record (hfl : Flight P g s p) (hcar : Carries P s.st p g.secret msg ct) (hneed : st'.needKemStep = true)
    (hsend : st'.sendEpoch = (s.st p.other).sendEpoch) (hrecv : st'.recvEpoch = (s.st p).sendEpoch)
    (hpub : st'.peerRatchetPub = msg.header.senderRatchetPub) : Turn P (s.record p i st' r).st p.other := by
  have hlevel := hfl.level
  have hgot := hfl.got_eq
  refine ⟨?_, ?_, ?_, ?_, ?_, ?_, ?_⟩
  · rw [Session.record_st_self]
    exact hneed
  · rw [p.other_other, Session.record_st_other]
    exact hfl.idle
  · rw [p.other_other, Session.record_st_other, Session.record_st_self, hsend]
    exact hgot
  · rw [p.other_other, Session.record_st_other, Session.record_st_self]
    exact hrecv
  · rw [Session.record_st_self, hsend, hrecv, ← hgot]
    have hpos := hfl.ahead
    cases p <;> simp only [Side.other, stepIndex] at hlevel hpos ⊢ <;> omega
  · rw [p.other_other, Session.record_st_other, Session.record_st_self, hpub]
    exact hcar.pub_eq
  · rw [p.other_other, Session.record_st_other]
    exact hfl.keypair

/-- The delivery of the message that carries a KEM step: now it is the receiver's turn. -/
theorem Inv.record_kem (h : Inv P u g s)
    (hrec : Receives P (g.track p) st' w) (hacc : w.Accounts ((s.record p i st' (.ok plaintext)).opened p))
    (hfl : Flight P g s p) (hi : i = (g.track p).start (s.st p).sendEpoch.toNat)
    (hcar : Carries P s.st p g.secret msg ct) (hepoch : msg.header.epoch = (s.st p).sendEpoch)
    (honly : OnlyRecv (kemStepRecv P ct msg.header.senderRatchetPub msg.header.epoch (s.st p.other)) st') :
    Inv P u (g.read p w) (s.record p i st' (.ok plaintext)) := by
  obtain ⟨ck, num, sk, rfl⟩ := honly
  refine ⟨h.record_sends rfl rfl rfl rfl, h.record_receives hrec, h.record_accounts hacc, ?_, ?_,
    h.record_kem_entered hfl hi hepoch, ⟨p.other, Or.inl (hfl.turn_record hcar rfl rfl hepoch rfl)⟩⟩
  · intro q
    obtain rfl | rfl := p.eq_or_other q
    · rw [Session.record_st_other]
      exact h.root_eq q
    · rw [Session.record_st_self]
      change ratchetStep P (s.st p.other).rootKey _ = rootAt P _ _ ((s.st p.other).sendEpoch.toNat + msg.header.epoch.toNat)
      rw [hepoch, hfl.ahead, hcar.secret_eq, h.root_eq p.other]
      rfl
  · intro q e he
    refine h.chain_eq q e ?_
    obtain rfl | rfl := p.eq_or_other q
    · rwa [Session.record_st_other] at he
    · rwa [Session.record_st_self] at he

end Kem

end Record

/-- A delivery keeps the invariant, whatever the outcome. -/
theorem Inv.deliver (h : Inv P u g s) (hP : P.Correct) {i : ℕ} {m : Sent C} (hm : (s.sent p)[i]? = some m)
    (hi : i ∉ s.opened p) : ∃ g', Inv P u g' (s.deliver P p i m.msg) := by
  unfold Session.deliver
  by_cases hle : i ≤ (g.track p).start ((s.st p.other).recvEpoch.toNat + 1)
  · obtain ⟨st', hrun, hrec, hcase⟩ := h.decrypt_open hP hm hi hle
    rw [hrun]
    by_cases hok : ((g.window p).receive i).2 = true
    · rw [if_pos hok]
      have hacc : (((g.window p).receive i).1).Accounts ((s.record p i st' (.ok m.plaintext)).opened p) := by
        rw [Session.opened_record_ok]
        exact Window.receive_accounts (h.accounts p) hok
      rcases hcase with honly | ⟨_, hfl, hpos, ct, hcar, hepoch, honly⟩
      · refine ⟨g.read p _, h.record_only hrec hacc ?_ honly⟩
        rw [Session.opened_record_ok]
        exact Finset.subset_insert _ _
      · exact ⟨g.read p _, h.record_kem hrec hacc hfl hpos hcar hepoch honly⟩
    · have hfail : ((g.window p).receive i).2 = false := by simpa using hok
      rw [if_neg hok]
      rcases hcase with honly | ⟨hok', _⟩
      · refine ⟨g.read p _, h.record_only hrec ?_ ?_ honly⟩
        · rw [Session.opened_record_error]
          exact Window.receive_accounts_of_fail (h.accounts p) hfail
        · rw [Session.opened_record_error]
      · exact absurd hok' hok
  · rw [h.decrypt_blocked hm (by omega)]
    refine ⟨g.read p (g.window p), h.record_only (h.receives p) ?_ ?_ (OnlyRecv.refl _)⟩
    · rw [Session.opened_record_error]
      exact h.accounts p
    · rw [Session.opened_record_error]

theorem Inv.kem_position (h : Inv P u g s) {e n j : ℕ} {m m' : Sent C} (hg : Genuine P (g.track p) e n m.msg m.plaintext)
    (hj : (s.sent p)[j]? = some m') (he : m'.msg.header.epoch = m.msg.header.epoch)
    (hk : m'.msg.header.kemCt.isSome) : 0 < e ∧ j = (g.track p).start e := by
  obtain ⟨e', n', _, _, rfl, hg'⟩ := (h.sends p).locate hj
  have heq : e' = e := by rw [← hg'.epoch_eq, ← hg.epoch_eq, he]
  subst heq
  obtain ⟨hpos, rfl⟩ := hg'.kemCt_iff.mp hk
  exact ⟨hpos, rfl⟩

theorem Inv.stepIndex_le (h : Inv P u g s) {e : ℕ} (he : e ≤ (s.st p.other).recvEpoch.toNat) :
    stepIndex p e ≤ (s.st p.other).sendEpoch.toNat + (s.st p.other).recvEpoch.toNat := by
  have hle := h.recvEpoch_le p
  obtain ⟨q, hq⟩ := h.phase
  obtain rfl | rfl := p.eq_or_other q
  · rcases hq with hq | hq
    · have hidx := hq.stepIndex_le q (show e ≤ (s.st q).sendEpoch.toNat by omega)
      rw [hq.got_eq, ← hq.sent_eq] at hidx
      omega
    · have hidx := stepIndex_lt (p := q) (show e < (s.st q).sendEpoch.toNat by have := hq.ahead; omega)
      have hlevel := hq.level
      rw [hq.got_eq] at hlevel
      have := hq.ahead
      omega
  · rcases hq with hq | hq
    · exact hq.stepIndex_le p (by omega)
    · have hlevel := hq.level
      have hahead := hq.ahead
      cases p <;> simp only [Side.other, stepIndex] at hlevel hahead he ⊢ <;> omega

theorem Inv.step (h : Inv P u g s) (hP : P.Correct) {e : Event C} {s' : Session C} (hs : Step P s e s') :
    ∃ g', Inv P u g' s' := by
  cases hs with
  | send p coins plaintext room =>
    unfold CounterRoom at room
    cases hneed : (s.st p).needKemStep with
    | true =>
      rw [hneed, if_pos rfl] at room
      exact ⟨_, h.send_kem hneed room coins plaintext hP.kem⟩
    | false =>
      rw [hneed, if_neg (by decide)] at room
      exact ⟨_, h.send_chain hneed room coins plaintext⟩
  | deliver p i m hm once => exact h.deliver hP hm (fun hmem => once (s.opened_subset p hmem))

theorem Honest.inv (hP : P.Correct) (h : Honest P u s) : ∃ g, Inv P u g s := by
  refine h.invariant (fun s => ∃ g, Inv P u g s) ?_ ?_
  · exact ⟨_, Inv.start u hP.kem (fun _ => (P.kem.encapsulate (P.kem.keygen u.prekey).pub u.encap).2)⟩
  · intro t e t' ⟨g, hg⟩ hs
    exact hg.step hP hs

end ScatterWeb.Ratchet
