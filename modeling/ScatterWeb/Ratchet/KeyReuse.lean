import ScatterWeb.Ratchet.Keys
import ScatterWeb.Ratchet.Moves

/-! # No message key is used twice

The two sides derive under the same labels from one line of root keys, and only the direction of a step tells whose chain it starts. In an honest session every
message key has a place: the side that encrypts with it, its epoch, and its number there. Places are never returned to, and keys of
different places differ. Root keys and chain keys, at whatever moment of a call they are held, are never message keys, since no other derivation ends in the
label of one. -/
namespace ScatterWeb.Ratchet
open Crypto Lib Relation
set_option autoImplicit false
variable {C : Carriers} {P : Primitives C}

/-! ## The key of an `encrypt` call -/

/-- The chain key that `chain_step` gets, after a KEM step if one is due. -/
def sendSource (P : Primitives C) (s : State C) (coins : Coins C) : C.Key :=
  if s.needKemStep then (kemStepSend P s coins).1.sendChainKey else s.sendChainKey

def encryptKey (P : Primitives C) (s : State C) (coins : Coins C) : C.Key := messageKey P (sendSource P s coins)

theorem encrypt_sealed (P : Primitives C) (s : State C) (coins : Coins C) (plaintext : Bytes) :
    ((encrypt P s coins plaintext).2.ciphertext, (encrypt P s coins plaintext).2.tag) =
      P.aes.encrypt (encryptKey P s coins) coins.nonce plaintext [] := by
  unfold encrypt encryptKey sendSource
  split_ifs <;> rfl

theorem encrypt_sendChainKey (P : Primitives C) (s : State C) (coins : Coins C) (plaintext : Bytes) :
    (encrypt P s coins plaintext).1.sendChainKey = nextChainKey P (sendSource P s coins) := by
  unfold encrypt sendSource
  split_ifs <;> rfl

/-- The place of a key, in the order in which a side gets to it, is one that the side has left behind. -/
def Past (s : State C) (e n : ℕ) : Prop := e < s.sendEpoch.toNat ∨ (e = s.sendEpoch.toNat ∧ n < s.sendMsgNum.toNat)

/-- `encrypt` takes the next place, and moves past it. -/
theorem encrypt_past (coins : Coins C) (plaintext : Bytes) {s : State C} (hroom : CounterRoom s) :
    ∃ n, (encrypt P s coins plaintext).1.sendMsgNum.toNat = n + 1 ∧ ¬Past s (encrypt P s coins plaintext).1.sendEpoch.toNat n ∧
      ∀ e' n', Past s e' n' → Past (encrypt P s coins plaintext).1 e' n' := by
  unfold CounterRoom at hroom
  unfold encrypt
  by_cases hneed : s.needKemStep
  · rw [if_pos hneed] at hroom ⊢
    have hepoch : (s.sendEpoch + 1).toNat = s.sendEpoch.toNat + 1 := toNat_succ hroom
    refine ⟨0, rfl, ?_, ?_⟩
    · rintro (hlt | ⟨heq, _⟩)
      · change (s.sendEpoch + 1).toNat < _ at hlt
        omega
      · change (s.sendEpoch + 1).toNat = _ at heq
        omega
    · intro e' n' hpast
      refine Or.inl ?_
      change e' < (s.sendEpoch + 1).toNat
      rcases hpast with hlt | ⟨heq, _⟩
      · omega
      · omega
  · rw [if_neg hneed] at hroom ⊢
    have hnum : (s.sendMsgNum + 1).toNat = s.sendMsgNum.toNat + 1 := toNat_succ hroom
    refine ⟨s.sendMsgNum.toNat, hnum, ?_, ?_⟩
    · rintro (hlt | ⟨_, hlt⟩)
      · exact lt_irrefl _ hlt
      · exact lt_irrefl _ hlt
    · rintro e' n' (hlt | ⟨heq, hlt⟩)
      · exact Or.inl hlt
      · refine Or.inr ⟨heq, ?_⟩
        change n' < (s.sendMsgNum + 1).toNat
        omega

/-! ## Root keys and chain keys -/

/-- None of the keys that others are derived from is a message key. -/
def HoldsNoMessageKey (P : Primitives C) (s : State C) : Prop :=
  ∀ ck, messageKey P ck ≠ s.rootKey ∧ messageKey P ck ≠ s.sendChainKey ∧ messageKey P ck ≠ s.recvChainKey

section Shapes
variable (hk : KeysApart P)
include hk

theorem messageKey_ne_ratchetStep (ck root : C.Key) (ss : C.SS) : messageKey P ck ≠ ratchetStep P root ss := hk.labelled_ne_step (by decide)

theorem messageKey_ne_ratchetInit (ck : C.Key) (ss : C.SS) (p q : C.Pub) : messageKey P ck ≠ ratchetInit P ss p q :=
  hk.labelled_ne_init (by decide)

theorem messageKey_ne_sendChain (ck root : C.Key) : messageKey P ck ≠ sendChain P root := by
  intro h
  exact absurd (hk.labelled_inj h).2 (by decide)

theorem messageKey_ne_recvChain (ck root : C.Key) : messageKey P ck ≠ recvChain P root := by
  intro h
  exact absurd (hk.labelled_inj h).2 (by decide)

theorem messageKey_ne_nextChainKey (ck ck' : C.Key) : messageKey P ck ≠ nextChainKey P ck' := by
  intro h
  exact absurd (hk.labelled_inj h).2 (by decide)

theorem Assigns.holdsNoMessageKey {s s' : State C} (h : Assigns P s s') (hs : HoldsNoMessageKey P s) : HoldsNoMessageKey P s' := by
  intro ck
  obtain ⟨hroot, hsend, hrecv⟩ := hs ck
  cases h with
  | prepare h =>
    cases h with
    | skip epoch => exact ⟨hroot, hsend, messageKey_ne_nextChainKey hk _ _⟩
    | kemStep ct pub epoch => exact ⟨messageKey_ne_ratchetStep hk _ _ _, hsend, messageKey_ne_sendChain hk _ _⟩
  | take h =>
    cases h with
    | chain => exact ⟨hroot, hsend, messageKey_ne_nextChainKey hk _ _⟩
    | cache slot mk _ hcached => exact ⟨hroot, hsend, hrecv⟩
  | kemStep coins => exact ⟨messageKey_ne_ratchetStep hk _ _ _, messageKey_ne_sendChain hk _ _, hrecv⟩
  | chainStep => exact ⟨hroot, messageKey_ne_nextChainKey hk _ _, hrecv⟩

theorem holdsNoMessageKey_of_assigns {s s' : State C} (h : ReflTransGen (Assigns P) s s') (hs : HoldsNoMessageKey P s) :
    HoldsNoMessageKey P s' := by
  induction h with
  | refl => exact hs
  | tail _ hstep ih => exact hstep.holdsNoMessageKey hk ih

theorem holdsNoMessageKey_start (u : Setup C) (p : Side) : HoldsNoMessageKey P ((Session.start P u).st p) := by
  intro ck
  cases p with
  | alice => exact ⟨messageKey_ne_ratchetInit hk _ _ _ _, messageKey_ne_sendChain hk _ _, messageKey_ne_recvChain hk _ _⟩
  | bob => exact ⟨messageKey_ne_ratchetInit hk _ _ _ _, messageKey_ne_recvChain hk _ _, messageKey_ne_sendChain hk _ _⟩

end Shapes

/-- From one state of a session to the next, each side goes by assignments. -/
theorem Step.assigns {s s' : Session C} {e : Event C} (h : Step P s e s') (p : Side) : ReflTransGen (Assigns P) (s.st p) (s'.st p) := by
  cases h with
  | send q coins plaintext room =>
    rcases q.eq_or_other p with rfl | rfl
    · rw [Session.send_st_self]
      exact encrypt_assigns P _ coins plaintext
    · rw [Session.send_st_other]
  | deliver q i m sent once =>
    rcases q.eq_or_other p with rfl | rfl
    · rw [Session.deliver_st_other]
    · rw [Session.deliver_st_self]
      exact decrypt_assigns P m.msg _

theorem Honest.holdsNoMessageKey (hk : KeysApart P) {u : Setup C} {s : Session C} (h : Honest P u s) (p : Side) : HoldsNoMessageKey P (s.st p) := by
  refine h.invariant (fun t => HoldsNoMessageKey P (t.st p)) (holdsNoMessageKey_start hk u p) ?_
  intro t e t' ht hstep
  exact holdsNoMessageKey_of_assigns hk (hstep.assigns p) ht

/-! ## Runs -/

/-- The message key with which `encrypt` is left by an event. -/
def keysOf (P : Primitives C) (s : Session C) : Event C → List C.Key
  | .send p coins _ => [encryptKey P (s.st p) coins]
  | .deliver _ _ => []

/-- An honest run that ends in a session, and the message keys that `encrypt` used on either side, in order. -/
inductive KeyRun (P : Primitives C) (u : Setup C) : List C.Key → Session C → Prop
  | nil : KeyRun P u [] (Session.start P u)
  | snoc {keys : List C.Key} {s s' : Session C} {e : Event C} : KeyRun P u keys s → Step P s e s' → KeyRun P u (keys ++ keysOf P s e) s'

variable {u : Setup C} {s : Session C} {keys : List C.Key}

theorem KeyRun.honest (h : KeyRun P u keys s) : Honest P u s := by
  induction h with
  | nil => exact Reachable.refl _ _
  | snoc _ hstep ih => exact ih.tail hstep

theorem Honest.keyRun (h : Honest P u s) : ∃ keys, KeyRun P u keys s := by
  refine h.invariant (fun t => ∃ keys, KeyRun P u keys t) ⟨[], .nil⟩ ?_
  rintro t e t' ⟨keys, ht⟩ hstep
  exact ⟨_, ht.snoc hstep⟩

/-- The key is the one of message `n` of epoch `e` of `p`, for some course of the KEM steps. -/
def PlacedAt (P : Primitives C) (u : Setup C) (p : Side) (e n : ℕ) (k : C.Key) : Prop :=
  ∃ secret, k = messageKey P (chainAt P (chainOf P (u.root P) secret p e) n)

theorem PlacedAt.unique (hk : KeysApart P) {p p' : Side} {e e' n n' : ℕ} {k : C.Key} (h : PlacedAt P u p e n k) (h' : PlacedAt P u p' e' n' k) :
    p = p' ∧ e = e' ∧ n = n' := by
  obtain ⟨secret, rfl⟩ := h
  obtain ⟨secret', heq⟩ := h'
  obtain ⟨hchain, hn⟩ := (chainAt_inj hk (chainOf_head _ secret p e) (chainOf_head _ secret' p' e')).mp (messageKey_inj hk heq)
  obtain ⟨hp, he⟩ := chainOf_inj hk u.root_isInit hchain
  exact ⟨hp, he, hn⟩

theorem Inv.sendChainKey_eq {g : Ghost C} (h : Inv P u g s) (p : Side) :
    (s.st p).sendChainKey = chainAt P (chainOf P (u.root P) g.secret p (s.st p).sendEpoch.toNat) (s.st p).sendMsgNum.toNat := by
  rw [(h.sends p).chain_eq, h.chain_eq p _ le_rfl]

/-- The place is read off the state after the call: the chain has just been moved on. -/
theorem placedAt_encryptKey (hk : KeysApart P) (hP : P.Correct) {p : Side} {coins : Coins C} {plaintext : Bytes}
    (h : Honest P u (s.send P p coins plaintext)) {n : ℕ} (hn : (encrypt P (s.st p) coins plaintext).1.sendMsgNum.toNat = n + 1) :
    PlacedAt P u p (encrypt P (s.st p) coins plaintext).1.sendEpoch.toNat n (encryptKey P (s.st p) coins) := by
  obtain ⟨g, hg⟩ := h.inv hP
  have hchain := hg.sendChainKey_eq p
  rw [Session.send_st_self, hn, encrypt_sendChainKey] at hchain
  exact ⟨g.secret, congrArg (messageKey P) (nextChainKey_inj hk hchain)⟩

theorem decrypt_sendPlace (msg : Message C) (s : State C) :
    (endState ((decrypt P msg).run s)).sendEpoch = s.sendEpoch ∧ (endState ((decrypt P msg).run s)).sendMsgNum = s.sendMsgNum := by
  have hprepared : ∀ {s₁}, ReflTransGen (Prepares P) s s₁ → s₁.sendEpoch = s.sendEpoch ∧ s₁.sendMsgNum = s.sendMsgNum := by
    intro s₁ h
    induction h with
    | refl => exact ⟨rfl, rfl⟩
    | tail _ hstep ih =>
      cases hstep with
      | skip epoch => exact ih
      | kemStep ct pub epoch => exact ih
  cases decrypt_path P msg s with
  | stops s₁ e hp hr =>
    rw [hr]
    exact hprepared hp
  | tries s₁ s₂ mk hp ht hr =>
    have hplace := hprepared hp
    rw [hr, endState_aesOpen]
    cases ht with
    | chain => exact hplace
    | cache slot _ _ hcached => exact hplace

/-- All keys so far are different, and each has a place that its side has left behind. -/
structure Spent (P : Primitives C) (u : Setup C) (keys : List C.Key) (s : Session C) : Prop where
  nodup : keys.Nodup
  placed : ∀ k ∈ keys, ∃ p e n, PlacedAt P u p e n k ∧ Past (s.st p) e n

theorem Spent.send (hk : KeysApart P) (hP : P.Correct) {p : Side} {coins : Coins C} {plaintext : Bytes} (h : Spent P u keys s)
    (hroom : CounterRoom (s.st p)) (hs : Honest P u (s.send P p coins plaintext)) :
    Spent P u (keys ++ [encryptKey P (s.st p) coins]) (s.send P p coins plaintext) := by
  obtain ⟨n, hn, hnew, hkeep⟩ := encrypt_past (P := P) coins plaintext hroom
  have hplace := placedAt_encryptKey hk hP hs hn
  refine ⟨?_, ?_⟩
  · refine List.nodup_append.mpr ⟨h.nodup, List.nodup_singleton _, ?_⟩
    intro k hmem k' hmem' heq
    rw [List.mem_singleton] at hmem'
    subst heq hmem'
    obtain ⟨q, e, m, hq, hpast⟩ := h.placed _ hmem
    obtain ⟨rfl, rfl, rfl⟩ := hq.unique hk hplace
    exact hnew hpast
  · intro k hmem
    rcases List.mem_append.mp hmem with hold | hlast
    · obtain ⟨q, e, m, hq, hpast⟩ := h.placed k hold
      refine ⟨q, e, m, hq, ?_⟩
      rcases p.eq_or_other q with rfl | rfl
      · rw [Session.send_st_self]
        exact hkeep e m hpast
      · rw [Session.send_st_other]
        exact hpast
    · rw [List.mem_singleton] at hlast
      subst hlast
      refine ⟨p, _, n, hplace, Or.inr ⟨?_, ?_⟩⟩
      · rw [Session.send_st_self]
      · rw [Session.send_st_self]
        omega

theorem Spent.deliver {p : Side} {i : ℕ} (msg : Message C) (h : Spent P u keys s) : Spent P u keys (s.deliver P p i msg) := by
  refine ⟨h.nodup, ?_⟩
  intro k hmem
  obtain ⟨q, e, n, hq, hpast⟩ := h.placed k hmem
  refine ⟨q, e, n, hq, ?_⟩
  rcases p.eq_or_other q with rfl | rfl
  · rw [Session.deliver_st_other]
    exact hpast
  · rw [Session.deliver_st_self]
    obtain ⟨hepoch, hnum⟩ := decrypt_sendPlace (P := P) msg (s.st p.other)
    unfold Past
    rw [hepoch, hnum]
    exact hpast

theorem KeyRun.spent (hk : KeysApart P) (hP : P.Correct) (h : KeyRun P u keys s) : Spent P u keys s := by
  induction h with
  | nil => exact ⟨List.nodup_nil, fun k hmem => absurd hmem List.not_mem_nil⟩
  | snoc hrun hstep ih =>
    have hhonest := hrun.honest.tail hstep
    cases hstep with
    | send p coins plaintext room => exact ih.send hk hP room hhonest
    | deliver p i m sent once =>
      rw [keysOf, List.append_nil]
      exact ih.deliver m.msg

/-- Message keys are used once, and are never root keys or chain keys of a session, not even for a moment. -/
theorem message_keys_never_reused (hP : P.Correct) (hkdf : P.HashesConcat) (h : KeyRun P u keys s) :
    keys.Nodup ∧ ∀ k ∈ keys, ∀ (s' : Session C) (p : Side) (st : State C), Honest P u s' → ReflTransGen (Assigns P) (s'.st p) st →
      k ≠ st.rootKey ∧ k ≠ st.sendChainKey ∧ k ≠ st.recvChainKey := by
  have hk := keysApart_of_hashesConcat hkdf
  have hspent := h.spent hk hP
  refine ⟨hspent.nodup, ?_⟩
  intro k hmem s' p st hs' hmoves
  obtain ⟨q, e, n, ⟨secret, rfl⟩, _⟩ := hspent.placed k hmem
  exact holdsNoMessageKey_of_assigns hk hmoves (hs'.holdsNoMessageKey hk p) _

/-- Bob writes, and then Alice does. -/
def oneEach : Session symbols :=
  ((Session.start spelled demo).send spelled .bob (demoCoins 0) [1]).send spelled .alice (demoCoins 1) [2]

theorem keyRun_oneEach : KeyRun spelled demo
    ([encryptKey spelled (demo.bob spelled) (demoCoins 0)] ++ [encryptKey spelled (demo.alice spelled).state (demoCoins 1)]) oneEach := by
  refine (KeyRun.nil.snoc (Step.send _ .bob (demoCoins 0) [1] ?_)).snoc (Step.send _ .alice (demoCoins 1) [2] ?_)
  · change (0 : ℕ) + 1 < 2 ^ 32
    decide
  · change (0 : ℕ) + 1 < 2 ^ 32
    decide

theorem message_keys_never_reused_oneEach :
    encryptKey spelled (demo.bob spelled) (demoCoins 0) ≠ encryptKey spelled (demo.alice spelled).state (demoCoins 1) := by
  have hkeys := (message_keys_never_reused spelled_correct spelled_hashesConcat keyRun_oneEach).1
  simpa using hkeys

end ScatterWeb.Ratchet
