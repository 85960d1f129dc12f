import ScatterWeb.Ratchet.ForwardSecrecy
import ScatterWeb.Ratchet.HeaderForgery

/-! # Recovery after a capture

The state of `p` is captured in the middle of an honest session, which then goes on. The attacker reads along: a message that `p` receives is opened with the
captured keys, and a KEM step of the peer encapsulates to the captured private key. It loses the session with the first KEM step that `p` takes itself, for that
encapsulates a fresh coin to a key pair of the peer. `threshold` is the root of this step: the messages on earlier roots are read, those on it and on later
ones are not. -/
namespace ScatterWeb.Ratchet
open Crypto Lib Relation
set_option autoImplicit false

/-- The root of the next KEM step that `p` takes itself. -/
def threshold {C : Carriers} (p : Side) (s : State C) : ℕ := stepIndex p (s.sendEpoch.toNat + 1)

/-- The terms of all messages so far, the captured state of `p`, and all coins that are not secret. -/
def followed (secret : Set ℕ) (u : Setup symbols) (s : Session symbols) (captured : State symbols) : Set Term :=
  {t | (∃ n, n ∉ secret ∧ t = .coin n) ∨ t ∈ handshakeTerms u ∨ (∃ q, ∃ m ∈ s.sent q, t ∈ m.msg.terms) ∨ t ∈ captured.terms}

/-- Nonces are public. -/
def OpenNonce (secret : Set ℕ) : Event symbols → Prop
  | .send _ coins _ => ∃ n, n ∉ secret ∧ coins.nonce = .coin n
  | .deliver _ _ => True

/-- The coins of KEM steps are drawn anew, and kept to oneself. -/
def FreshDraw (secret : Set ℕ) (captured : State symbols) : Event symbols → Prop
  | .send _ coins _ => (∃ n ∈ secret, coins.encap = .coin n ∧ ∀ k ∈ captured.keys, ¬Occurs n k) ∧ ∃ n ∈ secret, coins.keygen = .coin n
  | .deliver _ _ => True

/-- The attacker has the private key of `p`, and not the one of the peer. -/
structure CapturedPair (secret : Set ℕ) (s : Session symbols) (p : Side) : Prop where
  mine : ∃ n, n ∉ secret ∧ (s.st p).myRatchetKem = symbolic.kem.keygen (.coin n)
  peer : ∃ n ∈ secret, (s.st p.other).myRatchetKem = symbolic.kem.keygen (.coin n)

/-! ## Keys that are healed -/

/-- Out of reach, whatever tags are handed out beside the captured keys, because of a coin that was drawn later. -/
structure Healed (secret : Set ℕ) (captured : State symbols) (k : Term) : Prop where
  fresh : ∃ n, Occurs n k ∧ ∀ key ∈ captured.keys, ¬Occurs n key
  unknown : ∀ given, OnlyTags given → ¬Known secret (handedOut given captured) k

section Healing
variable {secret : Set ℕ} {captured : State symbols}

theorem healed_kdf {ps : List (Part Term Term Term)} (part : Part Term Term Term) (hmem : part ∈ ps) {n : ℕ} (hn : Occurs n part.term)
    (hfresh : ∀ key ∈ captured.keys, ¬Occurs n key) (h : ∀ given, OnlyTags given → ¬Known secret (handedOut given captured) part.term) :
    Healed secret captured (symbolic.kdf ps) where
  fresh := ⟨n, occurs_kdf hmem hn, hfresh⟩
  unknown given hgiven hknown := by
    refine h given hgiven (known_kdf hknown ?_ part hmem)
    intro hin
    exact hfresh _ (kdf_held hgiven hin) (occurs_kdf hmem hn)

theorem healed_hereditary : Hereditary symbolic (Healed secret captured) := by
  intro ps k hmem h
  obtain ⟨n, hn, hfresh⟩ := h.fresh
  exact healed_kdf (.key k) hmem hn hfresh h.unknown

/-- A fresh coin, encapsulated to a key pair that was not captured, heals the root key. -/
theorem healed_step {n r : ℕ} (hn : n ∈ secret) (hr : r ∈ secret) (hfresh : ∀ key ∈ captured.keys, ¬Occurs n key) (root : symbols.Key) :
    Healed secret captured (ratchetStep symbolic root (.kemSs (.pub (.coin r)) (.coin n))) := by
  refine healed_kdf (.ss (.kemSs (.pub (.coin r)) (.coin n))) (List.mem_cons_of_mem _ List.mem_cons_self) (n := n) (Or.inr rfl) hfresh ?_
  intro given _ hknown
  rcases known_kemSs.mp hknown with hcoin | ⟨s, hs, hcoin⟩
  · exact hcoin hn
  · cases hs
    exact hcoin hr

end Healing

/-! ## The epochs of the two sides -/

section Steps
variable {C : Carriers} {P : Primitives C} {u : Setup C} {g : Ghost C} {s : Session C} {p : Side}

/-- The step of `p` to a root is a step of nobody else. -/
theorem stepIndex_side {q : Side} {e e' : ℕ} (h : stepIndex q (e + 1) = stepIndex p (e' + 1)) : q = p := by
  cases p <;> cases q <;> simp only [stepIndex] at h <;> first | rfl | omega

/-- Before the step of `p` nobody has sent on its root. -/
theorem Inv.below_threshold (h : Inv P u g s) (p q : Side) : stepIndex q (s.st q).sendEpoch.toNat < threshold p (s.st p) ∧
    (s.st q).sendEpoch.toNat + (s.st q).recvEpoch.toNat < threshold p (s.st p) := by
  have hle := h.recvEpoch_le p
  have hle' := h.recvEpoch_le p.other
  rw [p.other_other] at hle'
  obtain ⟨x, hturn | hflight⟩ := h.phase
  · have hlevel := hturn.level
    have hsent := congrArg UInt32.toNat hturn.sent_eq
    have hgot := congrArg UInt32.toNat hturn.got_eq
    unfold threshold
    cases p <;> cases q <;> cases x <;> simp only [Side.other, stepIndex] at * <;> omega
  · have hlevel := hflight.level
    have hahead := hflight.ahead
    have hgot := congrArg UInt32.toNat hflight.got_eq
    unfold threshold
    cases p <;> cases q <;> cases x <;> simp only [Side.other, stepIndex] at * <;> omega

end Steps

/-! ## What is seen of a session -/

def sentTags (s : Session symbols) : Set Term := {t | ∃ q, ∃ m ∈ s.sent q, t = m.msg.tag}

def SealedWith (m : Sent symbols) (key : symbols.Key) : Prop := (m.msg.ciphertext, m.msg.tag) = symbolic.aes.encrypt key m.msg.nonce m.plaintext []

def IsHash (k : Term) : Prop := ∃ input, k = .hash input

theorem isHash_hereditary : Hereditary symbolic IsHash := fun _ _ _ _ => ⟨_, rfl⟩

structure Seen (secret : Set ℕ) (s : Session symbols) : Prop where
  generated : ∀ q, Generated symbolic (s.st q)
  known : ∀ q, ∀ m ∈ s.sent q, ∀ t ∈ m.msg.terms, Known secret (sentTags s) t
  sealed : ∀ q, ∀ m ∈ s.sent q, ∃ key, SealedWith m key
  peer : ∀ q, Known secret (sentTags s) (s.st q).peerRatchetPub
  hashes : ∀ q, HoldsOnly IsHash (s.st q)

section Seeing
variable {secret : Set ℕ} {u : Setup symbols} {s s' : Session symbols}

theorem Seen.onlyTags (h : Seen secret s) : OnlyTags (sentTags s) := by
  rintro t ⟨q, m, hmem, rfl⟩
  obtain ⟨key, hkey⟩ := h.sealed q m hmem
  exact ⟨_, _, _, _, congrArg Prod.snd hkey⟩

theorem Seen.start (secret : Set ℕ) (u : Setup symbols) : Seen secret (Session.start symbolic u) where
  generated q := by
    cases q with
    | alice => exact ⟨u.aliceKeygen, rfl⟩
    | bob => exact ⟨u.bobKeygen, rfl⟩
  known q m hmem := absurd hmem List.not_mem_nil
  sealed q m hmem := absurd hmem List.not_mem_nil
  peer q := by cases q <;> exact trivial
  hashes q := by cases q <;> exact ⟨⟨_, rfl⟩, ⟨_, rfl⟩, ⟨_, rfl⟩, fun mk hmem => absurd hmem List.not_mem_nil⟩

theorem mem_send {p q : Side} {coins : Coins symbols} {plaintext : Bytes} {m : Sent symbols} (h : m ∈ (s.send symbolic p coins plaintext).sent q) :
    m ∈ s.sent q ∨ q = p ∧ m = ⟨(encrypt symbolic (s.st p) coins plaintext).2, plaintext⟩ := by
  rcases p.eq_or_other q with rfl | rfl
  · rw [Session.send_sent_self] at h
    rcases List.mem_append.mp h with hold | hnew
    · exact Or.inl hold
    · exact Or.inr ⟨rfl, List.mem_singleton.mp hnew⟩
  · rw [Session.send_sent_other] at h
    exact Or.inl h

theorem sent_subset_send (s : Session symbols) (p : Side) (coins : Coins symbols) (plaintext : Bytes) (q : Side) :
    s.sent q ⊆ (s.send symbolic p coins plaintext).sent q := by
  rcases p.eq_or_other q with rfl | rfl
  · rw [Session.send_sent_self]
    exact List.subset_append_left _ _
  · rw [Session.send_sent_other]
    exact List.Subset.refl _

theorem sealedWith_encrypt (st : State symbols) (coins : Coins symbols) (plaintext : Bytes) :
    SealedWith ⟨(encrypt symbolic st coins plaintext).2, plaintext⟩ (encryptKey symbolic st coins) := by
  unfold SealedWith
  rw [encrypt_sealed, encrypt_nonce]

theorem deliver_sent (P : Primitives symbols) (s : Session symbols) (p : Side) (i : ℕ) (msg : Message symbols) : (s.deliver P p i msg).sent = s.sent := by
  obtain ⟨st', r, hd⟩ := Session.deliver_record P s p i msg
  rw [hd]
  rfl

theorem Seen.step (h : Seen secret s) {e : Event symbols} (hnonce : OpenNonce secret e) (hs : Step symbolic s e s') : Seen secret s' := by
  cases hs with
  | send p coins plaintext room =>
    have hsub : sentTags s ⊆ sentTags (s.send symbolic p coins plaintext) := by
      rintro t ⟨q, m, hmem, rfl⟩
      exact ⟨q, m, sent_subset_send s p coins plaintext q hmem, rfl⟩
    refine ⟨?_, ?_, ?_, ?_, ?_⟩
    · intro q
      rcases p.eq_or_other q with rfl | rfl
      · rw [Session.send_st_self]
        exact (h.generated q).encrypt coins plaintext
      · rw [Session.send_st_other]
        exact h.generated p.other
    · intro q m hmem t ht
      rcases mem_send hmem with hold | ⟨rfl, rfl⟩
      · exact (h.known q m hold t ht).mono hsub
      · obtain ⟨n, hn, hcoin⟩ := hnonce
        have htag : (encrypt symbolic (s.st q) coins plaintext).2.tag ∈ sentTags (s.send symbolic q coins plaintext) := ⟨q, _, hmem, rfl⟩
        refine encrypt_terms (h.generated q) coins plaintext ?_ htag t ht
        rw [hcoin]
        exact hn
    · intro q m hmem
      rcases mem_send hmem with hold | ⟨rfl, rfl⟩
      · exact h.sealed q m hold
      · exact ⟨_, sealedWith_encrypt _ coins plaintext⟩
    · intro q
      rcases p.eq_or_other q with rfl | rfl
      · rw [Session.send_st_self, encrypt_peerRatchetPub]
        exact (h.peer q).mono hsub
      · rw [Session.send_st_other]
        exact (h.peer p.other).mono hsub
    · intro q
      rcases p.eq_or_other q with rfl | rfl
      · rw [Session.send_st_self]
        exact ((h.hashes q).encrypt isHash_hereditary coins plaintext).2
      · rw [Session.send_st_other]
        exact h.hashes p.other
  | deliver p i m sent once =>
    refine ⟨?_, ?_, ?_, ?_, ?_⟩
    · intro q
      rcases p.eq_or_other q with rfl | rfl
      · rw [Session.deliver_st_other]
        exact h.generated q
      · rw [Session.deliver_st_self]
        unfold Generated
        rw [decrypt_myRatchetKem]
        exact h.generated p.other
    · unfold sentTags
      rw [deliver_sent]
      exact h.known
    · rw [deliver_sent]
      exact h.sealed
    · unfold sentTags
      rw [deliver_sent]
      intro q
      rcases p.eq_or_other q with rfl | rfl
      · rw [Session.deliver_st_other]
        exact h.peer q
      · rw [Session.deliver_st_self]
        rcases decrypt_peerRatchetPub (P := symbolic) m.msg (s.st p.other) with hkept | hheader
        · rw [hkept]
          exact h.peer p.other
        · rw [hheader]
          exact h.known p m (List.mem_of_getElem? sent) _ List.mem_cons_self
    · intro q
      rcases p.eq_or_other q with rfl | rfl
      · rw [Session.deliver_st_other]
        exact h.hashes q
      · rw [Session.deliver_st_self]
        exact (h.hashes p.other).decrypt isHash_hereditary m.msg

end Seeing

/-! ## From the threshold on -/

/-- Keys on the roots from `T` on are healed; until then the peer keeps its private keys. -/
structure Heals (secret : Set ℕ) (captured : State symbols) (T : ℕ) (p : Side) (s : Session symbols) : Prop where
  peer : ∃ n ∈ secret, (s.st p.other).myRatchetKem = symbolic.kem.keygen (.coin n)
  root : ∀ q, T ≤ (s.st q).sendEpoch.toNat + (s.st q).recvEpoch.toNat → Healed secret captured (s.st q).rootKey
  chain : ∀ q, T ≤ stepIndex q (s.st q).sendEpoch.toNat → Healed secret captured (s.st q).sendChainKey
  sent : ∀ q, ∀ m ∈ s.sent q, T ≤ stepIndex q m.msg.header.epoch.toNat → ∃ key, SealedWith m key ∧ Healed secret captured key

section Heal
variable {secret : Set ℕ} {captured : State symbols} {e₀ : ℕ} {p : Side} {u : Setup symbols} {g : Ghost symbols} {s : Session symbols}

/-- The KEM step that reaches the threshold is the one of `p`. -/
theorem Heals.new_root (h : Heals secret captured (stepIndex p (e₀ + 1)) p s) (hg : Inv symbolic u g s) {q : Side} (hneed : (s.st q).needKemStep = true)
    {coins : Coins symbols} {plaintext : Bytes} (hdraw : FreshDraw secret captured (.send q coins plaintext))
    (hT : stepIndex p (e₀ + 1) ≤ (s.st q).sendEpoch.toNat + (s.st q).recvEpoch.toNat + 1) :
    Healed secret captured (kemStepSend symbolic (s.st q) coins).1.rootKey := by
  rcases Nat.lt_or_eq_of_le hT with hlt | heq
  · exact healed_hereditary.ratchetStep (h.root q (by omega)) _
  · have hturn := hg.turn_of_need hneed
    obtain rfl := stepIndex_side (heq.trans hturn.level).symm
    obtain ⟨⟨n, hn, hencap, hfresh⟩, _⟩ := hdraw
    obtain ⟨r, hr, hpair⟩ := h.peer
    have hpub : (s.st q).peerRatchetPub = .pub (.coin r) := by
      rw [hturn.pub_eq, hpair]
      rfl
    change Healed secret captured (ratchetStep symbolic (s.st q).rootKey (.kemSs (s.st q).peerRatchetPub coins.encap))
    rw [hpub, hencap]
    exact healed_step hn hr hfresh _

theorem Heals.send_peer (h : Heals secret captured (stepIndex p (e₀ + 1)) p s) {q : Side} {coins : Coins symbols} {plaintext : Bytes}
    (hdraw : FreshDraw secret captured (.send q coins plaintext)) :
    ∃ n ∈ secret, ((s.send symbolic q coins plaintext).st p.other).myRatchetKem = symbolic.kem.keygen (.coin n) := by
  rcases q.eq_or_other p.other with rfl | heq
  · obtain ⟨_, n, hn, hkeygen⟩ := hdraw
    rw [Session.send_st_self]
    unfold encrypt
    split_ifs
    · refine ⟨n, hn, ?_⟩
      change symbolic.kem.keygen coins.keygen = _
      rw [hkeygen]
    · exact h.peer
  · rw [heq, Session.send_st_other, ← heq]
    exact h.peer

theorem Heals.send (h : Heals secret captured (stepIndex p (e₀ + 1)) p s) (hg : Inv symbolic u g s) {q : Side} {coins : Coins symbols} {plaintext : Bytes}
    (hroom : CounterRoom (s.st q)) (hdraw : FreshDraw secret captured (.send q coins plaintext)) :
    Heals secret captured (stepIndex p (e₀ + 1)) p (s.send symbolic q coins plaintext) := by
  have hpeer := h.send_peer hdraw
  unfold CounterRoom at hroom
  by_cases hneed : (s.st q).needKemStep = true
  · rw [if_pos hneed] at hroom
    have hturn := hg.turn_of_need hneed
    have hepoch : ((kemStepSend symbolic (s.st q) coins).1.sendEpoch).toNat = (s.st q).sendEpoch.toNat + 1 := toNat_succ hroom
    have hlevel := hturn.level
    have hroot := fun hT => h.new_root hg hneed hdraw hT
    have hchain := fun hT => healed_hereditary.labelled (hroot hT) "send_chain"
    refine ⟨hpeer, ?_, ?_, ?_⟩
    · intro x hT
      rcases q.eq_or_other x with rfl | rfl
      · rw [Session.send_st_self, encrypt_of_need hneed] at hT ⊢
        change _ ≤ ((kemStepSend symbolic (s.st x) coins).1.sendEpoch).toNat + (s.st x).recvEpoch.toNat at hT
        exact hroot (by omega)
      · rw [Session.send_st_other] at hT ⊢
        exact h.root _ hT
    · intro x hT
      rcases q.eq_or_other x with rfl | rfl
      · rw [Session.send_st_self, encrypt_of_need hneed] at hT ⊢
        change _ ≤ stepIndex x ((kemStepSend symbolic (s.st x) coins).1.sendEpoch).toNat at hT
        rw [hepoch, ← hlevel] at hT
        exact healed_hereditary.labelled (hchain hT) _
      · rw [Session.send_st_other] at hT ⊢
        exact h.chain _ hT
    · intro x m hmem hT
      rcases mem_send hmem with hold | ⟨rfl, rfl⟩
      · exact h.sent x m hold hT
      · refine ⟨_, sealedWith_encrypt _ coins plaintext, ?_⟩
        rw [encrypt_of_need hneed] at hT
        change _ ≤ stepIndex x ((kemStepSend symbolic (s.st x) coins).1.sendEpoch).toNat at hT
        rw [hepoch, ← hlevel] at hT
        unfold encryptKey sendSource
        rw [if_pos hneed]
        exact healed_hereditary.labelled (hchain hT) _
  · have hidle : encrypt symbolic (s.st q) coins plaintext = encryptStep symbolic (s.st q) none coins.nonce plaintext := if_neg hneed
    refine ⟨hpeer, ?_, ?_, ?_⟩
    · intro x hT
      rcases q.eq_or_other x with rfl | rfl
      · rw [Session.send_st_self, hidle] at hT ⊢
        exact h.root x hT
      · rw [Session.send_st_other] at hT ⊢
        exact h.root _ hT
    · intro x hT
      rcases q.eq_or_other x with rfl | rfl
      · rw [Session.send_st_self, hidle] at hT ⊢
        exact healed_hereditary.labelled (h.chain x hT) _
      · rw [Session.send_st_other] at hT ⊢
        exact h.chain _ hT
    · intro x m hmem hT
      rcases mem_send hmem with hold | ⟨rfl, rfl⟩
      · exact h.sent x m hold hT
      · refine ⟨_, sealedWith_encrypt _ coins plaintext, ?_⟩
        rw [hidle] at hT
        unfold encryptKey sendSource
        rw [if_neg hneed]
        exact healed_hereditary.labelled (h.chain x hT) _

/-- A delivery gives the addressee the root key that its peer has. -/
theorem Heals.deliver {T : ℕ} (h : Heals secret captured T p s) {q : Side} {i : ℕ} {msg : Message symbols} {g' : Ghost symbols}
    (hg : Inv symbolic u g' (s.deliver symbolic q i msg)) : Heals secret captured T p (s.deliver symbolic q i msg) := by
  obtain ⟨hepoch, hchain, hroot⟩ := decrypt_root (P := symbolic) msg (s.st q.other)
  refine ⟨?_, ?_, ?_, ?_⟩
  · rcases q.eq_or_other p.other with heq | heq
    · rw [heq, Session.deliver_st_other, ← heq]
      exact h.peer
    · rw [heq, Session.deliver_st_self, decrypt_myRatchetKem, ← heq]
      exact h.peer
  · intro x hT
    rcases q.eq_or_other x with rfl | rfl
    · rw [Session.deliver_st_other] at hT ⊢
      exact h.root x hT
    · rcases hroot with ⟨hsame, hrecv⟩ | hneed
      · rw [Session.deliver_st_self, hepoch, hrecv] at hT
        rw [Session.deliver_st_self, hsame]
        exact h.root _ hT
      · -- it was opened with a KEM step: both sides are level
        have hlevel := hg.level_other (p := q.other) (by rw [Session.deliver_st_self]; exact hneed)
        rw [q.other_other] at hlevel
        rw [hg.root_eq q.other, ← hlevel, ← hg.root_eq q, Session.deliver_st_other]
        rw [← hlevel, Session.deliver_st_other] at hT
        exact h.root q hT
  · intro x hT
    rcases q.eq_or_other x with rfl | rfl
    · rw [Session.deliver_st_other] at hT ⊢
      exact h.chain x hT
    · rw [Session.deliver_st_self, hepoch] at hT
      rw [Session.deliver_st_self, hchain]
      exact h.chain _ hT
  · rw [deliver_sent]
    exact h.sent

end Heal

/-! ## Up to the threshold -/

section Attack
variable {secret : Set ℕ} {u : Setup symbols} {captured : State symbols} {g : Ghost symbols} {s : Session symbols} {p : Side}

theorem followed_mono (secret : Set ℕ) (u : Setup symbols) (captured : State symbols) {s' : Session symbols} (h : ∀ q, s.sent q ⊆ s'.sent q) : followed secret u s captured ⊆ followed secret u s' captured := by
  rintro t (hcoin | hterm | ⟨q, m, hmem, ht⟩ | hstate)
  · exact Or.inl hcoin
  · exact Or.inr (Or.inl hterm)
  · exact Or.inr (Or.inr (Or.inl ⟨q, m, h q hmem, ht⟩))
  · exact Or.inr (Or.inr (Or.inr hstate))

theorem derives_kemCt {q : Side} {m : Sent symbols} (hmem : m ∈ s.sent q) {ct : symbols.Ct} (hct : m.msg.header.kemCt = some ct) :
    Derives (followed secret u s captured) ct := by
  refine .given (Or.inr (Or.inr (Or.inl ⟨q, m, hmem, ?_⟩)))
  unfold Message.terms
  rw [hct]
  exact List.mem_cons_of_mem _ (List.mem_cons_of_mem _ (List.mem_cons_of_mem _ List.mem_cons_self))

theorem derives_ratchetStep {given : Set Term} {root priv ct : Term} (hroot : Derives given root) (hpriv : Derives given priv)
    (hct : Derives given ct) : Derives given (ratchetStep symbolic root (symbolic.kem.decapsulate priv ct)) := by
  refine Derives.kdf ?_
  refine List.forall_mem_cons.mpr ⟨hroot, List.forall_mem_cons.mpr ⟨.decapsulate hpriv hct, List.forall_mem_cons.mpr ⟨.label _, ?_⟩⟩⟩
  exact fun part hmem => absurd hmem List.not_mem_nil

/-- Until its own next KEM step the attacker keeps up with `p`, and with what the peer sends to it. -/
structure Reads (secret : Set ℕ) (u : Setup symbols) (captured : State symbols) (e₀ : ℕ) (base : Side → ℕ) (p : Side) (s : Session symbols) : Prop where
  le : e₀ ≤ (s.st p).sendEpoch.toNat
  held : (s.st p).sendEpoch.toNat = e₀ → Derives (followed secret u s captured) (s.st p).rootKey ∧
    Derives (followed secret u s captured) (s.st p).sendChainKey ∧ Derives (followed secret u s captured) (s.st p).myRatchetKem.priv
  recv : stepIndex p.other (s.st p).recvEpoch.toNat < stepIndex p (e₀ + 1) → Derives (followed secret u s captured) (s.st p).recvChainKey
  sent : ∀ q i m, base q ≤ i → (s.sent q)[i]? = some m → stepIndex q m.msg.header.epoch.toNat < stepIndex p (e₀ + 1) →
    ∃ key, SealedWith m key ∧ Derives (followed secret u s captured) key

/-- The secret of a KEM step of the peer can be decapsulated with the key pair of `p`. -/
theorem Turn.decapsulates {st : Side → State symbols} (h : Turn symbolic st p.other) (coins : Coins symbols) :
    (symbolic.kem.encapsulate (st p.other).peerRatchetPub coins.encap).2 =
      symbolic.kem.decapsulate (st p).myRatchetKem.priv (symbolic.kem.encapsulate (st p.other).peerRatchetPub coins.encap).1 := by
  obtain ⟨r, hr⟩ := h.keypair
  have hpub := h.pub_eq
  rw [p.other_other] at hr hpub
  rw [hpub, hr]
  exact (symbolicKem_correct r coins.encap).symm

/-- The key of the next message of the peer, before the threshold, follows from what is known of `p`. -/
theorem Reads.peer_key {e₀ : ℕ} {base : Side → ℕ} (h : Reads secret u captured e₀ base p s) (hg : Inv symbolic u g s) {coins : Coins symbols}
    {plaintext : Bytes} (hroom : CounterRoom (s.st p.other))
    (hT : stepIndex p.other (encrypt symbolic (s.st p.other) coins plaintext).2.header.epoch.toNat < stepIndex p (e₀ + 1)) :
    Derives (followed secret u (s.send symbolic p.other coins plaintext) captured) (encryptKey symbolic (s.st p.other) coins) := by
  have hmore := followed_mono secret u captured (sent_subset_send s p.other coins plaintext)
  have hle := h.le
  unfold encryptKey sendSource
  unfold CounterRoom at hroom
  by_cases hneed : (s.st p.other).needKemStep = true
  · rw [if_pos hneed] at hroom ⊢
    have hturn := hg.turn_of_need hneed
    have hlevel := hg.level_other hneed
    have hgot := congrArg UInt32.toNat hturn.got_eq
    have hindex := hturn.level
    have hepoch : ((kemStepSend symbolic (s.st p.other) coins).1.sendEpoch).toNat = (s.st p.other).sendEpoch.toNat + 1 := toNat_succ hroom
    have hct : Derives (followed secret u (s.send symbolic p.other coins plaintext) captured) (kemStepSend symbolic (s.st p.other) coins).2 := by
      refine derives_kemCt (q := p.other) (m := ⟨(encrypt symbolic (s.st p.other) coins plaintext).2, plaintext⟩) ?_ ?_
      · rw [Session.send_sent_self]
        exact List.mem_append_right _ List.mem_cons_self
      · rw [encrypt_of_need hneed]
        rfl
    rw [encrypt_of_need hneed] at hT
    change stepIndex p.other ((kemStepSend symbolic (s.st p.other) coins).1.sendEpoch).toNat < _ at hT
    rw [p.other_other] at hlevel hgot
    have hsame : (s.st p).sendEpoch.toNat = e₀ := by
      cases p <;> simp only [Side.other, stepIndex] at * <;> omega
    obtain ⟨hroot, _, hpriv⟩ := h.held hsame
    have hroots : (s.st p.other).rootKey = (s.st p).rootKey := by
      rw [hg.root_eq p.other, hg.root_eq p, hlevel]
    have hnew : (kemStepSend symbolic (s.st p.other) coins).1.sendChainKey = sendChain symbolic
        (ratchetStep symbolic (s.st p).rootKey (symbolic.kem.decapsulate (s.st p).myRatchetKem.priv (kemStepSend symbolic (s.st p.other) coins).2)) := by
      change sendChain symbolic (ratchetStep symbolic (s.st p.other).rootKey _) = _
      rw [hroots, hturn.decapsulates]
      rfl
    rw [hnew]
    exact Derives.labelled (Derives.labelled (derives_ratchetStep (hroot.mono hmore) (hpriv.mono hmore) hct) _) _
  · rw [if_neg hneed]
    have hidle : encrypt symbolic (s.st p.other) coins plaintext = encryptStep symbolic (s.st p.other) none coins.nonce plaintext := if_neg hneed
    rw [hidle] at hT
    change stepIndex p.other (s.st p.other).sendEpoch.toNat < _ at hT
    have hrecvd := hg.receives p.other
    have hepochs := hg.recvEpoch_le p.other
    rw [p.other_other] at hrecvd hepochs
    have hchain := (hg.sends p.other).chain_eq
    refine Derives.labelled ?_ _
    rcases Nat.lt_or_eq_of_le hepochs with hlt | heq
    · -- the peer's step has not arrived: the attacker takes it for `p`
      have hflight := hg.flight_of_lt (p := p.other) (by rw [p.other_other]; exact hlt)
      have hahead := hflight.ahead
      have hgot := congrArg UInt32.toNat hflight.got_eq
      have hlevel := hflight.level
      obtain ⟨m, ct, hm, hcarries⟩ := hflight.first
      have hcarried := hg.chain_carried hflight hcarries
      rw [p.other_other] at hahead hgot hcarried
      have hsame : (s.st p).sendEpoch.toNat = e₀ := by
        cases p <;> simp only [Side.other, stepIndex] at * <;> omega
      obtain ⟨hroot, _, hpriv⟩ := h.held hsame
      rw [hchain, hahead, hcarried]
      refine (Derives.chainAt (Derives.labelled ?_ _) _).mono hmore
      exact derives_ratchetStep hroot hpriv (derives_kemCt (List.mem_of_getElem? hm) hcarries.kemCt_eq)
    · have hnum := hrecvd.num_le
      rw [heq, ← (hg.sends p.other).num_eq] at hnum
      have hrecvEq := hrecvd.chain_eq
      rw [heq] at hrecvEq
      have hahead : (s.st p.other).sendChainKey = chainAt symbolic (s.st p).recvChainKey ((s.st p.other).sendMsgNum.toNat - (s.st p).recvMsgNum.toNat) := by
        rw [hchain, hrecvEq, chainAt_chainAt]
        congr 1
        omega
      rw [hahead]
      rw [← heq] at hT
      exact (Derives.chainAt (h.recv hT) _).mono hmore

theorem getElem?_send {q x : Side} {coins : Coins symbols} {plaintext : Bytes} {i : ℕ} {m : Sent symbols}
    (h : ((s.send symbolic q coins plaintext).sent x)[i]? = some m) :
    (s.sent x)[i]? = some m ∨ x = q ∧ m = ⟨(encrypt symbolic (s.st q) coins plaintext).2, plaintext⟩ := by
  rcases q.eq_or_other x with rfl | rfl
  · rw [Session.send_sent_self] at h
    rcases Nat.lt_or_ge i (s.sent x).length with hlt | hge
    · rw [List.getElem?_append_left hlt] at h
      exact Or.inl h
    · rw [List.getElem?_append_right hge] at h
      exact Or.inr ⟨rfl, List.mem_singleton.mp (List.mem_of_getElem? h)⟩
  · rw [Session.send_sent_other] at h
    exact Or.inl h

section Keeping
variable {e₀ : ℕ} {base : Side → ℕ}

theorem Reads.sent_mono (h : Reads secret u captured e₀ base p s) {q : Side} {coins : Coins symbols} {plaintext : Bytes}
    (hnew : stepIndex q (encrypt symbolic (s.st q) coins plaintext).2.header.epoch.toNat < stepIndex p (e₀ + 1) →
      Derives (followed secret u (s.send symbolic q coins plaintext) captured) (encryptKey symbolic (s.st q) coins)) :
    ∀ x i m, base x ≤ i → ((s.send symbolic q coins plaintext).sent x)[i]? = some m → stepIndex x m.msg.header.epoch.toNat < stepIndex p (e₀ + 1) →
      ∃ key, SealedWith m key ∧ Derives (followed secret u (s.send symbolic q coins plaintext) captured) key := by
  intro x i m hi hm hT
  rcases getElem?_send hm with hold | ⟨rfl, rfl⟩
  · obtain ⟨key, hkey, hderives⟩ := h.sent x i m hi hold hT
    exact ⟨key, hkey, hderives.mono (followed_mono secret u captured (sent_subset_send s q coins plaintext))⟩
  · exact ⟨_, sealedWith_encrypt _ coins plaintext, hnew hT⟩

theorem Reads.send_peer (h : Reads secret u captured e₀ base p s) (hg : Inv symbolic u g s) {coins : Coins symbols} {plaintext : Bytes}
    (hroom : CounterRoom (s.st p.other)) : Reads secret u captured e₀ base p (s.send symbolic p.other coins plaintext) := by
  have hmore := followed_mono secret u captured (sent_subset_send s p.other coins plaintext)
  have hst : (s.send symbolic p.other coins plaintext).st p = s.st p := by
    have hother := s.send_st_other symbolic p.other coins plaintext
    rw [p.other_other] at hother
    exact hother
  refine ⟨?_, ?_, ?_, h.sent_mono (h.peer_key hg hroom)⟩
  · rw [hst]
    exact h.le
  · rw [hst]
    intro hsame
    obtain ⟨hroot, hsend, hpriv⟩ := h.held hsame
    exact ⟨hroot.mono hmore, hsend.mono hmore, hpriv.mono hmore⟩
  · rw [hst]
    exact fun hT => (h.recv hT).mono hmore

theorem Reads.send_self (h : Reads secret u captured e₀ base p s) {coins : Coins symbols} {plaintext : Bytes}
    (hroom : CounterRoom (s.st p)) : Reads secret u captured e₀ base p (s.send symbolic p coins plaintext) := by
  have hmore := followed_mono secret u captured (sent_subset_send s p coins plaintext)
  have hle := h.le
  obtain ⟨hrecv, _, hrecvChain, _⟩ := encrypt_recv symbolic (s.st p) coins plaintext
  have hkept : stepIndex p.other ((s.send symbolic p coins plaintext).st p).recvEpoch.toNat < stepIndex p (e₀ + 1) →
      Derives (followed secret u (s.send symbolic p coins plaintext) captured) ((s.send symbolic p coins plaintext).st p).recvChainKey := by
    rw [Session.send_st_self, hrecv, hrecvChain]
    exact fun hT => (h.recv hT).mono hmore
  unfold CounterRoom at hroom
  by_cases hneed : (s.st p).needKemStep = true
  · -- with its own step `p` leaves the attacker behind
    rw [if_pos hneed] at hroom
    have hepoch := sendEpoch_send_of_need (P := symbolic) hneed hroom coins plaintext
    refine ⟨by omega, fun hsame => by omega, hkept, h.sent_mono ?_⟩
    intro hT
    rw [Session.send_st_self, encrypt_of_need hneed] at hepoch
    rw [encrypt_of_need hneed] at hT
    change stepIndex p ((kemStepSend symbolic (s.st p) coins).1.sendEpoch).toNat < _ at hT
    change ((kemStepSend symbolic (s.st p) coins).1.sendEpoch).toNat = _ at hepoch
    cases p <;> simp only [stepIndex] at hT <;> omega
  · have hidle : encrypt symbolic (s.st p) coins plaintext = encryptStep symbolic (s.st p) none coins.nonce plaintext := if_neg hneed
    have hst : (s.send symbolic p coins plaintext).st p = (encryptStep symbolic (s.st p) none coins.nonce plaintext).1 := by
      rw [Session.send_st_self, hidle]
    refine ⟨?_, ?_, hkept, h.sent_mono ?_⟩
    · rw [hst]
      exact h.le
    · rw [hst]
      intro hsame
      obtain ⟨hroot, hsend, hpriv⟩ := h.held hsame
      exact ⟨hroot.mono hmore, Derives.labelled (hsend.mono hmore) _, hpriv.mono hmore⟩
    · intro hT
      rw [hidle] at hT
      change stepIndex p (s.st p).sendEpoch.toNat < _ at hT
      have hsame : (s.st p).sendEpoch.toNat = e₀ := by
        cases p <;> simp only [stepIndex] at hT <;> omega
      unfold encryptKey sendSource
      rw [if_neg hneed]
      exact Derives.labelled ((h.held hsame).2.1.mono hmore) _

theorem Reads.deliver (h : Reads secret u captured e₀ base p s) {q : Side} {i : ℕ} {m : Sent symbols} (hm : (s.sent q)[i]? = some m) {g' : Ghost symbols}
    (hg : Inv symbolic u g' (s.deliver symbolic q i m.msg)) : Reads secret u captured e₀ base p (s.deliver symbolic q i m.msg) := by
  have hsent := deliver_sent symbolic s q i m.msg
  have hview : followed secret u (s.deliver symbolic q i m.msg) captured = followed secret u s captured := by
    unfold followed
    rw [hsent]
  have hle := h.le
  rcases q.eq_or_other p with rfl | hp
  · refine ⟨?_, ?_, ?_, ?_⟩
    · rw [Session.deliver_st_other]
      exact h.le
    · rw [Session.deliver_st_other, hview]
      exact h.held
    · rw [Session.deliver_st_other, hview]
      exact h.recv
    · rw [hsent, hview]
      exact h.sent
  · have hst : (s.deliver symbolic q i m.msg).st p = endState ((decrypt symbolic m.msg).run (s.st p)) := by
      rw [hp, Session.deliver_st_self]
    have hpair := decrypt_myRatchetKem (P := symbolic) m.msg (s.st p)
    obtain ⟨hepoch, hsendChain, _⟩ := decrypt_root (P := symbolic) m.msg (s.st p)
    have hturn := fun hneed => hg.turn_of_need (p := p) hneed
    rw [hst] at hturn
    refine ⟨?_, ?_, ?_, ?_⟩
    · rw [hst, hepoch]
      exact h.le
    · rw [hst, hview, hepoch, hsendChain, hpair]
      intro hsame
      obtain ⟨hroot, hsend, hpriv⟩ := h.held hsame
      refine ⟨?_, hsend, hpriv⟩
      cases decrypt_leaves (P := symbolic) m.msg (s.st p) with
      | stays hmoved =>
        obtain ⟨_, _, _, hend⟩ := hmoved
        rw [hend]
        exact hroot
      | steps ct hct s₀ hbefore hmoved =>
        obtain ⟨_, _, _, rfl⟩ := hbefore
        obtain ⟨_, _, _, hend⟩ := hmoved
        rw [hend]
        exact derives_ratchetStep hroot hpriv (derives_kemCt (List.mem_of_getElem? hm) hct)
    · rw [hst, hview]
      cases decrypt_leaves (P := symbolic) m.msg (s.st p) with
      | stays hmoved =>
        obtain ⟨_, _, _, hend⟩ := hmoved
        rw [hend]
        exact fun hT => Derives.chainAt (h.recv hT) _
      | steps ct hct s₀ hbefore hmoved =>
        obtain ⟨_, _, _, rfl⟩ := hbefore
        obtain ⟨_, _, _, hend⟩ := hmoved
        intro hT
        have hlevel := (hturn (by rw [hend]; rfl)).level
        rw [hst, hepoch] at hlevel
        have hsame : (s.st p).sendEpoch.toNat = e₀ := by
          cases p <;> simp only [Side.other, stepIndex] at * <;> omega
        obtain ⟨hroot, _, hpriv⟩ := h.held hsame
        rw [hend]
        exact Derives.chainAt (Derives.labelled (derives_ratchetStep hroot hpriv (derives_kemCt (List.mem_of_getElem? hm) hct)) _) _
    · rw [hsent, hview]
      exact h.sent

end Keeping

end Attack

/-! ## Runs -/

section Runs
variable {secret : Set ℕ} {u : Setup symbols} {p : Side} {s₁ s₂ : Session symbols} {es₁ es₂ : List (Event symbols)}

theorem Seen.run {s : Session symbols} (h : Seen secret s) (hrun : Run (Step symbolic) s es₂ s₂) (hnonce : ∀ e ∈ es₂, OpenNonce secret e) :
    Seen secret s₂ := by
  induction hrun with
  | nil => exact h
  | snoc _ hstep ih =>
    have hbefore := ih (fun e hmem => hnonce e (List.mem_append_left _ hmem))
    exact hbefore.step (hnonce _ (List.mem_append_right _ List.mem_cons_self)) hstep

/-- All that the attacker has is known from the tags and the captured keys. -/
theorem Seen.followed_known (h₁ : Seen secret s₁) (h₂ : Seen secret s₂) (hu : PublicKeys u) (hpair : CapturedPair secret s₁ p)
    (hsub : sentTags s₁ ⊆ sentTags s₂) {t : Term} (ht : Derives (followed secret u s₂ (s₁.st p)) t) :
    Known secret (handedOut (sentTags s₂) (s₁.st p)) t := by
  refine ht.known ?_
  have hmore : sentTags s₂ ⊆ handedOut (sentTags s₂) (s₁.st p) := fun t hmem => Or.inl hmem
  obtain ⟨n, hn, hkem⟩ := hpair.mine
  have hkeys := h₁.hashes p
  rintro t' (⟨k, hk, rfl⟩ | hterm | ⟨q, m, hmem, hin⟩ | hstate)
  · exact hk
  · exact hu.known _ t' hterm
  · exact (h₂.known q m hmem t' hin).mono hmore
  · unfold State.terms at hstate
    rw [hkem] at hstate
    rcases List.mem_cons.mp hstate with rfl | hstate
    · exact trivial
    · rcases List.mem_cons.mp hstate with rfl | hstate
      · exact hn
      · rcases List.mem_cons.mp hstate with rfl | hin
        · exact ((h₁.peer p).mono hsub).mono hmore
        · have hhash : IsHash t' := by
            rcases mem_keys hin with rfl | rfl | rfl | hcached
            · exact hkeys.root
            · exact hkeys.send
            · exact hkeys.recv
            · exact hkeys.cached t' hcached
          obtain ⟨input, rfl⟩ := hhash
          exact Or.inl (Or.inr hin)

/-- At the capture nothing has been sent at the threshold. -/
theorem Inv.heals_start {g : Ghost symbols} (hg : Inv symbolic u g s₁) (hpair : CapturedPair secret s₁ p) :
    Heals secret (s₁.st p) (threshold p (s₁.st p)) p s₁ where
  peer := hpair.peer
  root q hT := absurd hT (Nat.not_le.mpr (hg.below_threshold p q).2)
  chain q hT := absurd hT (Nat.not_le.mpr (hg.below_threshold p q).1)
  sent q m hmem hT := by
    obtain ⟨i, hi⟩ := List.mem_iff_getElem?.mp hmem
    obtain ⟨e, n, he, _, _, hgenuine⟩ := (hg.sends q).locate hi
    rw [hgenuine.epoch_eq] at hT
    have hbelow := (hg.below_threshold p q).1
    rcases Nat.lt_or_eq_of_le he with hlt | rfl
    · have hless := stepIndex_lt (p := q) hlt
      omega
    · omega

theorem Reads.start (p : Side) (s₁ : Session symbols) :
    Reads secret u (s₁.st p) (s₁.st p).sendEpoch.toNat (fun q => (s₁.sent q).length) p s₁ where
  le := le_rfl
  held _ := by
    obtain ⟨hpriv, hroot, hsend, _⟩ := (s₁.st p).mem_terms
    exact ⟨.given (Or.inr (Or.inr (Or.inr hroot))), .given (Or.inr (Or.inr (Or.inr hsend))), .given (Or.inr (Or.inr (Or.inr hpriv)))⟩
  recv _ := .given (Or.inr (Or.inr (Or.inr (s₁.st p).mem_terms.2.2.2)))
  sent q i m hi hm _ := by
    have hlt := (List.getElem?_eq_some_iff.mp hm).1
    omega

/-- Both sides of the threshold, along the session after the capture. -/
theorem heals_and_reads (h₁ : Honest symbolic u s₁) (h₂ : Run (Step symbolic) s₁ es₂ s₂) (hdraw : ∀ e ∈ es₂, FreshDraw secret (s₁.st p) e)
    (hpair : CapturedPair secret s₁ p) : Honest symbolic u s₂ ∧ sentTags s₁ ⊆ sentTags s₂ ∧
      Heals secret (s₁.st p) (threshold p (s₁.st p)) p s₂ ∧
      Reads secret u (s₁.st p) (s₁.st p).sendEpoch.toNat (fun q => (s₁.sent q).length) p s₂ := by
  have hcorrect := symbolic_ideal.toCorrect
  induction h₂ with
  | nil =>
    obtain ⟨g, hg⟩ := h₁.inv hcorrect
    exact ⟨h₁, fun _ ht => ht, hg.heals_start hpair, Reads.start p s₁⟩
  | snoc _ hstep ih =>
    obtain ⟨hhonest, hsub, hheals, hreads⟩ := ih (fun e hmem => hdraw e (List.mem_append_left _ hmem))
    have hlast := hdraw _ (List.mem_append_right _ List.mem_cons_self)
    obtain ⟨g, hg⟩ := hhonest.inv hcorrect
    have hnext := hhonest.tail hstep
    obtain ⟨g', hg'⟩ := Honest.inv hcorrect hnext
    cases hstep with
    | send q coins plaintext room =>
      refine ⟨hnext, hsub.trans ?_, hheals.send hg room hlast, ?_⟩
      · rintro t ⟨x, m, hmem, rfl⟩
        exact ⟨x, m, sent_subset_send _ q coins plaintext x hmem, rfl⟩
      · rcases p.eq_or_other q with rfl | rfl
        · exact hreads.send_self room
        · exact hreads.send_peer hg room
    | deliver q i m hm once =>
      refine ⟨hnext, hsub.trans ?_, hheals.deliver hg', hreads.deliver hm hg'⟩
      unfold sentTags
      rw [deliver_sent]

theorem SealedWith.opens {m : Sent symbols} {key : symbols.Key} (h : SealedWith m key) :
    symbolic.aes.decrypt key m.msg.nonce m.msg.ciphertext m.msg.tag [] = some m.plaintext := by
  have hdec := symbolic_ideal.aes.decrypt_encrypt key m.msg.nonce m.plaintext []
  rw [← show (m.msg.ciphertext, m.msg.tag) = _ from h] at hdec
  exact hdec

end Runs

/-- Who captures the state of `p` and reads along opens exactly the messages that either side sends before the next KEM step of `p`. -/
theorem captured_state_follows_iff {secret : Set ℕ} {u : Setup symbols} (hu : PublicKeys u) {p : Side} {s₁ s₂ : Session symbols}
    {es₁ es₂ : List (Event symbols)} (h₁ : Run (Step symbolic) (Session.start symbolic u) es₁ s₁) (h₂ : Run (Step symbolic) s₁ es₂ s₂)
    (hnonce : ∀ e ∈ es₁ ++ es₂, OpenNonce secret e) (hdraw : ∀ e ∈ es₂, FreshDraw secret (s₁.st p) e) (hpair : CapturedPair secret s₁ p)
    {q : Side} {i : ℕ} {m : Sent symbols} (hi : (s₁.sent q).length ≤ i) (hm : (s₂.sent q)[i]? = some m) :
    CanRead (followed secret u s₂ (s₁.st p)) m.msg ↔ stepIndex q m.msg.header.epoch.toNat < threshold p (s₁.st p) := by
  have hseen₁ := (Seen.start secret u).run h₁ (fun e hmem => hnonce e (List.mem_append_left _ hmem))
  have hseen₂ := hseen₁.run h₂ (fun e hmem => hnonce e (List.mem_append_right _ hmem))
  obtain ⟨_, hsub, hheals, hreads⟩ := heals_and_reads ⟨es₁, h₁⟩ h₂ hdraw hpair
  constructor
  · rintro ⟨key, plaintext, hderives, hdec⟩
    by_contra hge
    obtain ⟨mk, hsealed, hhealed⟩ := hheals.sent q m (List.mem_of_getElem? hm) (Nat.le_of_not_lt hge)
    obtain rfl := opens_unique hsealed.opens hdec
    exact hhealed.unknown _ hseen₂.onlyTags (hseen₁.followed_known hseen₂ hu hpair hsub hderives)
  · intro hT
    obtain ⟨key, hsealed, hderives⟩ := hreads.sent q i m hi hm hT
    exact ⟨key, m.plaintext, hderives, hsealed.opens⟩

/-- Bob writes, Alice reads it and answers. -/
def answered : Session symbols :=
  ((Session.start symbolic published).send symbolic .bob (demoCoins 0) [1]).deliver symbolic .bob 0 firstReply

def answer : Sent symbols := ⟨(encrypt symbolic (answered.st .alice) (demoCoins 1) [2]).2, [2]⟩

theorem run_answered : Run (Step symbolic) (Session.start symbolic published)
    [.send .bob (demoCoins 0) [1], .deliver .bob 0, .send .alice (demoCoins 1) [2]] (answered.send symbolic .alice (demoCoins 1) [2]) := by
  refine ((Run.nil.snoc (Step.send _ .bob (demoCoins 0) [1] ?_)).snoc (Step.deliver _ .bob 0 ⟨firstReply, [1]⟩ rfl ?_)).snoc
    (Step.send _ .alice (demoCoins 1) [2] ?_)
  · change (0 : ℕ) + 1 < 2 ^ 32
    decide
  · exact Finset.notMem_empty 0
  · change (0 : ℕ) + 1 < 2 ^ 32
    decide

theorem fresh_published {n : ℕ} (hn : 3 < n) : ∀ k ∈ ((Session.start symbolic published).st .alice).keys, ¬Occurs n k := by
  intro k hmem
  have hroot : ¬Occurs n (published.root symbolic) := by
    change ¬Occurs n (.hash (.cons 2 (.kemSs (.pub (.coin 2)) (.coin 3)) (.cons 1 (.pub (.coin 0)) (.cons 1 (.pub (.coin 1))
      (.cons 3 (.label "ratchet_init") .nil)))))
    intro h
    simp only [Occurs, or_false] at h
    omega
  have hchain : ∀ l, ¬Occurs n (symbolic.kdf [.key (published.root symbolic), .label l]) := by
    intro l h
    change Occurs n (published.root symbolic) ∨ False ∨ False at h
    exact hroot (h.resolve_right (by simp))
  rcases mem_keys hmem with rfl | rfl | rfl | hcached
  · exact hroot
  · exact hchain _
  · exact hchain _
  · exact absurd hcached List.not_mem_nil

/-- Alice is captured at the start: Bob's message is read, and her answer is not. -/
theorem captured_state_follows_iff_answered :
    CanRead (followed {5, 6, 7, 9, 10} published (answered.send symbolic .alice (demoCoins 1) [2]) ((Session.start symbolic published).st .alice)) firstReply ∧
      ¬CanRead (followed {5, 6, 7, 9, 10} published (answered.send symbolic .alice (demoCoins 1) [2]) ((Session.start symbolic published).st .alice))
        answer.msg := by
  have hnonce : ∀ e ∈ ([] : List (Event symbols)) ++ [.send .bob (demoCoins 0) [1], .deliver .bob 0, .send .alice (demoCoins 1) [2]],
      OpenNonce {5, 6, 7, 9, 10} e := by
    refine List.forall_mem_cons.mpr ⟨⟨8, by simp, rfl⟩, List.forall_mem_cons.mpr ⟨trivial, List.forall_mem_cons.mpr ⟨⟨11, by simp, rfl⟩, ?_⟩⟩⟩
    exact fun e hmem => absurd hmem List.not_mem_nil
  have hdraw : ∀ e ∈ ([.send .bob (demoCoins 0) [1], .deliver .bob 0, .send .alice (demoCoins 1) [2]] : List (Event symbols)),
      FreshDraw {5, 6, 7, 9, 10} ((Session.start symbolic published).st .alice) e := by
    refine List.forall_mem_cons.mpr ⟨⟨⟨6, by simp, rfl, fresh_published (by decide)⟩, 7, by simp, rfl⟩, List.forall_mem_cons.mpr ⟨trivial,
      List.forall_mem_cons.mpr ⟨⟨⟨9, by simp, rfl, fresh_published (by decide)⟩, 10, by simp, rfl⟩, ?_⟩⟩⟩
    exact fun e hmem => absurd hmem List.not_mem_nil
  have hpair : CapturedPair {5, 6, 7, 9, 10} (Session.start symbolic published) .alice := ⟨⟨4, by simp, rfl⟩, 5, by simp, rfl⟩
  refine ⟨(captured_state_follows_iff handshake_published.toPublicKeys Run.nil run_answered hnonce hdraw hpair (q := .bob) (i := 0)
    (m := ⟨firstReply, [1]⟩) le_rfl rfl).mpr (by decide), fun hread => ?_⟩
  have hbefore := (captured_state_follows_iff handshake_published.toPublicKeys Run.nil run_answered hnonce hdraw hpair (q := .alice) (i := 0)
    (m := answer) le_rfl rfl).mp hread
  exact absurd hbefore (by decide)

end ScatterWeb.Ratchet
