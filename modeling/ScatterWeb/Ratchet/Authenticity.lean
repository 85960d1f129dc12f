import ScatterWeb.Crypto.Deduction
import ScatterWeb.Ratchet.Course

/-! # Authenticity under an active attacker

The header of a message is not authenticated, and a tag that does not verify leaves the receiver with a moved chain. What the ratchet still gives: all that a
side ever accepts was encrypted by its peer, each encryption accepted at most once. The attacker is the network. It sees every message, draws its own coins, reads and
chooses headers and nonces, and hands either side any message it can compute, in any order; it also has every coin of the two
parties but those of the prekey and of the first encapsulation. The root key is then out of its reach, and so is all that is derived from it; a tag it did not see it cannot make, and one that a side made itself it
cannot send back, since the chains of the two directions are apart. -/
namespace ScatterWeb.Ratchet
open Crypto Lib Relation
set_option autoImplicit false

/-! ## The attacker -/

/-- The fields of a message that are key material; the others are numbers and bytes. -/
def Message.terms (msg : Message symbols) : List Term :=
  msg.header.senderRatchetPub :: msg.nonce :: msg.tag :: msg.header.kemCt.toList

structure PublicKeys (u : Setup symbols) : Prop where
  aliceKeyB : ∃ r, u.aliceKeyB = (symbolic.kem.keygen r).pub
  bobKeyB : ∃ r, u.bobKeyB = (symbolic.kem.keygen r).pub

/-- The handshake was made with the public keys of two key pairs, and with two coins that are secret. -/
structure Handshake (u : Setup symbols) (secret : Set ℕ) : Prop extends PublicKeys u where
  prekey : ∃ a ∈ secret, u.prekey = .coin a
  encap : ∃ b ∈ secret, u.encap = .coin b

/-- What the two sides publish before the first message. -/
def handshakeTerms (u : Setup symbols) : List Term :=
  [u.aliceKeyB, u.bobKeyB, (symbolic.kem.keygen u.prekey).pub, (u.alice symbolic).prekeyCt, (u.alice symbolic).myRatchetPub]

/-- What the attacker has seen, and all coins that are not secret. -/
def view (secret : Set ℕ) (u : Setup symbols) (s : Exposed symbols) : Set Term :=
  {t | (∃ n, n ∉ secret ∧ t = .coin n) ∨ t ∈ handshakeTerms u ∨ ∃ p, ∃ msg ∈ s.sent p, t ∈ msg.terms}

/-- A nonce is nothing secret, and what is handed to a side was computed from what was seen. -/
def Feasible (secret : Set ℕ) (u : Setup symbols) (s : Exposed symbols) : Intrusion symbols → Prop
  | .send _ coins _ => Derives (view secret u s) coins.nonce
  | .inject _ msg => ∀ t ∈ msg.terms, Derives (view secret u s) t

def Attack (secret : Set ℕ) (u : Setup symbols) (events : List (Intrusion symbols)) : Prop :=
  Along (Exposed.next symbolic) (Feasible secret u) (Exposed.start symbolic u) events

/-- What a side was asked to encrypt. -/
def encryptedBy (p : Side) : List (Intrusion symbols) → List Bytes
  | [] => []
  | .send q _ plaintext :: events => if q = p then plaintext :: encryptedBy p events else encryptedBy p events
  | .inject _ _ :: events => encryptedBy p events

/-! ## Hidden keys -/

def OnlyTags (given : Set Term) : Prop := ∀ t ∈ given, ∃ key nonce plaintext ad, t = .mac key nonce plaintext ad

/-- Out of reach, whatever tags are handed out. -/
def Hidden (secret : Set ℕ) (k : Term) : Prop := ∀ given, OnlyTags given → ¬Known secret given k

section Secrets
variable {secret : Set ℕ}

theorem hidden_kdf {ps : List (Part Term Term Term)} (part : Part Term Term Term) (hmem : part ∈ ps) (h : Hidden secret part.term) :
    Hidden secret (symbolic.kdf ps) := by
  intro given hgiven hknown
  refine h given hgiven (known_kdf hknown ?_ part hmem)
  intro hin
  obtain ⟨key, nonce, plaintext, ad, heq⟩ := hgiven _ hin
  cases heq

theorem hidden_hereditary : Hereditary symbolic (Hidden secret) := fun _ k hmem h => hidden_kdf (.key k) hmem h

theorem Handshake.hidden_root {u : Setup symbols} (hu : Handshake u secret) : Hidden secret (u.root symbolic) := by
  obtain ⟨a, ha, hprekey⟩ := hu.prekey
  obtain ⟨b, hb, hencap⟩ := hu.encap
  refine hidden_kdf (.ss (.kemSs (.pub u.prekey) u.encap)) List.mem_cons_self ?_
  intro given hgiven hknown
  rw [Part.term, hprekey, hencap] at hknown
  rcases known_kemSs.mp hknown with hcoin | ⟨s, hs, hcoin⟩
  · exact hcoin hb
  · cases hs
    exact hcoin ha

theorem holdsOnly_start {u : Setup symbols} (hu : Handshake u secret) (p : Side) :
    HoldsOnly (Hidden secret) ((Session.start symbolic u).st p) := by
  have hroot := hu.hidden_root
  cases p with
  | alice => exact ⟨hroot, hidden_hereditary.labelled hroot _, hidden_hereditary.labelled hroot _, fun mk hmem => absurd hmem List.not_mem_nil⟩
  | bob =>
    have hbob : Hidden secret (u.bob symbolic).rootKey := by
      rw [u.bob_root symbolicKem_correct]
      exact hroot
    exact ⟨hbob, hidden_hereditary.labelled hbob _, hidden_hereditary.labelled hbob _, fun mk hmem => absurd hmem List.not_mem_nil⟩

end Secrets

/-! ## The invariant of an attack -/

/-- The keys that each side has used, with the plaintexts. -/
structure Ledger where
  sealed : Side → List (symbols.Key × Bytes)
  opened : Side → List (symbols.Key × Bytes)

def originsOf {C : Carriers} (P : Primitives C) (u : Setup C) (p : Side) : Origins C where
  root := ((Session.start P u).st p).rootKey
  mine := ((Session.start P u).st p).sendChainKey
  theirs := ((Session.start P u).st p).recvChainKey

theorem originsOf_apart {C : Carriers} (P : Primitives C) (u : Setup C) (p : Side) : (originsOf P u p).Apart P := by
  cases p with
  | alice => exact ⟨⟨_, _, _, rfl⟩, Or.inl ⟨rfl, rfl⟩⟩
  | bob => exact ⟨⟨_, _, _, rfl⟩, Or.inr ⟨rfl, rfl⟩⟩

def SealedUnder (x : symbols.Key × Bytes) (msg : Message symbols) : Prop := (msg.ciphertext, msg.tag) = symbolic.aes.encrypt x.1 msg.nonce x.2 []

def OpenedUnder (x : symbols.Key × Bytes) (r : Message symbols × Bytes) : Prop :=
  symbolic.aes.decrypt x.1 r.1.nonce r.1.ciphertext r.1.tag [] = some x.2 ∧ x.2 = r.2

def tags (s : Exposed symbols) : Set Term := {t | ∃ p, ∃ msg ∈ s.sent p, t = msg.tag}

/-- The ratchet key pair of a state was generated. -/
def Generated {C : Carriers} (P : Primitives C) (s : State C) : Prop := ∃ r, s.myRatchetKem = P.kem.keygen r

theorem Generated.encrypt {C : Carriers} {P : Primitives C} {s : State C} (h : Generated P s) (coins : Coins C) (plaintext : Bytes) :
    Generated P (encrypt P s coins plaintext).1 := by
  unfold Ratchet.encrypt
  split_ifs
  · exact ⟨coins.keygen, rfl⟩
  · exact h

/-- What a side holds: keys that are out of reach, its key pair, and a public key that everybody may have made. -/
structure Confined (secret : Set ℕ) (given : Set Term) (s : State symbols) : Prop where
  hidden : HoldsOnly (Hidden secret) s
  generated : Generated symbolic s
  peer : Known secret given s.peerRatchetPub

theorem encrypt_peerRatchetPub {C : Carriers} (P : Primitives C) (s : State C) (coins : Coins C) (plaintext : Bytes) :
    (encrypt P s coins plaintext).1.peerRatchetPub = s.peerRatchetPub := by
  unfold encrypt
  split_ifs <;> rfl

theorem Confined.encrypt {secret : Set ℕ} {given more : Set Term} {s : State symbols} (h : Confined secret given s) (hsub : given ⊆ more)
    (coins : Coins symbols) (plaintext : Bytes) : Confined secret more (encrypt symbolic s coins plaintext).1 where
  hidden := (h.hidden.encrypt hidden_hereditary coins plaintext).2
  generated := h.generated.encrypt coins plaintext
  peer := by
    rw [encrypt_peerRatchetPub]
    exact h.peer.mono hsub

structure Secure (secret : Set ℕ) (u : Setup symbols) (l : Ledger) (s : Exposed symbols) : Prop where
  walks : ∀ p, ∃ c, Walk symbolic (originsOf symbolic u p) c ((l.sealed p).map Prod.fst) ((l.opened p).map Prod.fst) (s.st p)
  confined : ∀ p, Confined secret (tags s) (s.st p)
  hidden_sealed : ∀ p, ∀ x ∈ l.sealed p, Hidden secret x.1
  sent : ∀ p, List.Forall₂ SealedUnder (l.sealed p) (s.sent p)
  accepted : ∀ p, List.Forall₂ OpenedUnder (l.opened p) (s.accepted p)
  genuine : ∀ p, ∀ x ∈ l.opened p, x ∈ l.sealed p.other
  known : ∀ t ∈ view secret u s, Known secret (tags s) t

section Invariant
variable {secret : Set ℕ} {u : Setup symbols} {l : Ledger} {s : Exposed symbols}

theorem SealedUnder.tag_eq {x : symbols.Key × Bytes} {msg : Message symbols} (h : SealedUnder x msg) : msg.tag = .mac x.1 msg.nonce x.2 [] :=
  congrArg Prod.snd h

theorem mem_of_sent {xs : List (symbols.Key × Bytes)} {msgs : List (Message symbols)} (h : List.Forall₂ SealedUnder xs msgs) {msg : Message symbols}
    (hmem : msg ∈ msgs) : ∃ x ∈ xs, SealedUnder x msg := by
  induction h with
  | nil => exact absurd hmem List.not_mem_nil
  | cons hhead _ ih =>
    rcases List.mem_cons.mp hmem with rfl | hrest
    · exact ⟨_, List.mem_cons_self, hhead⟩
    · obtain ⟨x, hx, hsealed⟩ := ih hrest
      exact ⟨x, List.mem_cons_of_mem _ hx, hsealed⟩

theorem plaintexts_eq {xs : List (symbols.Key × Bytes)} {rs : List (Message symbols × Bytes)} (h : List.Forall₂ OpenedUnder xs rs) :
    rs.map Prod.snd = xs.map Prod.snd := by
  induction h with
  | nil => rfl
  | cons hhead _ ih => rw [List.map_cons, List.map_cons, ih, hhead.2]

theorem Secure.onlyTags (h : Secure secret u l s) : OnlyTags (tags s) := by
  rintro t ⟨p, msg, hmem, rfl⟩
  obtain ⟨x, _, hsealed⟩ := mem_of_sent (h.sent p) hmem
  exact ⟨_, _, _, _, hsealed.tag_eq⟩

theorem PublicKeys.known (hu : PublicKeys u) (given : Set Term) : ∀ t ∈ handshakeTerms u, Known secret given t := by
  obtain ⟨ra, hra⟩ := hu.aliceKeyB
  obtain ⟨rb, hrb⟩ := hu.bobKeyB
  unfold handshakeTerms
  rw [hra, hrb]
  refine List.forall_mem_cons.mpr ⟨trivial, List.forall_mem_cons.mpr ⟨trivial, List.forall_mem_cons.mpr ⟨trivial, ?_⟩⟩⟩
  exact List.forall_mem_cons.mpr ⟨trivial, List.forall_mem_cons.mpr ⟨trivial, fun t hmem => absurd hmem List.not_mem_nil⟩⟩

theorem Secure.start (hu : Handshake u secret) : Secure secret u ⟨fun _ => [], fun _ => []⟩ (Exposed.start symbolic u) where
  walks p := by
    refine ⟨⟨fun _ => .nil, ∅, 0, 0, 0, 0, 0⟩, rfl, rfl, rfl, ?_, Or.inl rfl, le_rfl, Finset.notMem_empty 0, ?_, ?_, ?_⟩
    · exact fun j hmem => absurd hmem (Finset.notMem_empty j)
    · exact fun mk hmem => absurd hmem List.not_mem_nil
    · cases p <;> exact fun mk hmem => absurd hmem List.not_mem_nil
    · cases p <;> exact List.nodup_nil
  confined p := by
    refine ⟨holdsOnly_start hu p, ?_, ?_⟩
    · cases p with
      | alice => exact ⟨u.aliceKeygen, rfl⟩
      | bob => exact ⟨u.bobKeygen, rfl⟩
    · cases p with
      | alice => exact trivial
      | bob => exact trivial
  hidden_sealed _ x hmem := absurd hmem List.not_mem_nil
  sent _ := List.Forall₂.nil
  accepted _ := List.Forall₂.nil
  genuine _ x hmem := absurd hmem List.not_mem_nil
  known t hmem := by
    rcases hmem with ⟨n, hn, rfl⟩ | hmem | ⟨p, msg, hmsg, _⟩
    · exact hn
    · exact hu.toPublicKeys.known _ t hmem
    · exact absurd hmsg List.not_mem_nil

/-- A tag that the attacker can compute, under a key that it cannot, is one that a side made under that key. -/
theorem Secure.unforgeable (h : Secure secret u l s) {msg : Message symbols} (hmsg : ∀ t ∈ msg.terms, Derives (view secret u s) t) {mk : Term}
    (hmk : Hidden secret mk) {plaintext : Bytes} (hdec : symbolic.aes.decrypt mk msg.nonce msg.ciphertext msg.tag [] = some plaintext) :
    ∃ q, (mk, plaintext) ∈ l.sealed q := by
  obtain ⟨htag, hplain⟩ : msg.tag = .mac mk msg.nonce msg.ciphertext [] ∧ msg.ciphertext = plaintext := by
    simp only [symbolic, symbolicAes] at hdec
    split at hdec
    · next heq => exact ⟨heq, Option.some.inj hdec⟩
    · cases hdec
  have hknown : Known secret (tags s) msg.tag := (hmsg msg.tag (List.mem_cons_of_mem _ (List.mem_cons_of_mem _ List.mem_cons_self))).known h.known
  rw [htag] at hknown
  obtain ⟨q, msg', hmem, htag'⟩ := known_tag hknown (hmk _ h.onlyTags)
  obtain ⟨x, hx, hsealed⟩ := mem_of_sent (h.sent q) hmem
  rw [hsealed.tag_eq] at htag'
  obtain ⟨hkey, _, hbytes, _⟩ := Term.mac.inj htag'
  refine ⟨q, ?_⟩
  rw [show (mk, plaintext) = x from Prod.ext hkey (hplain.symm.trans hbytes)]
  exact hx

/-! ### Steps -/

def Ledger.seal (l : Ledger) (p : Side) (x : symbols.Key × Bytes) : Ledger := { l with sealed := Function.update l.sealed p (l.sealed p ++ [x]) }

def Ledger.unseal (l : Ledger) (p : Side) (x : symbols.Key × Bytes) : Ledger := { l with opened := Function.update l.opened p (l.opened p ++ [x]) }

section Ledgers
variable (l) (p : Side) (x : symbols.Key × Bytes)

@[simp] theorem Ledger.seal_sealed_self : (l.seal p x).sealed p = l.sealed p ++ [x] := Function.update_self p _ _

@[simp] theorem Ledger.seal_sealed_other : (l.seal p x).sealed p.other = l.sealed p.other := Function.update_of_ne p.other_ne _ _

@[simp] theorem Ledger.seal_opened : (l.seal p x).opened = l.opened := rfl

@[simp] theorem Ledger.unseal_opened_self : (l.unseal p x).opened p = l.opened p ++ [x] := Function.update_self p _ _

@[simp] theorem Ledger.unseal_opened_other : (l.unseal p x).opened p.other = l.opened p.other := Function.update_of_ne p.other_ne _ _

@[simp] theorem Ledger.unseal_sealed : (l.unseal p x).sealed = l.sealed := rfl

theorem Ledger.subset_seal (q : Side) : l.sealed q ⊆ (l.seal p x).sealed q := by
  rcases p.eq_or_other q with rfl | rfl
  · rw [Ledger.seal_sealed_self]
    exact List.subset_append_left _ _
  · rw [Ledger.seal_sealed_other]
    exact List.Subset.refl _

end Ledgers

section Sends
variable (s) (p : Side) (coins : Coins symbols) (plaintext : Bytes)

theorem next_send_st_self : (s.next symbolic (.send p coins plaintext)).st p = (encrypt symbolic (s.st p) coins plaintext).1 :=
  Function.update_self p _ _

theorem next_send_st_other : (s.next symbolic (.send p coins plaintext)).st p.other = s.st p.other := Function.update_of_ne p.other_ne _ _

theorem next_send_sent_self : (s.next symbolic (.send p coins plaintext)).sent p = s.sent p ++ [(encrypt symbolic (s.st p) coins plaintext).2] :=
  Function.update_self p _ _

theorem next_send_sent_other : (s.next symbolic (.send p coins plaintext)).sent p.other = s.sent p.other := Function.update_of_ne p.other_ne _ _

end Sends

theorem encrypt_nonce {C : Carriers} (P : Primitives C) (st : State C) (coins : Coins C) (plaintext : Bytes) :
    (encrypt P st coins plaintext).2.nonce = coins.nonce := by
  unfold encrypt
  split_ifs <;> rfl

/-- What `encrypt` puts on the wire are a public key, a ciphertext, the nonce and the tag. -/
theorem encrypt_terms {st : State symbols} (hst : Generated symbolic st) (coins : Coins symbols) (plaintext : Bytes) {given : Set Term}
    (hnonce : Known secret given coins.nonce) (htag : (encrypt symbolic st coins plaintext).2.tag ∈ given) :
    ∀ t ∈ (encrypt symbolic st coins plaintext).2.terms, Known secret given t := by
  have hpub : Known secret given (encrypt symbolic st coins plaintext).2.header.senderRatchetPub := by
    obtain ⟨r, hr⟩ := hst
    unfold encrypt
    split_ifs
    · exact trivial
    · change Known secret given st.myRatchetKem.pub
      rw [hr]
      exact trivial
  have hkem : ∀ t ∈ (encrypt symbolic st coins plaintext).2.header.kemCt.toList, Known secret given t := by
    unfold encrypt
    split_ifs
    · intro t hmem
      rw [List.mem_singleton.mp hmem]
      exact trivial
    · exact fun t hmem => absurd hmem List.not_mem_nil
  refine List.forall_mem_cons.mpr ⟨hpub, List.forall_mem_cons.mpr ⟨?_, List.forall_mem_cons.mpr ⟨?_, hkem⟩⟩⟩
  · rw [encrypt_nonce]
    exact hnonce
  · have heq : (encrypt symbolic st coins plaintext).2.tag = .mac _ _ _ _ := congrArg Prod.snd (encrypt_sealed symbolic st coins plaintext)
    rw [heq] at htag ⊢
    exact Or.inl htag

theorem tags_subset_send (s : Exposed symbols) (p : Side) (coins : Coins symbols) (plaintext : Bytes) :
    tags s ⊆ tags (s.next symbolic (.send p coins plaintext)) := by
  rintro t ⟨q, msg, hmem, rfl⟩
  refine ⟨q, msg, ?_, rfl⟩
  rcases p.eq_or_other q with rfl | rfl
  · rw [next_send_sent_self]
    exact List.mem_append_left _ hmem
  · rw [next_send_sent_other]
    exact hmem

theorem Secure.known_send (h : Secure secret u l s) (p : Side) {coins : Coins symbols} (plaintext : Bytes)
    (hnonce : Derives (view secret u s) coins.nonce) :
    ∀ t ∈ view secret u (s.next symbolic (.send p coins plaintext)), Known secret (tags (s.next symbolic (.send p coins plaintext))) t := by
  have hsub := tags_subset_send s p coins plaintext
  rintro t (hcoin | hterm | ⟨q, msg, hmem, ht⟩)
  · exact (h.known t (Or.inl hcoin)).mono hsub
  · exact (h.known t (Or.inr (Or.inl hterm))).mono hsub
  · rcases p.eq_or_other q with rfl | rfl
    · rw [next_send_sent_self] at hmem
      rcases List.mem_append.mp hmem with hold | hnew
      · exact (h.known t (Or.inr (Or.inr ⟨q, msg, hold, ht⟩))).mono hsub
      · rw [List.mem_singleton.mp hnew] at ht
        refine encrypt_terms (h.confined q).generated coins plaintext ((hnonce.known h.known).mono hsub) ⟨q, _, ?_, rfl⟩ t ht
        rw [next_send_sent_self]
        exact List.mem_append_right _ List.mem_cons_self
    · rw [next_send_sent_other] at hmem
      exact (h.known t (Or.inr (Or.inr ⟨p.other, msg, hmem, ht⟩))).mono hsub

/-- An encryption enters its key in the ledger. -/
theorem Secure.send (h : Secure secret u l s) (p : Side) {coins : Coins symbols} (plaintext : Bytes)
    (hnonce : Derives (view secret u s) coins.nonce) :
    Secure secret u (l.seal p (encryptKey symbolic (s.st p) coins, plaintext)) (s.next symbolic (.send p coins plaintext)) where
  walks q := by
    rcases p.eq_or_other q with rfl | rfl
    · obtain ⟨c, hc⟩ := h.walks q
      rw [next_send_st_self, Ledger.seal_sealed_self, Ledger.seal_opened, List.map_append]
      exact hc.encrypt coins plaintext
    · rw [next_send_st_other, Ledger.seal_sealed_other, Ledger.seal_opened]
      exact h.walks p.other
  confined q := by
    have hsub := tags_subset_send s p coins plaintext
    rcases p.eq_or_other q with rfl | rfl
    · rw [next_send_st_self]
      exact (h.confined q).encrypt hsub coins plaintext
    · rw [next_send_st_other]
      exact ⟨(h.confined p.other).hidden, (h.confined p.other).generated, (h.confined p.other).peer.mono hsub⟩
  hidden_sealed q x hmem := by
    rcases p.eq_or_other q with rfl | rfl
    · rw [Ledger.seal_sealed_self] at hmem
      rcases List.mem_append.mp hmem with hold | hnew
      · exact h.hidden_sealed q x hold
      · rw [List.mem_singleton.mp hnew]
        exact ((h.confined q).hidden.encrypt hidden_hereditary coins plaintext).1
    · rw [Ledger.seal_sealed_other] at hmem
      exact h.hidden_sealed p.other x hmem
  sent q := by
    rcases p.eq_or_other q with rfl | rfl
    · rw [next_send_sent_self, Ledger.seal_sealed_self]
      refine List.rel_append (h.sent q) (List.Forall₂.cons ?_ List.Forall₂.nil)
      unfold SealedUnder
      rw [encrypt_sealed, encrypt_nonce]
    · rw [next_send_sent_other, Ledger.seal_sealed_other]
      exact h.sent p.other
  accepted := h.accepted
  genuine q x hmem := l.subset_seal p _ q.other (h.genuine q x hmem)
  known := h.known_send p plaintext hnonce

/-- A call that fails may move the chains of its side, and does nothing else. -/
theorem Secure.moved (h : Secure secret u l s) {p : Side} {st : State symbols}
    (hwalk : ∃ c, Walk symbolic (originsOf symbolic u p) c ((l.sealed p).map Prod.fst) ((l.opened p).map Prod.fst) st)
    (hconfined : Confined secret (tags s) st) : Secure secret u l { s with st := Function.update s.st p st } where
  walks q := by
    rcases p.eq_or_other q with rfl | rfl
    · simp only [Function.update_self]
      exact hwalk
    · simp only [Function.update_of_ne p.other_ne]
      exact h.walks p.other
  confined q := by
    rcases p.eq_or_other q with rfl | rfl
    · simp only [Function.update_self]
      exact hconfined
    · simp only [Function.update_of_ne p.other_ne]
      exact h.confined p.other
  hidden_sealed := h.hidden_sealed
  sent := h.sent
  accepted := h.accepted
  genuine := h.genuine
  known := h.known

/-- A key is tried, and opens the message. -/
theorem Secure.unseal (h : Secure secret u l s) {p : Side} {msg : Message symbols} (hmsg : ∀ t ∈ msg.terms, Derives (view secret u s) t)
    {mk : symbols.Key} {plaintext : Bytes} {st : State symbols}
    (hwalk : ∃ c, Walk symbolic (originsOf symbolic u p) c ((l.sealed p).map Prod.fst) ((l.opened p).map Prod.fst ++ [mk]) st)
    (hkey : Hidden secret mk) (hconfined : Confined secret (tags s) st)
    (hdec : symbolic.aes.decrypt mk msg.nonce msg.ciphertext msg.tag [] = some plaintext) :
    Secure secret u (l.unseal p (mk, plaintext))
      { s with st := Function.update s.st p st, accepted := Function.update s.accepted p (s.accepted p ++ [(msg, plaintext)]) } where
  walks q := by
    rcases p.eq_or_other q with rfl | rfl
    · simp only [Function.update_self]
      rw [Ledger.unseal_opened_self, Ledger.unseal_sealed, List.map_append]
      exact hwalk
    · simp only [Function.update_of_ne p.other_ne]
      rw [Ledger.unseal_opened_other, Ledger.unseal_sealed]
      exact h.walks p.other
  confined := (h.moved (hwalk.imp fun _ hc => hc.forget) hconfined).confined
  hidden_sealed := h.hidden_sealed
  sent := h.sent
  accepted q := by
    rcases p.eq_or_other q with rfl | rfl
    · simp only [Function.update_self]
      rw [Ledger.unseal_opened_self]
      exact List.rel_append (h.accepted q) (List.Forall₂.cons ⟨hdec, rfl⟩ List.Forall₂.nil)
    · simp only [Function.update_of_ne p.other_ne]
      rw [Ledger.unseal_opened_other]
      exact h.accepted p.other
  genuine q x hmem := by
    rcases p.eq_or_other q with rfl | rfl
    · rw [Ledger.unseal_opened_self] at hmem
      rcases List.mem_append.mp hmem with hold | hnew
      · exact h.genuine q x hold
      · rw [List.mem_singleton.mp hnew]
        obtain ⟨q', hsealed⟩ := h.unforgeable hmsg hkey hdec
        rcases q.eq_or_other q' with rfl | rfl
        · -- its own message, sent back to it: the key would be one of both directions
          obtain ⟨c, hc⟩ := hwalk
          refine (hc.apart (keysApart_of_ideal symbolic_ideal) (originsOf_apart symbolic u q') (List.mem_map_of_mem hsealed) ?_).elim
          exact List.mem_append_left _ (List.mem_append_right _ List.mem_cons_self)
        · exact hsealed
    · rw [Ledger.unseal_opened_other] at hmem
      exact h.genuine p.other x hmem
  known := h.known

theorem Secure.inject (h : Secure secret u l s) (p : Side) {msg : Message symbols} (hmsg : ∀ t ∈ msg.terms, Derives (view secret u s) t) :
    ∃ l', Secure secret u l' (s.next symbolic (.inject p msg)) ∧ l'.sealed = l.sealed := by
  have hk := keysApart_of_ideal symbolic_ideal
  have ho := originsOf_apart symbolic u p
  have hold := h.confined p
  obtain ⟨c, hc⟩ := h.walks p
  have hgen : Generated symbolic (endState ((decrypt symbolic msg).run (s.st p))) := by
    unfold Generated
    rw [decrypt_myRatchetKem]
    exact hold.generated
  have hpeer : Known secret (tags s) (endState ((decrypt symbolic msg).run (s.st p))).peerRatchetPub := by
    rcases decrypt_peerRatchetPub (P := symbolic) msg (s.st p) with hkept | hheader
    · rw [hkept]
      exact hold.peer
    · rw [hheader]
      exact (hmsg _ List.mem_cons_self).known h.known
  cases decrypt_path symbolic msg (s.st p) with
  | stops s₁ e hp hr =>
    rw [hr] at hgen hpeer
    rw [next_inject_error hr]
    exact ⟨l, h.moved (hc.prepares hk ho hp) ⟨hold.hidden.prepares hidden_hereditary hp, hgen, hpeer⟩, rfl⟩
  | tries s₁ s₂ mk hp ht hr =>
    obtain ⟨c₁, hc₁⟩ := hc.prepares hk ho hp
    have hwalk := hc₁.takes hk ho ht
    obtain ⟨hkey, hhidden⟩ := (hold.hidden.prepares hidden_hereditary hp).takes hidden_hereditary ht
    rw [hr, endState_aesOpen] at hgen hpeer
    rw [aesOpen_run] at hr
    cases hdec : symbolic.aes.decrypt mk msg.nonce msg.ciphertext msg.tag [] with
    | none =>
      rw [hdec] at hr
      rw [next_inject_error hr]
      exact ⟨l, h.moved (hwalk.imp fun _ hc' => hc'.forget) ⟨hhidden, hgen, hpeer⟩, rfl⟩
    | some plaintext =>
      rw [hdec] at hr
      rw [next_inject_ok hr]
      exact ⟨l.unseal p (mk, plaintext), h.unseal hmsg hwalk hkey ⟨hhidden, hgen, hpeer⟩ hdec, rfl⟩

/-- What a run adds to the ledger are the plaintexts of its encryptions. -/
theorem Secure.run (h : Secure secret u l s) {events : List (Intrusion symbols)}
    (hrun : Along (Exposed.next symbolic) (Feasible secret u) s events) :
    ∃ l', Secure secret u l' (events.foldl (Exposed.next symbolic) s) ∧
      ∀ p, (l'.sealed p).map Prod.snd = (l.sealed p).map Prod.snd ++ encryptedBy p events := by
  induction events generalizing s l with
  | nil => exact ⟨l, h, fun p => (List.append_nil _).symm⟩
  | cons e events ih =>
    obtain ⟨hfeasible, hrest⟩ := hrun
    cases e with
    | send q coins plaintext =>
      obtain ⟨l', hl', hlog⟩ := ih (h.send q plaintext hfeasible) hrest
      refine ⟨l', hl', ?_⟩
      intro p
      rw [hlog p, encryptedBy]
      rcases q.eq_or_other p with rfl | rfl
      · rw [Ledger.seal_sealed_self, if_pos rfl, List.map_append, List.append_assoc]
        rfl
      · rw [Ledger.seal_sealed_other, if_neg q.ne_other]
    | inject q msg =>
      obtain ⟨l₁, hl₁, hsealed⟩ := h.inject q hfeasible
      obtain ⟨l', hl', hlog⟩ := ih hl₁ hrest
      refine ⟨l', hl', ?_⟩
      intro p
      rw [hlog p, hsealed, encryptedBy]

end Invariant

/-! ## What is accepted -/

/-- What a side accepts is, with multiplicities, part of what its peer encrypted, whatever the attacker does. -/
theorem accepted_subperm_encrypted {secret : Set ℕ} {u : Setup symbols} (hu : Handshake u secret) {events : List (Intrusion symbols)}
    (h : Attack secret u events) (p : Side) :
    (((Exposed.run symbolic u events).accepted p).map Prod.snd).Subperm (encryptedBy p.other events) := by
  obtain ⟨l, hl, hlog⟩ := (Secure.start hu).run h
  obtain ⟨c, hc⟩ := hl.walks p
  have haccepted : ((Exposed.run symbolic u events).accepted p).map Prod.snd = (l.opened p).map Prod.snd := plaintexts_eq (hl.accepted p)
  have hnodup : (l.opened p).Nodup := List.Nodup.of_map _ (List.nodup_append.mp hc.nodup).1
  have hsub : (l.opened p).Subperm (l.sealed p.other) := List.subperm_of_subset hnodup (fun x hmem => hl.genuine p x hmem)
  have hsealed : (l.sealed p.other).map Prod.snd = encryptedBy p.other events := hlog p.other
  obtain ⟨part, hperm, hpart⟩ := hsub
  rw [haccepted, ← hsealed]
  exact ⟨part.map Prod.snd, hperm.map _, hpart.map _⟩

/-- The small session, with public keys that were generated. -/
def published : Setup symbols := { demo with aliceKeyB := .pub (.coin 0), bobKeyB := .pub (.coin 1) }

theorem handshake_published : Handshake published {2, 3} :=
  ⟨⟨⟨.coin 0, rfl⟩, ⟨.coin 1, rfl⟩⟩, ⟨2, by simp, rfl⟩, ⟨3, by simp, rfl⟩⟩

def firstReply : Message symbols := (encrypt symbolic (published.bob symbolic) (demoCoins 0) [1]).2

/-- Bob writes; the attacker delivers the message twice, and sends it back to Bob. -/
def mirrored : List (Intrusion symbols) :=
  [.send .bob (demoCoins 0) [1], .inject .alice firstReply, .inject .alice firstReply, .inject .bob firstReply]

theorem attack_mirrored : Attack {2, 3} published mirrored := by
  have hreply : ∀ s : Exposed symbols, s.sent .bob = [firstReply] → ∀ t ∈ firstReply.terms, Derives (view {2, 3} published s) t := by
    intro s hsent t ht
    refine .given (Or.inr (Or.inr ⟨.bob, firstReply, ?_, ht⟩))
    rw [hsent]
    exact List.mem_cons_self
  refine ⟨.given (Or.inl ⟨8, by simp, rfl⟩), hreply _ rfl, hreply _ ?_, hreply _ ?_, trivial⟩
  · rw [next_inject_sent]
    rfl
  · rw [next_inject_sent, next_inject_sent]
    rfl

theorem accepted_subperm_encrypted_mirrored :
    ((Exposed.run symbolic published mirrored).accepted .alice).map Prod.snd = [[1]] ∧
      (((Exposed.run symbolic published mirrored).accepted .bob).map Prod.snd).Subperm [] :=
  ⟨by decide +kernel, accepted_subperm_encrypted handshake_published attack_mirrored .bob⟩

end ScatterWeb.Ratchet
