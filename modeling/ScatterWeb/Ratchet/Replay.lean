import ScatterWeb.Ratchet.KeyReuse

/-! # At most once, under attack

The network is the attacker's: it calls `decrypt` of either side with any message, as often as it likes. A failed call may leave the state advanced, a
forged header may start a chain that nobody sends on. Still a side never tries a key twice: keys come off the
receiving chain in an order that is not gone back on, a KEM step leads to a root key that was not there before, and a key that was set aside leaves
the cache when it is tried. Since AES-GCM opens a ciphertext under one key only, it is opened at most once. -/
namespace ScatterWeb.Ratchet
open Crypto Lib Relation
set_option autoImplicit false
variable {C : Carriers} {P : Primitives C}

/-! ## Places on the receiving side -/

/-- The chain that a side receives on after `j` KEM steps of its own or of its peer; `first` is the one it starts with. -/
def RecvHead (P : Primitives C) (root0 first : C.Key) : ℕ → C.Key → Prop
  | 0, ck => ck = first
  | j + 1, ck => ∃ secret, ck = sendChain P (rootAt P root0 secret (j + 1))

/-- What a side starts with. -/
structure Origin (P : Primitives C) (root0 first : C.Key) : Prop where
  root : IsInit P root0
  chain : first = sendChain P root0 ∨ first = recvChain P root0

section Places
variable {root0 first : C.Key} (ho : Origin P root0 first)
include ho

theorem RecvHead.chainHead {j : ℕ} {ck : C.Key} (h : RecvHead P root0 first j ck) : ChainHead P ck := by
  cases j with
  | zero =>
    rw [show ck = first from h]
    exact ⟨root0, ho.chain⟩
  | succ j =>
    obtain ⟨secret, rfl⟩ := h
    exact ⟨_, Or.inl rfl⟩

theorem RecvHead.unique (hk : KeysApart P) {j j' : ℕ} {ck : C.Key} (h : RecvHead P root0 first j ck) (h' : RecvHead P root0 first j' ck) : j = j' := by
  -- the first chain hangs on root 0, or has another label
  have hfirst : ∀ {i : ℕ} {secret : ℕ → C.SS}, first ≠ sendChain P (rootAt P root0 secret (i + 1)) := by
    intro i secret heq
    rcases ho.chain with hsend | hrecv
    · rw [hsend] at heq
      have hindex : 0 = i + 1 :=
        rootAt_inj hk ho.root (show rootAt P root0 secret 0 = rootAt P root0 secret (i + 1) from sendChain_inj hk heq)
      omega
    · rw [hrecv] at heq
      exact sendChain_ne_recvChain hk _ _ heq.symm
  cases j with
  | zero =>
    cases j' with
    | zero => rfl
    | succ j' =>
      obtain ⟨secret, heq⟩ := h'
      rw [show ck = first from h] at heq
      exact absurd heq hfirst
  | succ j =>
    obtain ⟨secret, rfl⟩ := h
    cases j' with
    | zero => exact absurd (show sendChain P _ = first from h').symm hfirst
    | succ j' =>
      obtain ⟨secret', heq⟩ := h'
      exact rootAt_inj hk ho.root (sendChain_inj hk heq)

/-- Key `n` of the chain after `j` steps. -/
def RecvPlace (P : Primitives C) (root0 first : C.Key) (j n : ℕ) (mk : C.Key) : Prop :=
  ∃ ck, RecvHead P root0 first j ck ∧ mk = messageKey P (chainAt P ck n)

theorem RecvPlace.unique (hk : KeysApart P) {j j' n n' : ℕ} {mk : C.Key} (h : RecvPlace P root0 first j n mk)
    (h' : RecvPlace P root0 first j' n' mk) : j = j' ∧ n = n' := by
  obtain ⟨ck, hck, rfl⟩ := h
  obtain ⟨ck', hck', heq⟩ := h'
  obtain ⟨rfl, hn⟩ := (chainAt_inj hk (hck.chainHead ho) (hck'.chainHead ho)).mp (messageKey_inj hk heq)
  exact ⟨hck.unique ho hk hck', hn⟩

end Places

/-! ## Keys that were tried, and keys that are kept -/

def cachedKeys (s : State C) : List C.Key := s.skippedKeys.entries.map (fun slot => slot.2)

/-- The place `(j', n')` is before `(j, n)`. -/
def Earlier (j n j' n' : ℕ) : Prop := j' < j ∨ (j' = j ∧ n' < n)

/-- The side has made `k` KEM steps and stands before key `n` of the chain after the `j`-th; `tried` and the cache have no key in common and
none twice, and hold only keys of earlier places. -/
structure At (P : Primitives C) (root0 first : C.Key) (tried : List C.Key) (k j n : ℕ) (s : State C) : Prop where
  root : ∃ secret, s.rootKey = rootAt P root0 secret k
  le : j ≤ k
  chain : ∃ ck, RecvHead P root0 first j ck ∧ s.recvChainKey = chainAt P ck n
  nodup : (tried ++ cachedKeys s).Nodup
  earlier : ∀ mk ∈ tried ++ cachedKeys s, ∃ j' n', RecvPlace P root0 first j' n' mk ∧ Earlier j n j' n'

def Guarded (P : Primitives C) (root0 first : C.Key) (tried : List C.Key) (s : State C) : Prop := ∃ k j n, At P root0 first tried k j n s

theorem cachedKeys_skipOne (epoch : UInt32) (s : State C) :
    ∃ rest, rest.Sublist (cachedKeys s) ∧ cachedKeys (skipOne P epoch s) = messageKey P s.recvChainKey :: rest := by
  refine ⟨(List.kerase (skipKey epoch s.recvMsgNum) s.skippedKeys.entries).map (fun slot => slot.2), (List.kerase_sublist _ _).map _, ?_⟩
  have hentries : (skipOne P epoch s).skippedKeys.entries = ⟨skipKey epoch s.recvMsgNum, messageKey P s.recvChainKey⟩ ::
      List.kerase (skipKey epoch s.recvMsgNum) s.skippedKeys.entries := AList.entries_insert
  rw [cachedKeys, hentries, List.map_cons]

section Moving
variable {root0 first : C.Key} {tried : List C.Key} {k j n : ℕ} {s : State C}

/-- The next key of the chain has not been seen. -/
theorem At.next_fresh (hk : KeysApart P) (ho : Origin P root0 first) (h : At P root0 first tried k j n s) :
    messageKey P s.recvChainKey ∉ tried ++ cachedKeys s := by
  intro hmem
  obtain ⟨j', n', hplace, hearlier⟩ := h.earlier _ hmem
  obtain ⟨ck, hck, hchain⟩ := h.chain
  obtain ⟨rfl, rfl⟩ := hplace.unique ho hk ⟨ck, hck, congrArg (messageKey P) hchain⟩
  rcases hearlier with hlt | ⟨_, hlt⟩
  · exact lt_irrefl _ hlt
  · exact lt_irrefl _ hlt

theorem At.next_place (h : At P root0 first tried k j n s) : RecvPlace P root0 first j n (messageKey P s.recvChainKey) := by
  obtain ⟨ck, hck, hchain⟩ := h.chain
  exact ⟨ck, hck, congrArg (messageKey P) hchain⟩

theorem Earlier.mono {j₁ n₁ j₂ n₂ j' n' : ℕ} (h : Earlier j₁ n₁ j' n') (hle : j₁ < j₂ ∨ (j₁ = j₂ ∧ n₁ ≤ n₂)) : Earlier j₂ n₂ j' n' := by
  unfold Earlier at h ⊢
  omega

/-- One key is moved from the chain to the list of tried keys or to the cache, in front of a part of what was there. -/
theorem At.advance (hk : KeysApart P) (ho : Origin P root0 first) (h : At P root0 first tried k j n s) {tried' : List C.Key} {s' : State C}
    (hroot : s'.rootKey = s.rootKey) (hchain : s'.recvChainKey = nextChainKey P s.recvChainKey)
    {rest : List C.Key} (hrest : rest.Sublist (tried ++ cachedKeys s))
    (hperm : (tried' ++ cachedKeys s').Perm (messageKey P s.recvChainKey :: rest)) : At P root0 first tried' k j (n + 1) s' := by
  have hfresh := h.next_fresh hk ho
  obtain ⟨secret, hsecret⟩ := h.root
  obtain ⟨ck, hck, hat⟩ := h.chain
  refine ⟨⟨secret, hroot.trans hsecret⟩, h.le, ⟨ck, hck, ?_⟩, ?_, ?_⟩
  · rw [hchain, hat]
    rfl
  · refine hperm.nodup_iff.mpr (List.nodup_cons.mpr ⟨?_, h.nodup.sublist hrest⟩)
    intro hmem
    exact hfresh (hrest.subset hmem)
  · intro mk hmem
    rcases List.mem_cons.mp (hperm.subset hmem) with rfl | hold
    · exact ⟨j, n, h.next_place, Or.inr ⟨rfl, Nat.lt_succ_self n⟩⟩
    · obtain ⟨j', n', hplace, hearlier⟩ := h.earlier mk (hrest.subset hold)
      exact ⟨j', n', hplace, hearlier.mono (Or.inr ⟨rfl, Nat.le_succ n⟩)⟩

theorem At.skipOne (hk : KeysApart P) (ho : Origin P root0 first) (h : At P root0 first tried k j n s) (epoch : UInt32) :
    At P root0 first tried k j (n + 1) (skipOne P epoch s) := by
  obtain ⟨rest, hrest, hcached⟩ := cachedKeys_skipOne (P := P) epoch s
  refine h.advance hk ho rfl rfl (hrest.append_left tried) ?_
  rw [hcached]
  exact List.perm_middle

theorem At.takeKey (hk : KeysApart P) (ho : Origin P root0 first) (h : At P root0 first tried k j n s) :
    At P root0 first (tried ++ [messageKey P s.recvChainKey]) k j (n + 1) (takeKey P s) := by
  refine h.advance hk ho rfl rfl (List.Sublist.refl _) ?_
  rw [List.append_assoc]
  exact List.perm_middle

/-- A new root key, and the chain that hangs on it, are past everything so far. -/
theorem At.kemStepRecv (h : At P root0 first tried k j n s) (ct : C.Ct) (pub : C.Pub) (epoch : UInt32) :
    At P root0 first tried (k + 1) (k + 1) 0 (kemStepRecv P ct pub epoch s) := by
  obtain ⟨secret, hsecret⟩ := h.root
  have hroot : (Ratchet.kemStepRecv P ct pub epoch s).rootKey =
      rootAt P root0 (Function.update secret k (P.kem.decapsulate s.myRatchetKem.priv ct)) (k + 1) := by
    rw [rootAt, rootAt_update P root0 secret le_rfl, Function.update_self, ← hsecret]
    rfl
  refine ⟨⟨_, hroot⟩, le_rfl, ⟨_, ⟨_, congrArg (sendChain P) hroot⟩, rfl⟩, h.nodup, ?_⟩
  intro mk hmem
  obtain ⟨j', n', hplace, hearlier⟩ := h.earlier mk hmem
  have hle := h.le
  exact ⟨j', n', hplace, hearlier.mono (Or.inl (by omega))⟩

theorem At.kemStepSend (h : At P root0 first tried k j n s) (coins : Coins C) : At P root0 first tried (k + 1) j n (kemStepSend P s coins).1 := by
  obtain ⟨secret, hsecret⟩ := h.root
  have hroot : (Ratchet.kemStepSend P s coins).1.rootKey =
      rootAt P root0 (Function.update secret k (P.kem.encapsulate s.peerRatchetPub coins.encap).2) (k + 1) := by
    rw [rootAt, rootAt_update P root0 secret le_rfl, Function.update_self, ← hsecret]
    rfl
  exact ⟨⟨_, hroot⟩, Nat.le_succ_of_le h.le, h.chain, h.nodup, h.earlier⟩

/-- Erasing a slot takes its key out of the cache, and no other. -/
theorem cachedKeys_erase {slot : UInt64} {mk : C.Key} (hc : s.skippedKeys.lookup slot = some mk) :
    (cachedKeys s).Perm (mk :: cachedKeys { s with skippedKeys := s.skippedKeys.erase slot }) := by
  have hmem : slot ∈ s.skippedKeys := by
    rw [← AList.lookup_isSome, hc]
    rfl
  obtain ⟨mk', before, after, _, hentries, herased⟩ := List.exists_of_kerase hmem
  have hkey : mk' = mk := by
    have hin : (⟨slot, mk'⟩ : Sigma (fun _ : UInt64 => C.Key)) ∈ s.skippedKeys.entries := by
      rw [hentries]
      simp
    have hlookup := AList.mem_lookup_iff.mpr hin
    rw [hc] at hlookup
    exact (Option.some.inj hlookup).symm
  have hrest : (s.skippedKeys.erase slot).entries = before ++ after := herased
  unfold cachedKeys
  rw [hentries, hrest, hkey, List.map_append, List.map_append, List.map_cons]
  exact List.perm_middle

theorem At.useSlot (h : At P root0 first tried k j n s) {slot : UInt64} {mk : C.Key} (hc : s.skippedKeys.lookup slot = some mk) :
    At P root0 first (tried ++ [mk]) k j n { s with skippedKeys := s.skippedKeys.erase slot } := by
  have hperm : (tried ++ [mk] ++ cachedKeys { s with skippedKeys := s.skippedKeys.erase slot }).Perm (tried ++ cachedKeys s) := by
    rw [List.append_assoc]
    exact (cachedKeys_erase hc).symm.append_left tried
  refine ⟨h.root, h.le, h.chain, hperm.nodup_iff.mpr h.nodup, ?_⟩
  intro key hmem
  exact h.earlier key (hperm.subset hmem)

/-- A key that was tried for nothing may be left out. -/
theorem At.forget {mk : C.Key} (h : At P root0 first (tried ++ [mk]) k j n s) : At P root0 first tried k j n s := by
  have hsub : (tried ++ cachedKeys s).Sublist (tried ++ [mk] ++ cachedKeys s) := (List.sublist_append_left tried [mk]).append_right _
  refine ⟨h.root, h.le, h.chain, h.nodup.sublist hsub, ?_⟩
  intro key hmem
  exact h.earlier key (hsub.subset hmem)

end Moving

/-! ## Calls -/

section Calls
variable {root0 first : C.Key} {tried : List C.Key} {s s' : State C} (hk : KeysApart P) (ho : Origin P root0 first)
include hk ho

theorem Guarded.prepares (h : Guarded P root0 first tried s) (hp : ReflTransGen (Prepares P) s s') : Guarded P root0 first tried s' := by
  induction hp with
  | refl => exact h
  | tail _ hstep ih =>
    obtain ⟨k, j, n, hat⟩ := ih
    cases hstep with
    | skip epoch => exact ⟨k, j, n + 1, hat.skipOne hk ho epoch⟩
    | kemStep ct pub epoch => exact ⟨k + 1, k + 1, 0, hat.kemStepRecv ct pub epoch⟩

theorem Guarded.takes (h : Guarded P root0 first tried s) {mk : C.Key} (ht : Takes P s mk s') : Guarded P root0 first (tried ++ [mk]) s' := by
  obtain ⟨k, j, n, hat⟩ := h
  cases ht with
  | chain => exact ⟨k, j, n + 1, hat.takeKey hk ho⟩
  | cache slot _ _ hcached => exact ⟨k, j, n, hat.useSlot hcached⟩

omit hk ho in
theorem Guarded.encrypt (h : Guarded P root0 first tried s) (coins : Coins C) (plaintext : Bytes) :
    Guarded P root0 first tried (Ratchet.encrypt P s coins plaintext).1 := by
  obtain ⟨k, j, n, hat⟩ := h
  unfold Ratchet.encrypt
  split_ifs
  · have hstep := hat.kemStepSend coins
    exact ⟨k + 1, j, n, hstep.root, hstep.le, hstep.chain, hstep.nodup, hstep.earlier⟩
  · exact ⟨k, j, n, hat.root, hat.le, hat.chain, hat.nodup, hat.earlier⟩

/-- A call that returns has tried a new key, and one that throws keeps what is known of the old ones. -/
theorem Guarded.decrypt (h : Guarded P root0 first tried s) (msg : Message C) :
    (∃ mk plaintext s', (Ratchet.decrypt P msg).run s = .ok plaintext s' ∧
        P.aes.decrypt mk msg.nonce msg.ciphertext msg.tag [] = some plaintext ∧ Guarded P root0 first (tried ++ [mk]) s') ∨
      (∃ e s', (Ratchet.decrypt P msg).run s = .error e s' ∧ Guarded P root0 first tried s') := by
  cases decrypt_path P msg s with
  | stops s₁ e hp hr => exact Or.inr ⟨e, s₁, hr, h.prepares hk ho hp⟩
  | tries s₁ s₂ mk hp ht hr =>
    have hguard := (h.prepares hk ho hp).takes hk ho ht
    rw [hr, aesOpen_run]
    cases hdec : P.aes.decrypt mk msg.nonce msg.ciphertext msg.tag [] with
    | some plaintext => exact Or.inl ⟨mk, plaintext, s₂, rfl, hdec, hguard⟩
    | none =>
      obtain ⟨k, j, n, hat⟩ := hguard
      exact Or.inr ⟨_, s₂, rfl, k, j, n, hat.forget⟩

end Calls

/-! ## Runs -/

/-- Two parties on an open network. -/
structure Exposed (C : Carriers) where
  st : Side → State C
  /-- What each side encrypted. -/
  sent : Side → List (Message C)
  /-- What `decrypt` of each side was given and returned, exceptions left out. -/
  accepted : Side → List (Message C × Bytes)

/-- Either side sends, or is handed a message of the attacker's choice: a genuine one, a copy, one with another header, or one made up. -/
inductive Intrusion (C : Carriers)
  | send (p : Side) (coins : Coins C) (plaintext : Bytes)
  | inject (p : Side) (msg : Message C)

namespace Exposed

def start (P : Primitives C) (u : Setup C) : Exposed C where
  st := (Session.start P u).st
  sent _ := []
  accepted _ := []

def next (P : Primitives C) (s : Exposed C) : Intrusion C → Exposed C
  | .send p coins plaintext =>
    { s with
      st := Function.update s.st p (encrypt P (s.st p) coins plaintext).1
      sent := Function.update s.sent p (s.sent p ++ [(encrypt P (s.st p) coins plaintext).2]) }
  | .inject p msg =>
    match (decrypt P msg).run (s.st p) with
    | .ok plaintext st' =>
      { s with
        st := Function.update s.st p st'
        accepted := Function.update s.accepted p (s.accepted p ++ [(msg, plaintext)]) }
    | .error _ st' => { s with st := Function.update s.st p st' }

def run (P : Primitives C) (u : Setup C) (events : List (Intrusion C)) : Exposed C := events.foldl (next P) (start P u)

end Exposed

/-- The body of a message; the attacker may put any header on it. -/
def SameCiphertext (msg msg' : Message C) : Prop := msg.ciphertext = msg'.ciphertext ∧ msg.tag = msg'.tag

theorem SameCiphertext.refl (msg : Message C) : SameCiphertext msg msg := ⟨rfl, rfl⟩

/-- Each accepted message was opened with a key of its own. -/
def OneKeyEach (P : Primitives C) (u : Setup C) (s : Exposed C) (p : Side) : Prop :=
  ∃ tried, List.Forall₂ (fun mk r => P.aes.decrypt mk r.1.nonce r.1.ciphertext r.1.tag [] = some r.2) tried (s.accepted p) ∧
    Guarded P ((Session.start P u).st p).rootKey ((Session.start P u).st p).recvChainKey tried (s.st p)

def Sealed (P : Primitives C) (msg : Message C) : Prop := ∃ key nonce plaintext, (msg.ciphertext, msg.tag) = P.aes.encrypt key nonce plaintext []

theorem origin_start (P : Primitives C) (u : Setup C) (p : Side) :
    Origin P ((Session.start P u).st p).rootKey ((Session.start P u).st p).recvChainKey := by
  cases p with
  | alice => exact ⟨⟨_, _, _, rfl⟩, Or.inr rfl⟩
  | bob => exact ⟨⟨_, _, _, rfl⟩, Or.inl rfl⟩

theorem oneKeyEach_start (P : Primitives C) (u : Setup C) (p : Side) : OneKeyEach P u (Exposed.start P u) p := by
  have hempty : cachedKeys ((Session.start P u).st p) = [] := by
    cases p <;> rfl
  have hsecret : Nonempty (ℕ → C.SS) := by
    cases p with
    | alice => exact ⟨fun _ => (P.kem.encapsulate (P.kem.keygen u.prekey).pub u.encap).2⟩
    | bob => exact ⟨fun _ => (P.kem.encapsulate (P.kem.keygen u.prekey).pub u.encap).2⟩
  obtain ⟨secret⟩ := hsecret
  refine ⟨[], List.Forall₂.nil, 0, 0, 0, ⟨secret, rfl⟩, le_rfl, ⟨_, rfl, rfl⟩, ?_, ?_⟩
  · rw [show (Exposed.start P u).st p = (Session.start P u).st p from rfl, hempty]
    exact List.nodup_nil
  · intro mk hmem
    rw [show (Exposed.start P u).st p = (Session.start P u).st p from rfl, hempty] at hmem
    cases hmem

section Steps
variable {u : Setup C} {s : Exposed C} {p : Side}

theorem OneKeyEach.send (h : OneKeyEach P u s p) (q : Side) (coins : Coins C) (plaintext : Bytes) :
    OneKeyEach P u (s.next P (.send q coins plaintext)) p := by
  obtain ⟨tried, hopened, hguard⟩ := h
  refine ⟨tried, hopened, ?_⟩
  change Guarded P _ _ tried (Function.update s.st q _ p)
  rcases q.eq_or_other p with rfl | rfl
  · rw [Function.update_self]
    exact hguard.encrypt coins plaintext
  · rw [Function.update_of_ne (Side.other_ne q)]
    exact hguard

theorem next_inject_ok {q : Side} {msg : Message C} {plaintext : Bytes} {st' : State C} (hrun : (decrypt P msg).run (s.st q) = .ok plaintext st') :
    s.next P (.inject q msg) =
      { s with st := Function.update s.st q st', accepted := Function.update s.accepted q (s.accepted q ++ [(msg, plaintext)]) } := by
  simp only [Exposed.next, hrun]

theorem next_inject_error {q : Side} {msg : Message C} {e : RatchetError} {st' : State C} (hrun : (decrypt P msg).run (s.st q) = .error e st') :
    s.next P (.inject q msg) = { s with st := Function.update s.st q st' } := by
  simp only [Exposed.next, hrun]

theorem next_inject_sent (s : Exposed C) (q : Side) (msg : Message C) : (s.next P (.inject q msg)).sent = s.sent := by
  cases hrun : (decrypt P msg).run (s.st q) with
  | ok plaintext st' => rw [next_inject_ok hrun]
  | error e st' => rw [next_inject_error hrun]

theorem OneKeyEach.inject_self (hk : KeysApart P) (h : OneKeyEach P u s p) (msg : Message C) : OneKeyEach P u (s.next P (.inject p msg)) p := by
  obtain ⟨tried, hopened, hguard⟩ := h
  rcases hguard.decrypt hk (origin_start P u p) msg with ⟨mk, plaintext, s', hrun, hdec, hguard'⟩ | ⟨e, s', hrun, hguard'⟩
  · rw [next_inject_ok hrun]
    refine ⟨tried ++ [mk], ?_, ?_⟩
    · simp only [Function.update_self]
      exact List.rel_append hopened (List.Forall₂.cons hdec List.Forall₂.nil)
    · simp only [Function.update_self]
      exact hguard'
  · rw [next_inject_error hrun]
    refine ⟨tried, hopened, ?_⟩
    simp only [Function.update_self]
    exact hguard'

theorem OneKeyEach.inject_other (h : OneKeyEach P u s p.other) (msg : Message C) : OneKeyEach P u (s.next P (.inject p msg)) p.other := by
  obtain ⟨tried, hopened, hguard⟩ := h
  cases hrun : (decrypt P msg).run (s.st p) with
  | ok plaintext st' =>
    rw [next_inject_ok hrun]
    refine ⟨tried, ?_, ?_⟩
    · simp only [Function.update_of_ne p.other_ne]
      exact hopened
    · simp only [Function.update_of_ne p.other_ne]
      exact hguard
  | error e st' =>
    rw [next_inject_error hrun]
    refine ⟨tried, hopened, ?_⟩
    simp only [Function.update_of_ne p.other_ne]
    exact hguard

theorem OneKeyEach.next (hk : KeysApart P) (h : OneKeyEach P u s p) (e : Intrusion C) : OneKeyEach P u (s.next P e) p := by
  cases e with
  | send q coins plaintext => exact h.send q coins plaintext
  | inject q msg =>
    rcases q.eq_or_other p with rfl | rfl
    · exact h.inject_self hk msg
    · exact h.inject_other msg

/-- What `encrypt` makes is sealed under its key. -/
theorem sealed_next (h : ∀ msg ∈ s.sent p, Sealed P msg) (e : Intrusion C) : ∀ msg ∈ (s.next P e).sent p, Sealed P msg := by
  cases e with
  | send q coins plaintext =>
    change ∀ msg ∈ Function.update s.sent q _ p, _
    rcases q.eq_or_other p with rfl | rfl
    · rw [Function.update_self]
      intro msg hmem
      rcases List.mem_append.mp hmem with hold | hnew
      · exact h msg hold
      · rw [List.mem_singleton.mp hnew]
        exact ⟨_, _, _, encrypt_sealed P (s.st p) coins plaintext⟩
    · rw [Function.update_of_ne q.other_ne]
      exact h
  | inject q msg =>
    rw [next_inject_sent]
    exact h

end Steps

theorem run_oneKeyEach (hk : KeysApart P) (u : Setup C) (events : List (Intrusion C)) (p : Side) : OneKeyEach P u (Exposed.run P u events) p := by
  unfold Exposed.run
  induction events using List.reverseRecOn with
  | nil => exact oneKeyEach_start P u p
  | append_singleton events e ih =>
    rw [List.foldl_append]
    exact ih.next hk e

theorem run_sealed (u : Setup C) (events : List (Intrusion C)) (p : Side) : ∀ msg ∈ (Exposed.run P u events).sent p, Sealed P msg := by
  unfold Exposed.run
  induction events using List.reverseRecOn with
  | nil => exact fun msg hmem => absurd hmem List.not_mem_nil
  | append_singleton events e ih =>
    rw [List.foldl_append]
    exact sealed_next ih e

/-- A ciphertext that the peer made is accepted at most once, whatever the attacker does. -/
theorem accepted_at_most_once (hkdf : P.HashesConcat) (haes : P.aes.Binding) (u : Setup C) (events : List (Intrusion C)) (p : Side)
    {msg : Message C} (hsent : msg ∈ (Exposed.run P u events).sent p.other) {i i' : ℕ} {r r' : Message C × Bytes}
    (hr : ((Exposed.run P u events).accepted p)[i]? = some r) (hr' : ((Exposed.run P u events).accepted p)[i']? = some r')
    (hsame : SameCiphertext r.1 msg) (hsame' : SameCiphertext r'.1 msg) : i = i' := by
  obtain ⟨tried, hopened, k, j, n, hat⟩ := run_oneKeyEach (keysApart_of_hashesConcat hkdf) u events p
  obtain ⟨key, nonce, plaintext, hseal⟩ := run_sealed u events p.other msg hsent
  -- both were opened with the key under which the message was sealed
  have htried : ∀ {i : ℕ} {r : Message C × Bytes}, ((Exposed.run P u events).accepted p)[i]? = some r → SameCiphertext r.1 msg →
      tried[i]? = some key := by
    intro i r hr hsame
    obtain ⟨hi, hget⟩ := List.getElem?_eq_some_iff.mp hr
    have hlen := hopened.length_eq
    have hdec := List.Forall₂.get hopened (show i < tried.length by omega) hi
    simp only [List.get_eq_getElem, hget] at hdec
    have hct := congrArg Prod.fst hseal
    have htag := congrArg Prod.snd hseal
    simp only at hct htag
    rw [hsame.1, hsame.2, hct, htag] at hdec
    rw [List.getElem?_eq_getElem (show i < tried.length by omega), (haes.same_inputs hdec).1]
  have hnodup : tried.Nodup := (List.nodup_append.mp hat.nodup).1
  have hi := htried hr hsame
  have hi' := htried hr' hsame'
  obtain ⟨hlt, _⟩ := List.getElem?_eq_some_iff.mp hi
  exact (List.getElem?_inj hlt hnodup).mp (hi.trans hi'.symm)

/-! ## A letter that is presented twice -/

section Letter
variable (P) (u : Setup C) (coins : Coins C) (plaintext : Bytes)

def letter : Message C := (encrypt P (u.alice P).state coins plaintext).2

/-- Alice writes to Bob, and the attacker hands him the letter two times. -/
def replayed : List (Intrusion C) := [.send .alice coins plaintext, .inject .bob (letter P u coins plaintext), .inject .bob (letter P u coins plaintext)]

variable {P}

theorem decrypt_letter (hP : P.Correct) :
    (decrypt P (letter P u coins plaintext)).run (u.bob P) = .ok plaintext (takeKey P (u.bob P)) := by
  have hchain : (u.bob P).recvChainKey = (u.alice P).state.sendChainKey := congrArg (sendChain P) (u.bob_root hP.kem)
  refine decrypt_opened rfl rfl (UInt32.le_refl 0) ?_
  rw [hchain]
  exact hP.aes.decrypt_encrypt _ _ _ _

theorem sent_replayed : letter P u coins plaintext ∈ (Exposed.run P u (replayed P u coins plaintext)).sent Side.bob.other := by
  unfold Exposed.run replayed
  simp only [List.foldl_cons, List.foldl_nil]
  rw [next_inject_sent, next_inject_sent]
  exact List.mem_singleton.mpr rfl

theorem accepted_replayed (hP : P.Correct) :
    ((Exposed.run P u (replayed P u coins plaintext)).accepted .bob)[0]? = some (letter P u coins plaintext, plaintext) := by
  unfold Exposed.run replayed
  simp only [List.foldl_cons, List.foldl_nil]
  -- the third event can only add to what was accepted
  have hfirst : ((((Exposed.start P u).next P (.send .alice coins plaintext)).next P (.inject .bob (letter P u coins plaintext))).accepted .bob) =
      [(letter P u coins plaintext, plaintext)] := by
    rw [next_inject_ok (decrypt_letter u coins plaintext hP)]
    rfl
  generalize ((Exposed.start P u).next P (.send .alice coins plaintext)).next P (.inject .bob (letter P u coins plaintext)) = s at hfirst
  cases hrun : (decrypt P (letter P u coins plaintext)).run (s.st .bob) with
  | error e st' =>
    rw [next_inject_error hrun]
    dsimp only
    rw [hfirst]
    rfl
  | ok plaintext' st' =>
    rw [next_inject_ok hrun]
    dsimp only
    rw [Function.update_self, hfirst]
    rfl

end Letter

theorem accepted_at_most_once_letter :
    ((Exposed.run spelled demo (replayed spelled demo (demoCoins 0) [1])).accepted .bob)[1]? ≠ some (letter spelled demo (demoCoins 0) [1], [1]) := by
  intro hagain
  have hindex := accepted_at_most_once spelled_hashesConcat symbolicAes_binding demo _ .bob (sent_replayed demo (demoCoins 0) [1])
    (accepted_replayed demo (demoCoins 0) [1] spelled_correct) hagain (SameCiphertext.refl _) (SameCiphertext.refl _)
  exact absurd hindex (by decide)

end ScatterWeb.Ratchet
