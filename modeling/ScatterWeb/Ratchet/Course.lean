import ScatterWeb.Ratchet.Replay

/-! # The keys of one side

A side stands on a line of root keys of its own. Some of the steps on it the side took itself when it sent, the others
a message took for it, whoever made that message. It sends on the chains of its own steps and receives on those of the others, so the keys it encrypts with and the keys it tries
are apart, even when nobody else is honest. `Walk` is this invariant, kept by every assignment of `encrypt` and `decrypt`.

A property that key derivation carries from a key to what is derived from it is kept by the same assignments: no key enters a state from outside. -/
namespace ScatterWeb.Ratchet
open Crypto Lib Relation
set_option autoImplicit false
variable {C : Carriers} {P : Primitives C}

/-! ## Places on the line -/

/-- The root key and the two chains that a side starts with. -/
structure Origins (C : Carriers) where
  root : C.Key
  mine : C.Key
  theirs : C.Key

/-- The chains hang on the root key under the two labels. -/
structure Origins.Apart (P : Primitives C) (o : Origins C) : Prop where
  root : IsInit P o.root
  labels : (o.mine = sendChain P o.root ∧ o.theirs = recvChain P o.root) ∨ (o.mine = recvChain P o.root ∧ o.theirs = sendChain P o.root)

/-- The chain after `j` steps; `first` is the one before any. -/
def headAt (P : Primitives C) (root0 first : C.Key) (secret : ℕ → C.SS) : ℕ → C.Key
  | 0 => first
  | j + 1 => sendChain P (rootAt P root0 secret (j + 1))

def keyAt (P : Primitives C) (root0 first : C.Key) (secret : ℕ → C.SS) (j n : ℕ) : C.Key :=
  messageKey P (chainAt P (headAt P root0 first secret j) n)

/-- What is known of a side's past: the secrets of its steps, which of them were its own, and the next place on either chain. -/
structure Course (C : Carriers) where
  secret : ℕ → C.SS
  own : Finset ℕ
  steps : ℕ
  sendStep : ℕ
  sendNum : ℕ
  recvStep : ℕ
  recvNum : ℕ

theorem headAt_update (P : Primitives C) (root0 first : C.Key) (secret : ℕ → C.SS) {k j : ℕ} (hj : j ≤ k) (ss : C.SS) :
    headAt P root0 first (Function.update secret k ss) j = headAt P root0 first secret j := by
  cases j with
  | zero => rfl
  | succ j => rw [headAt, headAt, rootAt_update P root0 secret hj]

theorem keyAt_update (P : Primitives C) (root0 first : C.Key) (secret : ℕ → C.SS) {k j : ℕ} (hj : j ≤ k) (ss : C.SS) (n : ℕ) :
    keyAt P root0 first (Function.update secret k ss) j n = keyAt P root0 first secret j n := by
  rw [keyAt, keyAt, headAt_update P root0 first secret hj]

theorem recvHead_headAt (root0 first : C.Key) (secret : ℕ → C.SS) (j : ℕ) : RecvHead P root0 first j (headAt P root0 first secret j) := by
  cases j with
  | zero => exact rfl
  | succ j => exact ⟨secret, rfl⟩

section Apart
variable {o : Origins C} (hk : KeysApart P) (ho : o.Apart P)
include ho

theorem Origins.Apart.mine_origin : Origin P o.root o.mine :=
  ⟨ho.root, ho.labels.elim (fun h => Or.inl h.1) (fun h => Or.inr h.1)⟩

theorem Origins.Apart.theirs_origin : Origin P o.root o.theirs :=
  ⟨ho.root, ho.labels.elim (fun h => Or.inr h.2) (fun h => Or.inl h.2)⟩

theorem headAt_chainHead (secret : ℕ → C.SS) (j : ℕ) : ChainHead P (headAt P o.root o.mine secret j) ∧ ChainHead P (headAt P o.root o.theirs secret j) :=
  ⟨(recvHead_headAt o.root o.mine secret j).chainHead ho.mine_origin, (recvHead_headAt o.root o.theirs secret j).chainHead ho.theirs_origin⟩

include hk

theorem Origins.Apart.mine_ne_theirs : o.mine ≠ o.theirs := by
  rcases ho.labels with ⟨hm, ht⟩ | ⟨hm, ht⟩
  · rw [hm, ht]
    exact sendChain_ne_recvChain hk _ _
  · rw [hm, ht]
    exact (sendChain_ne_recvChain hk _ _).symm

/-- A chain of one direction is one of the other direction only after the same step, and not before the first. -/
theorem headAt_cross {secret : ℕ → C.SS} {j j' : ℕ}
    (h : headAt P o.root o.mine secret j = headAt P o.root o.theirs secret j') : j = j' ∧ j ≠ 0 := by
  have hmine := recvHead_headAt (P := P) o.root o.mine secret
  have htheirs := recvHead_headAt (P := P) o.root o.theirs secret
  cases j with
  | zero =>
    cases j' with
    | zero => exact absurd h (ho.mine_ne_theirs hk)
    | succ j' =>
      have hsame := (hmine 0).unique ho.mine_origin hk (h ▸ hmine (j' + 1))
      omega
  | succ j =>
    cases j' with
    | zero =>
      have hsame := (htheirs 0).unique ho.theirs_origin hk (h ▸ htheirs (j + 1))
      omega
    | succ j' =>
      have hsame := (hmine (j + 1)).unique ho.mine_origin hk (h ▸ hmine (j' + 1))
      exact ⟨hsame, Nat.succ_ne_zero j⟩

/-- A key of one direction is one of the other only at the same step. -/
theorem keyAt_cross {secret : ℕ → C.SS} {j j' n n' : ℕ}
    (h : keyAt P o.root o.mine secret j n = keyAt P o.root o.theirs secret j' n') : j = j' ∧ j ≠ 0 := by
  have hchain := messageKey_inj hk h
  obtain ⟨hhead, _⟩ := (chainAt_inj hk (headAt_chainHead ho secret j).1 (headAt_chainHead ho secret j').2).mp hchain
  exact headAt_cross hk ho hhead

end Apart

/-! ## The walk -/

/-- `sealed` are the keys that the side encrypted with, `tried` those with which it opened a message. -/
structure Walk (P : Primitives C) (o : Origins C) (c : Course C) (sealed tried : List C.Key) (s : State C) : Prop where
  root : s.rootKey = rootAt P o.root c.secret c.steps
  send_eq : s.sendChainKey = chainAt P (headAt P o.root o.mine c.secret c.sendStep) c.sendNum
  recv_eq : s.recvChainKey = chainAt P (headAt P o.root o.theirs c.secret c.recvStep) c.recvNum
  own_le : ∀ j ∈ c.own, 0 < j ∧ j ≤ c.steps
  send_own : c.sendStep = 0 ∨ c.sendStep ∈ c.own
  recv_le : c.recvStep ≤ c.steps
  recv_not_own : c.recvStep ∉ c.own
  sealed_at : ∀ mk ∈ sealed, ∃ j n, mk = keyAt P o.root o.mine c.secret j n ∧ (j = 0 ∨ j ∈ c.own) ∧ Earlier c.sendStep c.sendNum j n
  tried_at : ∀ mk ∈ tried ++ cachedKeys s, ∃ j n, mk = keyAt P o.root o.theirs c.secret j n ∧ j ∉ c.own ∧ Earlier c.recvStep c.recvNum j n
  nodup : (tried ++ cachedKeys s).Nodup

section Walks
variable {o : Origins C} {c : Course C} {sealed tried : List C.Key} {s : State C}

theorem Walk.toAt (h : Walk P o c sealed tried s) : At P o.root o.theirs tried c.steps c.recvStep c.recvNum s where
  root := ⟨c.secret, h.root⟩
  le := h.recv_le
  chain := ⟨_, recvHead_headAt o.root o.theirs c.secret c.recvStep, h.recv_eq⟩
  nodup := h.nodup
  earlier mk hmem := by
    obtain ⟨j, n, hkey, _, hearlier⟩ := h.tried_at mk hmem
    exact ⟨j, n, ⟨_, recvHead_headAt o.root o.theirs c.secret j, hkey⟩, hearlier⟩

/-- What a side encrypts with it never opens anything with. -/
theorem Walk.apart (hk : KeysApart P) (ho : o.Apart P) (h : Walk P o c sealed tried s) {mk : C.Key} (hs : mk ∈ sealed)
    (ht : mk ∈ tried ++ cachedKeys s) : False := by
  obtain ⟨j, n, hkey, hown, _⟩ := h.sealed_at mk hs
  obtain ⟨j', n', hkey', hnot, _⟩ := h.tried_at mk ht
  obtain ⟨rfl, hpos⟩ := keyAt_cross hk ho (hkey.symm.trans hkey')
  exact hnot (hown.resolve_left hpos)

theorem Walk.sealed_le (h : Walk P o c sealed tried s) {j : ℕ} (hj : j = 0 ∨ j ∈ c.own) : j ≤ c.steps := by
  rcases hj with rfl | hmem
  · exact Nat.zero_le _
  · exact (h.own_le j hmem).2

theorem Walk.tried_le (h : Walk P o c sealed tried s) {j n : ℕ} (hearlier : Earlier c.recvStep c.recvNum j n) : j ≤ c.steps := by
  have hle := h.recv_le
  unfold Earlier at hearlier
  omega

/-! ### The assignments of `decrypt` -/

/-- The next key of the receiving chain goes to the tried keys or to the cache, and others may go out of it. -/
theorem Walk.advance (h : Walk P o c sealed tried s) {tried' : List C.Key} {s' : State C} (hroot : s'.rootKey = s.rootKey)
    (hsend : s'.sendChainKey = s.sendChainKey) (hrecv : s'.recvChainKey = nextChainKey P s.recvChainKey)
    (hsub : ∀ mk ∈ tried' ++ cachedKeys s', mk = messageKey P s.recvChainKey ∨ mk ∈ tried ++ cachedKeys s)
    (hnodup : (tried' ++ cachedKeys s').Nodup) : Walk P o { c with recvNum := c.recvNum + 1 } sealed tried' s' where
  root := hroot.trans h.root
  send_eq := hsend.trans h.send_eq
  recv_eq := by
    rw [hrecv, h.recv_eq]
    rfl
  own_le := h.own_le
  send_own := h.send_own
  recv_le := h.recv_le
  recv_not_own := h.recv_not_own
  sealed_at := h.sealed_at
  tried_at mk hmem := by
    rcases hsub mk hmem with rfl | hold
    · exact ⟨c.recvStep, c.recvNum, congrArg (messageKey P) h.recv_eq, h.recv_not_own, Or.inr ⟨rfl, Nat.lt_succ_self _⟩⟩
    · obtain ⟨j, n, hkey, hnot, hearlier⟩ := h.tried_at mk hold
      exact ⟨j, n, hkey, hnot, hearlier.mono (Or.inr ⟨rfl, Nat.le_succ _⟩)⟩
  nodup := hnodup

/-- The cache only loses keys. -/
theorem Walk.shrink (h : Walk P o c sealed tried s) {tried' : List C.Key} {s' : State C} (hroot : s'.rootKey = s.rootKey)
    (hsend : s'.sendChainKey = s.sendChainKey) (hrecv : s'.recvChainKey = s.recvChainKey)
    (hsub : ∀ mk ∈ tried' ++ cachedKeys s', mk ∈ tried ++ cachedKeys s) (hnodup : (tried' ++ cachedKeys s').Nodup) :
    Walk P o c sealed tried' s' where
  root := hroot.trans h.root
  send_eq := hsend.trans h.send_eq
  recv_eq := hrecv.trans h.recv_eq
  own_le := h.own_le
  send_own := h.send_own
  recv_le := h.recv_le
  recv_not_own := h.recv_not_own
  sealed_at := h.sealed_at
  tried_at mk hmem := h.tried_at mk (hsub mk hmem)
  nodup := hnodup

theorem Walk.skipOne (hk : KeysApart P) (ho : o.Apart P) (h : Walk P o c sealed tried s) (epoch : UInt32) :
    Walk P o { c with recvNum := c.recvNum + 1 } sealed tried (skipOne P epoch s) := by
  refine h.advance rfl rfl rfl ?_ (h.toAt.skipOne hk ho.theirs_origin epoch).nodup
  obtain ⟨rest, hrest, hcached⟩ := cachedKeys_skipOne (P := P) epoch s
  intro mk hmem
  rw [hcached] at hmem
  rcases List.mem_append.mp hmem with htried | hnew
  · exact Or.inr (List.mem_append_left _ htried)
  · rcases List.mem_cons.mp hnew with rfl | hold
    · exact Or.inl rfl
    · exact Or.inr (List.mem_append_right _ (hrest.subset hold))

theorem Walk.takeKey (hk : KeysApart P) (ho : o.Apart P) (h : Walk P o c sealed tried s) :
    Walk P o { c with recvNum := c.recvNum + 1 } sealed (tried ++ [messageKey P s.recvChainKey]) (takeKey P s) := by
  refine h.advance rfl rfl rfl ?_ (h.toAt.takeKey hk ho.theirs_origin).nodup
  intro mk hmem
  rw [List.append_assoc] at hmem
  rcases List.mem_append.mp hmem with htried | hrest
  · exact Or.inr (List.mem_append_left _ htried)
  · rcases List.mem_cons.mp hrest with rfl | hcached
    · exact Or.inl rfl
    · exact Or.inr (List.mem_append_right _ hcached)

theorem Walk.useSlot (h : Walk P o c sealed tried s) {slot : UInt64} {mk : C.Key} (hc : s.skippedKeys.lookup slot = some mk) :
    Walk P o c sealed (tried ++ [mk]) { s with skippedKeys := s.skippedKeys.erase slot } := by
  refine h.shrink rfl rfl rfl ?_ (h.toAt.useSlot hc).nodup
  intro key hmem
  rw [List.append_assoc] at hmem
  exact ((cachedKeys_erase hc).symm.append_left tried).subset hmem

/-- A key that was tried for nothing may be left out. -/
theorem Walk.forget {mk : C.Key} (h : Walk P o c sealed (tried ++ [mk]) s) : Walk P o c sealed tried s := by
  refine h.shrink rfl rfl rfl ?_ h.toAt.forget.nodup
  intro key hmem
  rw [List.append_assoc]
  rcases List.mem_append.mp hmem with htried | hcached
  · exact List.mem_append_left _ htried
  · exact List.mem_append_right _ (List.mem_append_right _ hcached)

/-! ### KEM steps -/

section Steps
variable (h : Walk P o c sealed tried s) (ss : C.SS)
include h

/-- One more secret at the end of the line leaves what is known of the keys so far. -/
theorem Walk.sealed_step {mk : C.Key} (hmem : mk ∈ sealed) :
    ∃ j n, mk = keyAt P o.root o.mine (Function.update c.secret c.steps ss) j n ∧ (j = 0 ∨ j ∈ c.own) ∧ Earlier c.sendStep c.sendNum j n := by
  obtain ⟨j, n, hkey, hown, hearlier⟩ := h.sealed_at mk hmem
  refine ⟨j, n, ?_, hown, hearlier⟩
  rw [keyAt_update P o.root o.mine c.secret (h.sealed_le hown)]
  exact hkey

theorem Walk.tried_step {mk : C.Key} (hmem : mk ∈ tried ++ cachedKeys s) :
    ∃ j n, mk = keyAt P o.root o.theirs (Function.update c.secret c.steps ss) j n ∧ j ∉ c.own ∧ Earlier c.recvStep c.recvNum j n := by
  obtain ⟨j, n, hkey, hnot, hearlier⟩ := h.tried_at mk hmem
  refine ⟨j, n, ?_, hnot, hearlier⟩
  rw [keyAt_update P o.root o.theirs c.secret (h.tried_le hearlier)]
  exact hkey

theorem Walk.root_step : ratchetStep P s.rootKey ss = rootAt P o.root (Function.update c.secret c.steps ss) (c.steps + 1) := by
  rw [rootAt, rootAt_update P o.root c.secret le_rfl, Function.update_self, h.root]

/-- The next step is past all steps so far, so it is no step of the side's own yet. -/
theorem Walk.step_not_own : c.steps + 1 ∉ c.own := by
  intro hmem
  have hle := (h.own_le _ hmem).2
  omega

end Steps

theorem Walk.kemStepRecv (h : Walk P o c sealed tried s) (ct : C.Ct) (pub : C.Pub) (epoch : UInt32) :
    ∃ c', Walk P o c' sealed tried (kemStepRecv P ct pub epoch s) := by
  have hroot := h.root_step (P.kem.decapsulate s.myRatchetKem.priv ct)
  refine ⟨⟨Function.update c.secret c.steps (P.kem.decapsulate s.myRatchetKem.priv ct), c.own, c.steps + 1, c.sendStep, c.sendNum, c.steps + 1, 0⟩,
    hroot, ?_, ?_, ?_, h.send_own, le_rfl, h.step_not_own, fun mk hmem => h.sealed_step _ hmem, ?_, h.nodup⟩
  · rw [headAt_update P o.root o.mine c.secret (h.sealed_le h.send_own)]
    exact h.send_eq
  · exact congrArg (sendChain P) hroot
  · intro j hmem
    obtain ⟨hpos, hle⟩ := h.own_le j hmem
    exact ⟨hpos, Nat.le_succ_of_le hle⟩
  · intro mk hmem
    obtain ⟨j, n, hkey, hnot, hearlier⟩ := h.tried_step (P.kem.decapsulate s.myRatchetKem.priv ct) hmem
    exact ⟨j, n, hkey, hnot, hearlier.mono (Or.inl (Nat.lt_succ_of_le h.recv_le))⟩

theorem Walk.kemStepSend (h : Walk P o c sealed tried s) (coins : Coins C) : ∃ c', Walk P o c' sealed tried (kemStepSend P s coins).1 := by
  have hroot := h.root_step (P.kem.encapsulate s.peerRatchetPub coins.encap).2
  have hnext := h.step_not_own
  refine ⟨⟨Function.update c.secret c.steps (P.kem.encapsulate s.peerRatchetPub coins.encap).2, insert (c.steps + 1) c.own, c.steps + 1, c.steps + 1, 0,
    c.recvStep, c.recvNum⟩, hroot, ?_, ?_, ?_, Or.inr (Finset.mem_insert_self _ _), Nat.le_succ_of_le h.recv_le, ?_, ?_, ?_, h.nodup⟩
  · exact congrArg (sendChain P) hroot
  · rw [headAt_update P o.root o.theirs c.secret h.recv_le]
    exact h.recv_eq
  · intro j hmem
    rcases Finset.mem_insert.mp hmem with rfl | hold
    · exact ⟨Nat.succ_pos _, le_rfl⟩
    · obtain ⟨hpos, hle⟩ := h.own_le j hold
      exact ⟨hpos, Nat.le_succ_of_le hle⟩
  · intro hmem
    rcases Finset.mem_insert.mp hmem with heq | hold
    · have hle := h.recv_le
      change c.recvStep = c.steps + 1 at heq
      omega
    · exact h.recv_not_own hold
  · intro mk hmem
    obtain ⟨j, n, hkey, hown, hearlier⟩ := h.sealed_step (P.kem.encapsulate s.peerRatchetPub coins.encap).2 hmem
    exact ⟨j, n, hkey, hown.imp_right Finset.mem_insert_of_mem, hearlier.mono (Or.inl (Nat.lt_succ_of_le (h.sealed_le h.send_own)))⟩
  · intro mk hmem
    obtain ⟨j, n, hkey, hnot, hearlier⟩ := h.tried_step (P.kem.encapsulate s.peerRatchetPub coins.encap).2 hmem
    have hle := h.tried_le hearlier
    refine ⟨j, n, hkey, ?_, hearlier⟩
    intro hin
    rcases Finset.mem_insert.mp hin with heq | hold
    · omega
    · exact hnot hold

/-- One key comes off the sending chain. -/
theorem Walk.chainStep (h : Walk P o c sealed tried s) :
    Walk P o { c with sendNum := c.sendNum + 1 } (sealed ++ [messageKey P s.sendChainKey]) tried
      { s with sendChainKey := nextChainKey P s.sendChainKey, sendMsgNum := s.sendMsgNum + 1 } := by
  refine ⟨h.root, ?_, h.recv_eq, h.own_le, h.send_own, h.recv_le, h.recv_not_own, ?_, h.tried_at, h.nodup⟩
  · change nextChainKey P s.sendChainKey = _
    rw [h.send_eq]
    rfl
  · intro mk hmem
    rcases List.mem_append.mp hmem with hold | hnew
    · obtain ⟨j, n, hkey, hown, hearlier⟩ := h.sealed_at mk hold
      exact ⟨j, n, hkey, hown, hearlier.mono (Or.inr ⟨rfl, Nat.le_succ _⟩)⟩
    · rw [List.mem_singleton] at hnew
      exact ⟨c.sendStep, c.sendNum, hnew.trans (congrArg (messageKey P) h.send_eq), h.send_own, Or.inr ⟨rfl, Nat.lt_succ_self _⟩⟩

end Walks

/-! ## Calls -/

section Calls
variable {o : Origins C} {c : Course C} {sealed tried : List C.Key} {s s' : State C} (hk : KeysApart P) (ho : o.Apart P)
include hk ho

theorem Walk.prepares (h : Walk P o c sealed tried s) (hp : ReflTransGen (Prepares P) s s') : ∃ c', Walk P o c' sealed tried s' := by
  induction hp with
  | refl => exact ⟨c, h⟩
  | tail _ hstep ih =>
    obtain ⟨c', hc'⟩ := ih
    cases hstep with
    | skip epoch => exact ⟨_, hc'.skipOne hk ho epoch⟩
    | kemStep ct pub epoch => exact hc'.kemStepRecv ct pub epoch

theorem Walk.takes (h : Walk P o c sealed tried s) {mk : C.Key} (ht : Takes P s mk s') : ∃ c', Walk P o c' sealed (tried ++ [mk]) s' := by
  cases ht with
  | chain => exact ⟨_, h.takeKey hk ho⟩
  | cache slot _ _ hcached => exact ⟨c, h.useSlot hcached⟩

omit hk ho in
theorem Walk.encrypt (h : Walk P o c sealed tried s) (coins : Coins C) (plaintext : Bytes) :
    ∃ c', Walk P o c' (sealed ++ [encryptKey P s coins]) tried (encrypt P s coins plaintext).1 := by
  unfold Ratchet.encrypt encryptKey sendSource
  split_ifs
  · obtain ⟨c', hc'⟩ := h.kemStepSend coins
    exact ⟨_, hc'.chainStep⟩
  · exact ⟨_, h.chainStep⟩

end Calls

/-! ## What a call leaves -/

/-- The receiving chain has moved on by some keys, and the cache may be another. -/
def MovedOn (P : Primitives C) (s s' : State C) : Prop :=
  ∃ d n sk, s' = { s with recvChainKey := chainAt P s.recvChainKey d, recvMsgNum := n, skippedKeys := sk }

/-- `decrypt` moves the receiving chain, with or without the KEM step that the header asks for. -/
inductive Leaves (P : Primitives C) (msg : Message C) (s s' : State C) : Prop
  | stays (h : MovedOn P s s')
  | steps (ct : C.Ct) (hct : msg.header.kemCt = some ct) (s₀ : State C) (hbefore : MovedOn P s s₀)
      (h : MovedOn P (kemStepRecv P ct msg.header.senderRatchetPub msg.header.epoch s₀) s')

theorem movedOn_advanceLoop (epoch : UInt32) (n : ℕ) (s : State C) : MovedOn P s (endState ((advanceLoop P epoch n).run s)) := by
  induction n generalizing s with
  | zero => exact ⟨0, _, _, rfl⟩
  | succ n ih =>
    rw [advanceLoop_succ]
    split
    · exact ⟨0, _, _, rfl⟩
    · obtain ⟨d, num, sk, hend⟩ := ih (skipOne P epoch s)
      refine ⟨d + 1, num, sk, ?_⟩
      rw [hend, ← chainAt_next]
      rfl

theorem movedOn_openAt (msg : Message C) (s : State C) : MovedOn P s (endState (openAt P msg s)) := by
  have hloop := movedOn_advanceLoop (P := P) msg.header.epoch (msg.header.msgNum.toNat - s.recvMsgNum.toNat) s
  unfold openAt
  rw [advanceRecvChain_run]
  cases hrun : (advanceLoop P msg.header.epoch (msg.header.msgNum.toNat - s.recvMsgNum.toNat)).run s with
  | error e s' =>
    rw [hrun] at hloop
    exact hloop
  | ok _ s' =>
    rw [hrun] at hloop
    obtain ⟨d, num, sk, hend⟩ := hloop
    change s' = _ at hend
    dsimp only
    rw [endState_aesOpen, hend]
    exact ⟨d + 1, _, _, rfl⟩

theorem decrypt_leaves (msg : Message C) (s : State C) : Leaves P msg s (endState ((decrypt P msg).run s)) := by
  cases hc : s.skippedKeys.lookup (skipKey msg.header.epoch msg.header.msgNum) with
  | some mk =>
    rw [decrypt_cached hc, endState_aesOpen]
    exact .stays ⟨0, _, _, rfl⟩
  | none =>
    rcases lt_trichotomy msg.header.epoch.toNat s.recvEpoch.toNat with hpast | heq | hnew
    · rw [decrypt_past hc (UInt32.lt_iff_toNat_lt.mpr hpast)]
      exact .stays ⟨0, _, _, rfl⟩
    · rw [decrypt_current hc (UInt32.toNat.inj heq)]
      exact .stays (movedOn_openAt msg s)
    · have hlt := UInt32.lt_iff_toNat_lt.mpr hnew
      cases hk : msg.header.kemCt with
      | none =>
        rw [decrypt_noKemCt hc hlt hk]
        exact .stays ⟨0, _, _, rfl⟩
      | some ct =>
        have hadvance := movedOn_advanceLoop (P := P) s.recvEpoch (msg.header.prevCount.toNat - s.recvMsgNum.toNat) s
        rw [decrypt_newEpoch hc hlt hk, advanceRecvChain_run]
        cases hrun : (advanceLoop P s.recvEpoch (msg.header.prevCount.toNat - s.recvMsgNum.toNat)).run s with
        | error e s' =>
          rw [hrun] at hadvance
          exact .stays hadvance
        | ok _ s' =>
          rw [hrun] at hadvance
          exact .steps ct hk s' hadvance (movedOn_openAt msg _)

/-- The key pair is not touched. -/
theorem decrypt_myRatchetKem (msg : Message C) (s : State C) : (endState ((decrypt P msg).run s)).myRatchetKem = s.myRatchetKem := by
  cases decrypt_leaves (P := P) msg s with
  | stays h =>
    obtain ⟨_, _, _, hend⟩ := h
    rw [hend]
  | steps ct hct s₀ hbefore h =>
    obtain ⟨_, _, _, rfl⟩ := hbefore
    obtain ⟨_, _, _, hend⟩ := h
    rw [hend]
    rfl

/-- The public key of the peer is the one of the last KEM step, or the one in the header. -/
theorem decrypt_peerRatchetPub (msg : Message C) (s : State C) : (endState ((decrypt P msg).run s)).peerRatchetPub = s.peerRatchetPub ∨
    (endState ((decrypt P msg).run s)).peerRatchetPub = msg.header.senderRatchetPub := by
  cases decrypt_leaves (P := P) msg s with
  | stays h =>
    obtain ⟨_, _, _, hend⟩ := h
    rw [hend]
    exact Or.inl rfl
  | steps ct hct s₀ hbefore h =>
    obtain ⟨_, _, _, hend⟩ := h
    rw [hend]
    exact Or.inr rfl

/-- The sending half stays, and so does the root key unless the next KEM step is left to this side. -/
theorem decrypt_root (msg : Message C) (s : State C) : (endState ((decrypt P msg).run s)).sendEpoch = s.sendEpoch ∧
    (endState ((decrypt P msg).run s)).sendChainKey = s.sendChainKey ∧
      (((endState ((decrypt P msg).run s)).rootKey = s.rootKey ∧ (endState ((decrypt P msg).run s)).recvEpoch = s.recvEpoch) ∨
        (endState ((decrypt P msg).run s)).needKemStep = true) := by
  cases decrypt_leaves (P := P) msg s with
  | stays h =>
    obtain ⟨_, _, _, hend⟩ := h
    rw [hend]
    exact ⟨rfl, rfl, Or.inl ⟨rfl, rfl⟩⟩
  | steps ct hct s₀ hbefore h =>
    obtain ⟨_, _, _, rfl⟩ := hbefore
    obtain ⟨_, _, _, hend⟩ := h
    rw [hend]
    exact ⟨rfl, rfl, Or.inr rfl⟩

/-! ## What is handed down -/

/-- A key that is derived from a key with `H` has it too. -/
def Hereditary (P : Primitives C) (H : C.Key → Prop) : Prop := ∀ ps k, Part.key k ∈ ps → H k → H (P.kdf ps)

structure HoldsOnly (H : C.Key → Prop) (s : State C) : Prop where
  root : H s.rootKey
  send : H s.sendChainKey
  recv : H s.recvChainKey
  cached : ∀ mk ∈ cachedKeys s, H mk

section Heredity
variable {H : C.Key → Prop} {s s' : State C} (hH : Hereditary P H)
include hH

theorem Hereditary.ratchetStep {k : C.Key} (h : H k) (ss : C.SS) : H (ratchetStep P k ss) := hH _ k (by simp) h

theorem Hereditary.labelled {k : C.Key} (h : H k) (l : String) : H (P.kdf [.key k, .label l]) := hH _ k (by simp) h

theorem HoldsOnly.prepares (h : HoldsOnly H s) (hp : ReflTransGen (Prepares P) s s') : HoldsOnly H s' := by
  induction hp with
  | refl => exact h
  | tail _ hstep ih =>
    cases hstep with
    | skip epoch =>
      refine ⟨ih.root, ih.send, hH.labelled ih.recv _, ?_⟩
      obtain ⟨rest, hrest, hcached⟩ := cachedKeys_skipOne (P := P) epoch _
      intro mk hmem
      rw [hcached] at hmem
      rcases List.mem_cons.mp hmem with rfl | hold
      · exact hH.labelled ih.recv _
      · exact ih.cached mk (hrest.subset hold)
    | kemStep ct pub epoch => exact ⟨hH.ratchetStep ih.root _, ih.send, hH.labelled (hH.ratchetStep ih.root _) _, ih.cached⟩

theorem HoldsOnly.takes (h : HoldsOnly H s) {mk : C.Key} (ht : Takes P s mk s') : H mk ∧ HoldsOnly H s' := by
  cases ht with
  | chain => exact ⟨hH.labelled h.recv _, h.root, h.send, hH.labelled h.recv _, h.cached⟩
  | cache slot _ _ hcached =>
    have hperm := cachedKeys_erase hcached
    refine ⟨h.cached mk (hperm.symm.subset List.mem_cons_self), h.root, h.send, h.recv, ?_⟩
    intro key hmem
    exact h.cached key (hperm.symm.subset (List.mem_cons_of_mem mk hmem))

theorem HoldsOnly.decrypt (h : HoldsOnly H s) (msg : Message C) : HoldsOnly H (endState ((decrypt P msg).run s)) := by
  cases decrypt_path P msg s with
  | stops s₁ e hp hr =>
    rw [hr]
    exact h.prepares hH hp
  | tries s₁ s₂ mk hp ht hr =>
    rw [hr, endState_aesOpen]
    exact ((h.prepares hH hp).takes hH ht).2

theorem HoldsOnly.kemStepSend (h : HoldsOnly H s) (coins : Coins C) : HoldsOnly H (kemStepSend P s coins).1 :=
  ⟨hH.ratchetStep h.root _, hH.labelled (hH.ratchetStep h.root _) _, h.recv, h.cached⟩

theorem HoldsOnly.encrypt (h : HoldsOnly H s) (coins : Coins C) (plaintext : Bytes) :
    H (encryptKey P s coins) ∧ HoldsOnly H (encrypt P s coins plaintext).1 := by
  unfold Ratchet.encrypt encryptKey sendSource
  split_ifs
  · have hstep := h.kemStepSend hH coins
    exact ⟨hH.labelled hstep.send _, hstep.root, hH.labelled hstep.send _, hstep.recv, hstep.cached⟩
  · exact ⟨hH.labelled h.send _, h.root, hH.labelled h.send _, h.recv, h.cached⟩

end Heredity

end ScatterWeb.Ratchet
