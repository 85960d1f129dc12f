import ScatterWeb.Lib.SkipWindow
import ScatterWeb.Ratchet.Run

/-! # One direction of a session

A `Track` is what one side has sent so far: for each epoch the chain key it started with and how
many messages were encrypted in it. It lays all messages of the direction on one line: message `n`
of epoch `e` stands at position `start e + n` and is encrypted under `key e n`.

`Receives` ties the receiving half of a ratchet state to the track and to an abstract receive
window over these positions. The receive operations of the ratchet simulate those of the window:
skipping a key is skipping a position, draining an epoch ends where the next one starts. -/
namespace ScatterWeb.Ratchet
open Crypto Lib
set_option autoImplicit false
variable {C : Carriers}

structure Track (C : Carriers) where
  chain : ℕ → C.Key
  count : ℕ → ℕ

namespace Track
variable (t : Track C)

def start : ℕ → ℕ
  | 0 => 0
  | e + 1 => start e + t.count e

def prev : ℕ → ℕ
  | 0 => 0
  | e + 1 => t.count e

def key (P : Primitives C) (e n : ℕ) : C.Key := messageKey P (chainAt P (t.chain e) n)

theorem start_mono {e e' : ℕ} (h : e ≤ e') : t.start e ≤ t.start e' := by
  induction h with
  | refl => exact le_refl _
  | step _ ih => exact ih.trans (Nat.le_add_right _ _)

theorem end_le_start {e e' : ℕ} (h : e < e') : t.start e + t.count e ≤ t.start e' :=
  t.start_mono (Nat.succ_le_of_lt h)

theorem start_add_inj {e n e' n' : ℕ} (hn : n < t.count e) (hn' : n' < t.count e')
    (h : t.start e + n = t.start e' + n') : e = e' ∧ n = n' := by
  rcases lt_trichotomy e e' with hlt | rfl | hlt
  · have := t.end_le_start hlt
    omega
  · exact ⟨rfl, by omega⟩
  · have := t.end_le_start hlt
    omega

/-- Every position below the end of epoch `e` is a message of an epoch up to `e`. -/
theorem exists_of_lt {i e : ℕ} (h : i < t.start (e + 1)) :
    ∃ e' n, e' ≤ e ∧ n < t.count e' ∧ t.start e' + n = i := by
  induction e with
  | zero =>
    have h0 : t.start (0 + 1) = t.start 0 + t.count 0 := rfl
    have h1 : t.start 0 = 0 := rfl
    exact ⟨0, i, le_refl 0, by omega, by omega⟩
  | succ e ih =>
    by_cases hlt : i < t.start (e + 1)
    · obtain ⟨e', n, he, hn, hi⟩ := ih hlt
      exact ⟨e', n, by omega, hn, hi⟩
    · have hs : t.start (e + 1 + 1) = t.start (e + 1) + t.count (e + 1) := rfl
      exact ⟨e + 1, i - t.start (e + 1), le_refl _, by omega, by omega⟩

def push (e : ℕ) (ck : C.Key) : Track C where
  chain := Function.update t.chain e ck
  count := Function.update t.count e (t.count e + 1)

theorem push_count_self (e : ℕ) (ck : C.Key) : (t.push e ck).count e = t.count e + 1 := by
  simp [push]

theorem push_count_ne {e e' : ℕ} (ck : C.Key) (h : e' ≠ e) : (t.push e ck).count e' = t.count e' := by
  simp [push, h]

theorem push_start {e e' : ℕ} (ck : C.Key) (h : e' ≤ e) : (t.push e ck).start e' = t.start e' := by
  induction e' with
  | zero => rfl
  | succ e' ih =>
    change (t.push e ck).start e' + (t.push e ck).count e' = t.start e' + t.count e'
    rw [ih (by omega), t.push_count_ne ck (by omega)]

theorem count_le_push (e : ℕ) (ck : C.Key) (e' : ℕ) : t.count e' ≤ (t.push e ck).count e' := by
  by_cases heq : e' = e
  · subst heq
    rw [t.push_count_self]
    omega
  · rw [t.push_count_ne ck heq]

/-- A slot of the longer track is an old one or the new one. -/
theorem lt_or_eq_of_push {e e' n : ℕ} {ck : C.Key} (hn : n < (t.push e ck).count e') : n < t.count e' ∨ (e' = e ∧ n = t.count e) := by
  by_cases heq : e' = e
  · subst heq
    rw [t.push_count_self] at hn
    omega
  · rw [t.push_count_ne ck heq] at hn
    exact Or.inl hn

/-- The new slot stands past the end of its epoch, so a slot before that is an old one. -/
theorem count_of_push {e e' n : ℕ} {ck : C.Key} (hn : n < (t.push e ck).count e')
    (hi : (t.push e ck).start e' + n < t.start e + t.count e) : n < t.count e' := by
  rcases t.lt_or_eq_of_push hn with hold | ⟨rfl, rfl⟩
  · exact hold
  · rw [t.push_start ck (le_refl _)] at hi
    omega

theorem push_chain_self (e : ℕ) (ck : C.Key) : (t.push e ck).chain e = ck := by
  simp [push]

theorem push_chain_ne {e e' : ℕ} (ck : C.Key) (h : e' ≠ e) : (t.push e ck).chain e' = t.chain e' := by
  simp [push, h]

end Track

/-! ## The receiving half of a state -/

/-- `s'` differs from `s` at most in the receive chain, its counter and the cache. -/
def OnlyRecv (s s' : State C) : Prop :=
  ∃ ck n sk, s' = { s with recvChainKey := ck, recvMsgNum := n, skippedKeys := sk }

theorem OnlyRecv.refl (s : State C) : OnlyRecv s s := ⟨s.recvChainKey, s.recvMsgNum, s.skippedKeys, rfl⟩

theorem OnlyRecv.trans {s s' s'' : State C} (h : OnlyRecv s s') (h' : OnlyRecv s' s'') : OnlyRecv s s'' := by
  obtain ⟨_, _, _, rfl⟩ := h
  obtain ⟨ck, n, sk, rfl⟩ := h'
  exact ⟨ck, n, sk, rfl⟩

/-- The receiving half of `s` stands where the window `w` stands on the track `t`. -/
structure Receives (P : Primitives C) (t : Track C) (s : State C) (w : Window maxSkippedKeys) : Prop where
  count_lt : ∀ e, t.count e < 2 ^ 32
  num_le : s.recvMsgNum.toNat ≤ t.count s.recvEpoch.toNat
  next_eq : w.next = t.start s.recvEpoch.toNat + s.recvMsgNum.toNat
  chain_eq : s.recvChainKey = chainAt P (t.chain s.recvEpoch.toNat) s.recvMsgNum.toNat
  cached : ∀ e n : UInt32, n.toNat < t.count e.toNat → t.start e.toNat + n.toNat ∈ w.cache →
    s.skippedKeys.lookup (skipKey e n) = some (t.key P e.toNat n.toNat)
  uncached : ∀ e n : UInt32, ¬ (n.toNat < t.count e.toNat ∧ t.start e.toNat + n.toNat ∈ w.cache) →
    s.skippedKeys.lookup (skipKey e n) = none
  size_eq : s.skippedKeys.entries.length = w.cache.card

variable {P : Primitives C} {t : Track C} {s : State C} {w : Window maxSkippedKeys}

theorem Receives.next_le (h : Receives P t s w) : w.next ≤ t.start (s.recvEpoch.toNat + 1) := by
  rw [h.next_eq]
  exact Nat.add_le_add_left h.num_le _

theorem Receives.lookup_ahead (h : Receives P t s w) {e n : UInt32}
    (hi : w.next ≤ t.start e.toNat + n.toNat) : s.skippedKeys.lookup (skipKey e n) = none :=
  h.uncached e n (fun hc => absurd (w.below _ hc.2) (by omega))

theorem Receives.lookup_newer (h : Receives P t s w) {e n : UInt32} (he : s.recvEpoch.toNat < e.toNat) :
    s.skippedKeys.lookup (skipKey e n) = none := by
  apply h.lookup_ahead
  have h1 := h.next_le
  have h2 := t.start_mono (show s.recvEpoch.toNat + 1 ≤ e.toNat from he)
  omega

theorem Receives.skipOne (h : Receives P t s w) (hn : s.recvMsgNum.toNat < t.count s.recvEpoch.toNat)
    (room : w.cache.card < maxSkippedKeys) :
    Receives P t (skipOne P s.recvEpoch s) (w.skipOne room) := by
  have hlt := h.count_lt s.recvEpoch.toNat
  have hone : (Ratchet.skipOne P s.recvEpoch s).recvMsgNum.toNat = s.recvMsgNum.toNat + 1 := toNat_succ (by omega)
  have hslot : skipKey s.recvEpoch s.recvMsgNum ∉ s.skippedKeys :=
    AList.lookup_eq_none.mp (h.lookup_ahead (by rw [h.next_eq]))
  -- the new slot is the position `w.next`; every other slot keeps its entry
  have hsame : ∀ e n : UInt32, ¬ (e = s.recvEpoch ∧ n = s.recvMsgNum) →
      (Ratchet.skipOne P s.recvEpoch s).skippedKeys.lookup (skipKey e n) = s.skippedKeys.lookup (skipKey e n) := by
    intro e n hne
    exact AList.lookup_insert_ne (fun heq => hne (skipKey_inj.mp heq))
  have hpos : ∀ e n : UInt32, ¬ (e = s.recvEpoch ∧ n = s.recvMsgNum) → n.toNat < t.count e.toNat →
      t.start e.toNat + n.toNat ≠ w.next := by
    intro e n hne hlt' heq
    rw [h.next_eq] at heq
    obtain ⟨he, hn'⟩ := t.start_add_inj hlt' hn heq
    exact hne ⟨UInt32.toNat.inj he, UInt32.toNat.inj hn'⟩
  refine ⟨h.count_lt, ?_, ?_, ?_, ?_, ?_, ?_⟩
  · rw [hone]
    exact hn
  · rw [Window.skipOne_next, h.next_eq, hone]
    rfl
  · rw [hone]
    exact congrArg (nextChainKey P) h.chain_eq
  · intro e n hlt' hmem
    by_cases hne : e = s.recvEpoch ∧ n = s.recvMsgNum
    · obtain ⟨rfl, rfl⟩ := hne
      change (s.skippedKeys.insert _ _).lookup _ = _
      rw [AList.lookup_insert, h.chain_eq]
      rfl
    · rw [hsame e n hne]
      exact h.cached e n hlt' (Finset.mem_of_mem_insert_of_ne hmem (hpos e n hne hlt'))
  · intro e n hnot
    by_cases hne : e = s.recvEpoch ∧ n = s.recvMsgNum
    · obtain ⟨rfl, rfl⟩ := hne
      exact absurd ⟨hn, by rw [Window.skipOne_cache, h.next_eq]; exact Finset.mem_insert_self _ _⟩ hnot
    · rw [hsame e n hne]
      exact h.uncached e n (fun hc => hnot ⟨hc.1, Finset.mem_insert_of_mem hc.2⟩)
  · rw [Window.skipOne_card, ← h.size_eq]
    exact entries_insert_length _ hslot

theorem skipOne_onlyRecv (P : Primitives C) (epoch : UInt32) (s : State C) : OnlyRecv s (skipOne P epoch s) :=
  ⟨_, _, _, rfl⟩

/-- The skipping loop inside the current epoch is the window's `skip`. -/
theorem Receives.advanceLoop (n : ℕ) (h : Receives P t s w)
    (hn : s.recvMsgNum.toNat + n ≤ t.count s.recvEpoch.toNat) :
    ∃ s', (Ratchet.advanceLoop P s.recvEpoch n).run s =
        (if (w.skip n).2 then .ok () s' else .error .tooManySkipped s') ∧
      Receives P t s' (w.skip n).1 ∧ OnlyRecv s s' := by
  induction n generalizing s w with
  | zero => exact ⟨s, rfl, h, OnlyRecv.refl s⟩
  | succ n ih =>
    rw [advanceLoop_succ, h.size_eq]
    by_cases room : w.cache.card < maxSkippedKeys
    · have hlt := h.count_lt s.recvEpoch.toNat
      have hone : (Ratchet.skipOne P s.recvEpoch s).recvMsgNum.toNat = s.recvMsgNum.toNat + 1 :=
        toNat_succ (by omega)
      have hstep := h.skipOne (by omega) room
      have hleft : (Ratchet.skipOne P s.recvEpoch s).recvMsgNum.toNat + n ≤ t.count s.recvEpoch.toNat := by
        rw [hone]
        omega
      obtain ⟨s', hrun, hrec, honly⟩ := ih hstep hleft
      rw [if_neg (by omega)]
      simp only [Window.skip, dif_pos room]
      exact ⟨s', hrun, hrec, (skipOne_onlyRecv P s.recvEpoch s).trans honly⟩
    · rw [if_pos (by omega)]
      simp only [Window.skip, dif_neg room]
      exact ⟨s, rfl, h, OnlyRecv.refl s⟩

theorem Receives.takeKey (h : Receives P t s w) (hn : s.recvMsgNum.toNat < t.count s.recvEpoch.toNat) :
    Receives P t (takeKey P s) w.take := by
  have hlt := h.count_lt s.recvEpoch.toNat
  have hone : (Ratchet.takeKey P s).recvMsgNum.toNat = s.recvMsgNum.toNat + 1 := toNat_succ (by omega)
  refine ⟨h.count_lt, ?_, ?_, ?_, h.cached, h.uncached, h.size_eq⟩
  · rw [hone]
    exact hn
  · rw [Window.take_next, h.next_eq, hone]
    rfl
  · rw [hone]
    exact congrArg (nextChainKey P) h.chain_eq

theorem Receives.use (h : Receives P t s w) {e n : UInt32} (hn : n.toNat < t.count e.toNat)
    (hi : t.start e.toNat + n.toNat ∈ w.cache) :
    Receives P t { s with skippedKeys := s.skippedKeys.erase (skipKey e n) }
      (w.use (t.start e.toNat + n.toNat)) := by
  have hslot : skipKey e n ∈ s.skippedKeys := by
    rw [← AList.lookup_isSome, h.cached e n hn hi]
    rfl
  refine ⟨h.count_lt, h.num_le, h.next_eq, h.chain_eq, ?_, ?_, ?_⟩
  · intro e' n' hn' hmem
    have hne : skipKey e' n' ≠ skipKey e n := by
      intro heq
      obtain ⟨rfl, rfl⟩ := skipKey_inj.mp heq
      exact Finset.notMem_erase _ _ hmem
    change (s.skippedKeys.erase _).lookup _ = _
    rw [AList.lookup_erase_ne hne]
    exact h.cached e' n' hn' (Finset.mem_of_mem_erase hmem)
  · intro e' n' hnot
    change (s.skippedKeys.erase _).lookup _ = _
    by_cases heq : skipKey e' n' = skipKey e n
    · rw [heq, AList.lookup_erase]
    · rw [AList.lookup_erase_ne heq]
      refine h.uncached e' n' (fun hc => hnot ⟨hc.1, Finset.mem_erase.mpr ⟨?_, hc.2⟩⟩)
      intro hpos
      obtain ⟨he, hn''⟩ := t.start_add_inj hc.1 hn hpos
      exact heq (skipKey_inj.mpr ⟨UInt32.toNat.inj he, UInt32.toNat.inj hn''⟩)
  · have hlen := entries_erase_length s.skippedKeys hslot
    have hcard := Finset.card_erase_add_one hi
    rw [Window.use_cache]
    change (s.skippedKeys.erase _).entries.length = _
    have := h.size_eq
    omega

/-- Entering the next epoch, after the current one was drained, does not move the window. -/
theorem Receives.kemStepRecv (h : Receives P t s w) (hn : s.recvMsgNum.toNat = t.count s.recvEpoch.toNat)
    {newEpoch : UInt32} (he : newEpoch.toNat = s.recvEpoch.toNat + 1) {ct : C.Ct} {pub : C.Pub}
    (hchain : t.chain newEpoch.toNat =
      sendChain P (ratchetStep P s.rootKey (P.kem.decapsulate s.myRatchetKem.priv ct))) :
    Receives P t (kemStepRecv P ct pub newEpoch s) w := by
  refine ⟨h.count_lt, Nat.zero_le _, ?_, ?_, h.cached, h.uncached, h.size_eq⟩
  · rw [h.next_eq, hn]
    change _ = t.start newEpoch.toNat + 0
    rw [he]
    rfl
  · change sendChain P _ = t.chain newEpoch.toNat
    rw [hchain]

/-- The window ends with the slots of the epochs up to the last. -/
theorem Receives.next_le_end (h : Receives P t s w) {e : ℕ} (hlast : s.recvEpoch.toNat ≤ e) : w.next ≤ t.start e + t.count e := by
  have hnext := h.next_le
  have hmono := t.start_mono (Nat.add_le_add_right hlast 1)
  have hend : t.start (e + 1) = t.start e + t.count e := rfl
  omega

theorem Receives.push (h : Receives P t s w) {e : ℕ} {ck : C.Key} (hlast : s.recvEpoch.toNat ≤ e)
    (hzero : ∀ e' > e, t.count e' = 0) (hck : t.count e = 0 ∧ s.recvEpoch.toNat < e ∨ t.chain e = ck)
    (hlt : t.count e + 1 < 2 ^ 32) : Receives P (t.push e ck) s w := by
  have hstart : ∀ e' ≤ e, (t.push e ck).start e' = t.start e' := fun e' he' => t.push_start ck he'
  have hchain : ∀ e' n, n < t.count e' ∨ e' = s.recvEpoch.toNat → (t.push e ck).chain e' = t.chain e' := by
    intro e' n hn
    by_cases heq : e' = e
    · subst heq
      rw [t.push_chain_self]
      rcases hck with hck | hck
      · omega
      · exact hck.symm
    · exact t.push_chain_ne ck heq
  have hle : ∀ e' n, n < t.count e' → e' ≤ e := by
    intro e' n hn
    by_contra hgt
    have := hzero e' (by omega)
    omega
  refine ⟨?_, ?_, ?_, ?_, ?_, ?_, h.size_eq⟩
  · intro e'
    by_cases heq : e' = e
    · subst heq
      rw [t.push_count_self]
      exact hlt
    · rw [t.push_count_ne ck heq]
      exact h.count_lt e'
  · exact le_trans h.num_le (t.count_le_push e ck _)
  · rw [h.next_eq, hstart _ hlast]
  · rw [h.chain_eq, hchain _ 0 (Or.inr rfl)]
  · intro e' n hn hmem
    have hn' := t.count_of_push hn (lt_of_lt_of_le (w.below _ hmem) (h.next_le_end hlast))
    rw [hstart _ (hle _ _ hn')] at hmem
    rw [h.cached e' n hn' hmem]
    simp only [Track.key, hchain _ _ (Or.inl hn')]
  · intro e' n hnot
    refine h.uncached e' n (fun hc => hnot ⟨lt_of_lt_of_le hc.1 (t.count_le_push e ck _), ?_⟩)
    rw [hstart _ (hle _ _ hc.1)]
    exact hc.2

/-! ## Opening a genuine message -/

/-- `msg` is message `n` of epoch `e` of the track, with plaintext `plaintext`. -/
structure Genuine (P : Primitives C) (t : Track C) (e n : ℕ) (msg : Message C) (plaintext : Bytes) : Prop where
  num_lt : n < t.count e
  epoch_eq : msg.header.epoch.toNat = e
  msgNum_eq : msg.header.msgNum.toNat = n
  prevCount_eq : msg.header.prevCount.toNat = t.prev e
  kemCt_iff : msg.header.kemCt.isSome ↔ 0 < e ∧ n = 0
  sealed : (msg.ciphertext, msg.tag) = P.aes.encrypt (t.key P e n) msg.nonce plaintext []

variable {e n : ℕ} {msg : Message C} {plaintext : Bytes}

theorem Genuine.aesOpen (g : Genuine P t e n msg plaintext) (hP : P.aes.Correct) (s : State C) :
    (aesOpen P (t.key P e n) msg).run s = .ok plaintext s := by
  have hdec := hP.decrypt_encrypt (t.key P e n) msg.nonce plaintext []
  rw [← g.sealed] at hdec
  rw [aesOpen_run, hdec]

theorem Receives.decrypt_cached (h : Receives P t s w) (hP : P.aes.Correct)
    (g : Genuine P t e n msg plaintext) (hi : t.start e + n ∈ w.cache) :
    ∃ s', (decrypt P msg).run s = .ok plaintext s' ∧ Receives P t s' (w.receive (t.start e + n)).1 ∧
      (w.receive (t.start e + n)).2 = true ∧ OnlyRecv s s' := by
  obtain ⟨hlt, rfl, rfl, _, _, _⟩ := id g
  refine ⟨{ s with skippedKeys := s.skippedKeys.erase (skipKey msg.header.epoch msg.header.msgNum) }, ?_, ?_, ?_,
    ⟨s.recvChainKey, s.recvMsgNum, _, rfl⟩⟩
  · rw [Ratchet.decrypt_cached (h.cached _ _ hlt hi), g.aesOpen hP]
  · rw [Window.receive_cached hi]
    exact h.use hlt hi
  · rw [Window.receive_cached hi]

/-- The end of `decrypt`, in the epoch of the message: the window's `receive` decides. -/
theorem Receives.openAt (h : Receives P t s w) (hP : P.aes.Correct) (g : Genuine P t e n msg plaintext)
    (he : s.recvEpoch.toNat = e) (hi : w.next ≤ t.start e + n) :
    ∃ s', openAt P msg s = (if (w.receive (t.start e + n)).2 then .ok plaintext s' else .error .tooManySkipped s') ∧
      Receives P t s' (w.receive (t.start e + n)).1 ∧ OnlyRecv s s' := by
  have hnum : s.recvMsgNum.toNat ≤ n := by
    have := h.next_eq
    rw [he] at this
    omega
  have hgap : t.start e + n - w.next = n - s.recvMsgNum.toNat := by
    rw [h.next_eq, he]
    omega
  have hepoch : msg.header.epoch = s.recvEpoch := UInt32.toNat.inj (by rw [g.epoch_eq, he])
  obtain ⟨s', hrun, hrec, honly⟩ := h.advanceLoop (n - s.recvMsgNum.toNat) (by rw [he]; have := g.num_lt; omega)
  unfold Ratchet.openAt
  rw [Window.receive_ahead hi, hgap, advanceRecvChain_run, g.msgNum_eq, hepoch, hrun]
  by_cases hok : (w.skip (n - s.recvMsgNum.toNat)).2 = true
  · have hnext := Window.skip_next _ _ hok
    have hs' : s'.recvEpoch = s.recvEpoch := by
      obtain ⟨_, _, _, rfl⟩ := honly
      rfl
    have hnum' : s'.recvMsgNum.toNat = n := by
      have h1 := hrec.next_eq
      rw [hnext, h.next_eq, hs'] at h1
      omega
    have hkey : messageKey P s'.recvChainKey = t.key P e n := by
      rw [hrec.chain_eq, hs', hnum', he]
      rfl
    refine ⟨Ratchet.takeKey P s', ?_, ?_, honly.trans ⟨_, _, _, rfl⟩⟩
    · simp only [hok, if_true]
      rw [hkey, g.aesOpen hP]
    · simp only [hok, if_true]
      exact hrec.takeKey (by rw [hnum', hs', he]; exact g.num_lt)
  · refine ⟨s', ?_, ?_, honly⟩
    · simp [hok]
    · simpa [hok] using hrec

theorem Receives.decrypt_current (h : Receives P t s w) (hP : P.aes.Correct)
    (g : Genuine P t e n msg plaintext) (he : s.recvEpoch.toNat = e) (hi : w.next ≤ t.start e + n) :
    ∃ s', (decrypt P msg).run s =
        (if (w.receive (t.start e + n)).2 then .ok plaintext s' else .error .tooManySkipped s') ∧
      Receives P t s' (w.receive (t.start e + n)).1 ∧ OnlyRecv s s' := by
  have hepoch : msg.header.epoch = s.recvEpoch := UInt32.toNat.inj (by rw [g.epoch_eq, he])
  have hlook : s.skippedKeys.lookup (skipKey msg.header.epoch msg.header.msgNum) = none :=
    h.lookup_ahead (by rw [g.epoch_eq, g.msgNum_eq]; exact hi)
  rw [Ratchet.decrypt_current hlook hepoch]
  exact h.openAt hP g he hi

theorem Receives.decrypt_blocked (h : Receives P t s w) (g : Genuine P t e n msg plaintext)
    (he : s.recvEpoch.toNat < e) (hn : n ≠ 0) : (decrypt P msg).run s = .error .missingKemCt s := by
  have hlt : s.recvEpoch.toNat < msg.header.epoch.toNat := by rw [g.epoch_eq]; exact he
  have hk : msg.header.kemCt = none := by
    have := mt g.kemCt_iff.mp (by omega)
    simpa using this
  exact decrypt_noKemCt (h.lookup_newer hlt) (UInt32.lt_iff_toNat_lt.mpr hlt) hk

/-- The first message of the next epoch: drain the current one, take the KEM step, open. -/
theorem Receives.decrypt_kem (h : Receives P t s w) (hP : P.aes.Correct)
    (g : Genuine P t e 0 msg plaintext) (he : e = s.recvEpoch.toNat + 1) {ct : C.Ct}
    (hct : msg.header.kemCt = some ct)
    (hchain : t.chain e = sendChain P (ratchetStep P s.rootKey (P.kem.decapsulate s.myRatchetKem.priv ct))) :
    ∃ s', (decrypt P msg).run s =
        (if (w.receive (t.start e)).2 then .ok plaintext s' else .error .tooManySkipped s') ∧
      Receives P t s' (w.receive (t.start e)).1 ∧
      (if (w.receive (t.start e)).2 then
        OnlyRecv (Ratchet.kemStepRecv P ct msg.header.senderRatchetPub msg.header.epoch s) s' else OnlyRecv s s') := by
  have hnewer : s.recvEpoch.toNat < msg.header.epoch.toNat := by rw [g.epoch_eq]; omega
  have hstart : t.start e = t.start s.recvEpoch.toNat + t.count s.recvEpoch.toNat := by rw [he]; rfl
  have hle : w.next ≤ t.start e := by
    rw [he]
    exact h.next_le
  have hgap : t.start e - w.next = t.count s.recvEpoch.toNat - s.recvMsgNum.toNat := by
    rw [h.next_eq, hstart]
    omega
  have hprev : msg.header.prevCount.toNat = t.count s.recvEpoch.toNat := by
    rw [g.prevCount_eq, he]
    rfl
  obtain ⟨s₁, hrun, hrec, honly⟩ := h.advanceLoop (t.count s.recvEpoch.toNat - s.recvMsgNum.toNat)
    (by have := h.num_le; omega)
  rw [Ratchet.decrypt_newEpoch (h.lookup_newer hnewer) (UInt32.lt_iff_toNat_lt.mpr hnewer) hct,
    advanceRecvChain_run, hprev, hrun, Window.receive_ahead hle, hgap]
  by_cases hok : (w.skip (t.count s.recvEpoch.toNat - s.recvMsgNum.toNat)).2 = true
  · have hnext := Window.skip_next _ _ hok
    obtain ⟨ck, num, sk, rfl⟩ := honly
    have hnum' : num.toNat = t.count s.recvEpoch.toNat := by
      have h1 := hrec.next_eq
      have h2 := h.num_le
      rw [hnext, h.next_eq] at h1
      simp only at h1
      omega
    have hkem := @Receives.kemStepRecv C P t _ _ hrec hnum' msg.header.epoch (by rw [g.epoch_eq, he]) ct msg.header.senderRatchetPub
      (by rw [g.epoch_eq]; exact hchain)
    have hw : (w.skip (t.count s.recvEpoch.toNat - s.recvMsgNum.toNat)).1.next = t.start e := by
      rw [hnext]
      omega
    obtain ⟨s', hopen, hrec', honly'⟩ := hkem.openAt hP g g.epoch_eq (by rw [hw]; exact le_refl _)
    -- nothing is left to skip: the window stands at the message
    have hread : (w.skip (t.count s.recvEpoch.toNat - s.recvMsgNum.toNat)).1.receive (t.start e + 0) =
        ((w.skip (t.count s.recvEpoch.toNat - s.recvMsgNum.toNat)).1.take, true) := by
      rw [Window.receive_ahead (by rw [hw]; exact le_refl _), hw]
      simp [Window.skip]
    rw [hread] at hopen hrec'
    refine ⟨s', ?_, ?_, ?_⟩
    · simp only [hok, if_true] at hopen ⊢
      exact hopen
    · simpa only [hok, if_true] using hrec'
    · simp only [hok, if_true]
      obtain ⟨ck', num', sk', rfl⟩ := honly'
      exact ⟨ck', num', sk', rfl⟩
  · refine ⟨s₁, ?_, ?_, ?_⟩
    · simp [hok]
    · simpa [hok] using hrec
    · simpa [hok] using honly

/-! ## What any message does to the sending half -/

section AnyMessage
variable {C : Carriers} {P : Primitives C} {s : State C} {msg : Message C}

/-- The state that a call leaves, whether it returns or throws. -/
def endState {α : Type} : EStateM.Result RatchetError (State C) α → State C
  | .ok _ s => s
  | .error _ s => s

/-- The sending half is as it was, or the next message starts a new chain. -/
def KeepsSending (s s' : State C) : Prop :=
  s'.needKemStep = true ∨ (s'.needKemStep = s.needKemStep ∧ s'.sendEpoch = s.sendEpoch ∧ s'.sendMsgNum = s.sendMsgNum ∧
    s'.sendChainKey = s.sendChainKey)

theorem OnlyRecv.keepsSending {s' : State C} (h : OnlyRecv s s') : KeepsSending s s' := by
  obtain ⟨_, _, _, rfl⟩ := h
  exact Or.inr ⟨rfl, rfl, rfl, rfl⟩

theorem onlyRecv_advanceLoop (epoch : UInt32) (n : ℕ) (s : State C) : OnlyRecv s (endState ((advanceLoop P epoch n).run s)) := by
  induction n generalizing s with
  | zero => exact OnlyRecv.refl s
  | succ n ih =>
    rw [advanceLoop_succ]
    split
    · exact OnlyRecv.refl s
    · exact (skipOne_onlyRecv P epoch s).trans (ih (skipOne P epoch s))

theorem endState_aesOpen (key : C.Key) (s : State C) : endState ((aesOpen P key msg).run s) = s := by
  rw [aesOpen_run]
  split
  · rfl
  · rfl

theorem onlyRecv_openAt (msg : Message C) (s : State C) : OnlyRecv s (endState (openAt P msg s)) := by
  have hadvance := onlyRecv_advanceLoop (P := P) msg.header.epoch (msg.header.msgNum.toNat - s.recvMsgNum.toNat) s
  unfold openAt
  rw [advanceRecvChain_run]
  cases hrun : (advanceLoop P msg.header.epoch (msg.header.msgNum.toNat - s.recvMsgNum.toNat)).run s with
  | error e s' =>
    rw [hrun] at hadvance
    exact hadvance
  | ok u s' =>
    rw [hrun] at hadvance
    dsimp only
    rw [endState_aesOpen]
    exact hadvance.trans ⟨_, _, _, rfl⟩

/-- Whatever the message is, and whether it is opened or not. -/
theorem keepsSending_decrypt (msg : Message C) (s : State C) : KeepsSending s (endState ((decrypt P msg).run s)) := by
  cases hc : s.skippedKeys.lookup (skipKey msg.header.epoch msg.header.msgNum) with
  | some mk =>
    rw [decrypt_cached hc, endState_aesOpen]
    exact Or.inr ⟨rfl, rfl, rfl, rfl⟩
  | none =>
    rcases lt_trichotomy msg.header.epoch.toNat s.recvEpoch.toNat with hpast | heq | hnew
    · rw [decrypt_past hc (UInt32.lt_iff_toNat_lt.mpr hpast)]
      exact (OnlyRecv.refl s).keepsSending
    · rw [decrypt_current hc (UInt32.toNat.inj heq)]
      exact (onlyRecv_openAt msg s).keepsSending
    · have hnew := UInt32.lt_iff_toNat_lt.mpr hnew
      cases hk : msg.header.kemCt with
      | none =>
        rw [decrypt_noKemCt hc hnew hk]
        exact (OnlyRecv.refl s).keepsSending
      | some ct =>
        have hadvance := onlyRecv_advanceLoop (P := P) s.recvEpoch (msg.header.prevCount.toNat - s.recvMsgNum.toNat) s
        rw [decrypt_newEpoch hc hnew hk, advanceRecvChain_run]
        cases hrun : (advanceLoop P s.recvEpoch (msg.header.prevCount.toNat - s.recvMsgNum.toNat)).run s with
        | error e s' =>
          rw [hrun] at hadvance
          exact hadvance.keepsSending
        | ok u s' =>
          obtain ⟨_, _, _, hend⟩ := onlyRecv_openAt (P := P) msg
            (kemStepRecv P ct msg.header.senderRatchetPub msg.header.epoch s')
          refine Or.inl ?_
          dsimp only
          rw [hend]
          rfl

end AnyMessage

end ScatterWeb.Ratchet
