import ScatterWeb.Ratchet.Model

/-! # How `decrypt` runs

One equation per branch of `decrypt`, so that no later proof unfolds it, and the closed form of the
skipping loop: with fresh slots it adds one cached key per turn, so it succeeds exactly when the
cache has room for all of them. -/
namespace ScatterWeb.Ratchet
open Crypto
set_option autoImplicit false
variable {C : Carriers} (P : Primitives C)

/-! ## Slots of the cache -/

theorem skipKey_toNat (e n : UInt32) : (skipKey e n).toNat = e.toNat * 2 ^ 32 + n.toNat := by
  have he := e.toNat_lt
  have hn := n.toNat_lt
  have hshift : (32 : UInt64).toNat % 64 = 32 := by decide
  simp only [skipKey, UInt64.toNat_or, UInt64.toNat_shiftLeft, UInt32.toNat_toUInt64]
  rw [hshift, Nat.mod_eq_of_lt (by rw [Nat.shiftLeft_eq]; omega),
    ← Nat.shiftLeft_add_eq_or_of_lt (by simpa using hn), Nat.shiftLeft_eq]

theorem skipKey_inj {e n e' n' : UInt32} : skipKey e n = skipKey e' n' ↔ e = e' ∧ n = n' := by
  constructor
  · intro h
    have h' := congrArg UInt64.toNat h
    rw [skipKey_toNat, skipKey_toNat] at h'
    have hn := n.toNat_lt
    have hn' := n'.toNat_lt
    exact ⟨UInt32.toNat.inj (by omega), UInt32.toNat.inj (by omega)⟩
  · rintro ⟨rfl, rfl⟩
    rfl

theorem toNat_succ {n : UInt32} (h : n.toNat + 1 < 2 ^ 32) : (n + 1).toNat = n.toNat + 1 := by
  rw [UInt32.toNat_add]
  exact Nat.mod_eq_of_lt h

theorem entries_insert_length {κ ν : Type} [DecidableEq κ] (m : AList (fun _ : κ => ν)) {k : κ} {v : ν}
    (h : k ∉ m) : (m.insert k v).entries.length = m.entries.length + 1 := by
  rw [AList.entries_insert_of_notMem h, List.length_cons]

theorem entries_erase_length {κ ν : Type} [DecidableEq κ] (m : AList (fun _ : κ => ν)) {k : κ}
    (h : k ∈ m) : (m.erase k).entries.length + 1 = m.entries.length := by
  have hk := congrArg List.length (AList.keys_erase k m)
  have hmem : k ∈ m.keys := h
  rw [List.length_erase_of_mem hmem] at hk
  have hpos : 0 < m.keys.length := List.length_pos_of_mem hmem
  simp only [AList.keys, List.keys, List.length_map] at hk hpos
  omega

/-! ## The skipping loop -/

@[simp] theorem advanceLoop_zero (epoch : UInt32) (s : State C) :
    (advanceLoop P epoch 0).run s = .ok () s := rfl

theorem advanceLoop_succ (epoch : UInt32) (n : ℕ) (s : State C) :
    (advanceLoop P epoch (n + 1)).run s =
      if maxSkippedKeys ≤ s.skippedKeys.entries.length then .error .tooManySkipped s
      else (advanceLoop P epoch n).run (skipOne P epoch s) := by
  simp only [advanceLoop, EStateM.run_bind, EStateM.run_get]
  split
  · rfl
  · simp

theorem advanceRecvChain_run (epoch target : UInt32) (s : State C) :
    (advanceRecvChain P epoch target).run s =
      (advanceLoop P epoch (target.toNat - s.recvMsgNum.toNat)).run s := by
  simp [advanceRecvChain]

/-- `advanceRecvChain` unfolds as the `while` of the source: test, size check, one turn, again. -/
theorem advanceRecvChain_while (epoch target : UInt32) (s : State C) :
    (advanceRecvChain P epoch target).run s =
      if s.recvMsgNum < target then
        if maxSkippedKeys ≤ s.skippedKeys.entries.length then .error .tooManySkipped s
        else (advanceRecvChain P epoch target).run (skipOne P epoch s)
      else .ok () s := by
  have ht := target.toNat_lt
  rw [advanceRecvChain_run]
  by_cases h : s.recvMsgNum < target
  · have hlt := UInt32.lt_iff_toNat_lt.mp h
    have hone : (skipOne P epoch s).recvMsgNum.toNat = s.recvMsgNum.toNat + 1 := toNat_succ (by omega)
    obtain ⟨n, hn⟩ : ∃ n, target.toNat - s.recvMsgNum.toNat = n + 1 := ⟨_, (Nat.succ_pred (by omega)).symm⟩
    rw [if_pos h, hn, advanceLoop_succ, advanceRecvChain_run, hone]
    have hn' : target.toNat - (s.recvMsgNum.toNat + 1) = n := by omega
    rw [hn']
  · have hle : target.toNat - s.recvMsgNum.toNat = 0 := by
      have := mt UInt32.lt_iff_toNat_lt.mpr h
      omega
    rw [if_neg h, hle, advanceLoop_zero]

/-- `n` turns of the loop, without the size check. -/
def skipMany (epoch : UInt32) : ℕ → State C → State C
  | 0, s => s
  | n + 1, s => skipMany epoch n (skipOne P epoch s)

def chainAt (P : Primitives C) (ck : C.Key) : ℕ → C.Key
  | 0 => ck
  | n + 1 => nextChainKey P (chainAt P ck n)

theorem chainAt_next (ck : C.Key) (n : ℕ) : chainAt P (nextChainKey P ck) n = chainAt P ck (n + 1) := by
  induction n with
  | zero => rfl
  | succ n ih =>
    rw [chainAt, ih]
    rfl

theorem skipMany_recvChainKey (epoch : UInt32) (n : ℕ) (s : State C) :
    (skipMany P epoch n s).recvChainKey = chainAt P s.recvChainKey n := by
  induction n generalizing s with
  | zero => rfl
  | succ n ih =>
    rw [skipMany, ih]
    exact chainAt_next P s.recvChainKey n

theorem skipMany_frame (epoch : UInt32) (n : ℕ) (s : State C) :
    (skipMany P epoch n s).rootKey = s.rootKey ∧ (skipMany P epoch n s).recvEpoch = s.recvEpoch ∧
      (skipMany P epoch n s).myRatchetKem = s.myRatchetKem := by
  induction n generalizing s with
  | zero => exact ⟨rfl, rfl, rfl⟩
  | succ n ih => exact ih (skipOne P epoch s)

/-- The slots the next `n` turns write to are not in the cache. -/
def FreshSlots (epoch : UInt32) (n : ℕ) (s : State C) : Prop :=
  s.recvMsgNum.toNat + n < 2 ^ 32 ∧
    ∀ num : UInt32, s.recvMsgNum.toNat ≤ num.toNat → num.toNat < s.recvMsgNum.toNat + n →
      skipKey epoch num ∉ s.skippedKeys

theorem FreshSlots.skipOne {epoch : UInt32} {n : ℕ} {s : State C} (h : FreshSlots epoch (n + 1) s) :
    FreshSlots epoch n (skipOne P epoch s) := by
  have hone : (Ratchet.skipOne P epoch s).recvMsgNum.toNat = s.recvMsgNum.toNat + 1 :=
    toNat_succ (by have := h.1; omega)
  refine ⟨by rw [hone]; have := h.1; omega, ?_⟩
  intro num hlo hhi hmem
  rw [hone] at hlo hhi
  rcases (AList.mem_insert _).mp hmem with heq | hold
  · have hnum := (skipKey_inj.mp heq).2
    rw [hnum] at hlo
    omega
  · exact h.2 num (by omega) (by omega) hold

theorem FreshSlots.size_skipOne {epoch : UInt32} {n : ℕ} {s : State C} (h : FreshSlots epoch (n + 1) s) :
    (Ratchet.skipOne P epoch s).skippedKeys.entries.length = s.skippedKeys.entries.length + 1 :=
  entries_insert_length _ (h.2 s.recvMsgNum (le_refl _) (by omega))

/-- Closed form of the loop on fresh slots, when there is room. -/
theorem advanceLoop_fits {epoch : UInt32} {n : ℕ} {s : State C} (hf : FreshSlots epoch n s)
    (hroom : s.skippedKeys.entries.length + n ≤ maxSkippedKeys) :
    (advanceLoop P epoch n).run s = .ok () (skipMany P epoch n s) := by
  induction n generalizing s with
  | zero => rfl
  | succ n ih =>
    have hsize := hf.size_skipOne P
    rw [advanceLoop_succ, if_neg (by omega)]
    exact ih (hf.skipOne P) (by omega)

/-- Closed form of the loop on fresh slots, when there is no room. -/
theorem advanceLoop_overflows {epoch : UInt32} {n : ℕ} {s : State C} (hf : FreshSlots epoch n s)
    (hsize : s.skippedKeys.entries.length ≤ maxSkippedKeys)
    (hroom : maxSkippedKeys < s.skippedKeys.entries.length + n) :
    ∃ s', (advanceLoop P epoch n).run s = .error .tooManySkipped s' := by
  induction n generalizing s with
  | zero => omega
  | succ n ih =>
    have hone := hf.size_skipOne P
    rw [advanceLoop_succ]
    by_cases hfull : maxSkippedKeys ≤ s.skippedKeys.entries.length
    · rw [if_pos hfull]
      exact ⟨s, rfl⟩
    · rw [if_neg hfull]
      exact ih (hf.skipOne P) (by omega) (by omega)

theorem skipMany_size {epoch : UInt32} {n : ℕ} {s : State C} (hf : FreshSlots epoch n s) :
    (skipMany P epoch n s).skippedKeys.entries.length = s.skippedKeys.entries.length + n := by
  induction n generalizing s with
  | zero => rfl
  | succ n ih =>
    have hone := hf.size_skipOne P
    rw [skipMany, ih (hf.skipOne P), hone]
    omega

theorem mem_skipMany {epoch : UInt32} {n : ℕ} {s : State C} {k : UInt64} (hf : FreshSlots epoch n s)
    (hk : k ∈ (skipMany P epoch n s).skippedKeys) :
    k ∈ s.skippedKeys ∨ ∃ num : UInt32, k = skipKey epoch num := by
  induction n generalizing s with
  | zero => exact Or.inl hk
  | succ n ih =>
    rcases ih (hf.skipOne P) hk with hold | hnew
    · rcases (AList.mem_insert _).mp hold with heq | hold
      · exact Or.inr ⟨_, heq⟩
      · exact Or.inl hold
    · exact Or.inr hnew

/-! ## The branches of `decrypt` -/

variable {P} {msg : Message C} {s : State C}

theorem aesOpen_run (key : C.Key) (s : State C) :
    (aesOpen P key msg).run s =
      match P.aes.decrypt key msg.nonce msg.ciphertext msg.tag [] with
      | some plaintext => .ok plaintext s
      | none => .error .authFailed s := by
  unfold aesOpen
  cases P.aes.decrypt key msg.nonce msg.ciphertext msg.tag [] <;> rfl

theorem decrypt_cached {mk : C.Key}
    (h : s.skippedKeys.lookup (skipKey msg.header.epoch msg.header.msgNum) = some mk) :
    (decrypt P msg).run s = (aesOpen P mk msg).run
      { s with skippedKeys := s.skippedKeys.erase (skipKey msg.header.epoch msg.header.msgNum) } := by
  simp [decrypt, h]

/-- The last part of `decrypt`: skip to the message, take its key, open it. -/
def openAt (P : Primitives C) (msg : Message C) (s : State C) : EStateM.Result RatchetError (State C) Bytes :=
  match (advanceRecvChain P msg.header.epoch msg.header.msgNum).run s with
  | .ok () s' => (aesOpen P (messageKey P s'.recvChainKey) msg).run (takeKey P s')
  | .error e s' => .error e s'

theorem decrypt_current (hc : s.skippedKeys.lookup (skipKey msg.header.epoch msg.header.msgNum) = none)
    (he : msg.header.epoch = s.recvEpoch) : (decrypt P msg).run s = openAt P msg s := by
  simp only [decrypt, decryptFresh, EStateM.run_bind, EStateM.run_get, hc, he, UInt32.lt_irrefl, if_false, openAt]
  cases (advanceRecvChain P s.recvEpoch msg.header.msgNum).run s <;> rfl

theorem decrypt_past (hc : s.skippedKeys.lookup (skipKey msg.header.epoch msg.header.msgNum) = none)
    (he : msg.header.epoch < s.recvEpoch) : (decrypt P msg).run s = .error .pastEpoch s := by
  have hnot : ¬ s.recvEpoch < msg.header.epoch := by
    rw [UInt32.lt_iff_toNat_lt] at he ⊢
    omega
  simp only [decrypt, decryptFresh, EStateM.run_bind, EStateM.run_get, hc, hnot, if_false, he,
    if_true]
  rfl

theorem decrypt_noKemCt (hc : s.skippedKeys.lookup (skipKey msg.header.epoch msg.header.msgNum) = none)
    (he : s.recvEpoch < msg.header.epoch) (hk : msg.header.kemCt = none) :
    (decrypt P msg).run s = .error .missingKemCt s := by
  simp only [decrypt, decryptFresh, EStateM.run_bind, EStateM.run_get, hc, he, if_true, hk]
  rfl

theorem decrypt_newEpoch {ct : C.Ct}
    (hc : s.skippedKeys.lookup (skipKey msg.header.epoch msg.header.msgNum) = none)
    (he : s.recvEpoch < msg.header.epoch) (hk : msg.header.kemCt = some ct) :
    (decrypt P msg).run s =
      match (advanceRecvChain P s.recvEpoch msg.header.prevCount).run s with
      | .ok () s' => openAt P msg (kemStepRecv P ct msg.header.senderRatchetPub msg.header.epoch s')
      | .error e s' => .error e s' := by
  simp only [decrypt, decryptFresh, EStateM.run_bind, EStateM.run_get, hc, he, if_true, hk, applyKemStepRecv]
  cases (advanceRecvChain P s.recvEpoch msg.header.prevCount).run s with
  | error e s' => rfl
  | ok u s' =>
    have hirr : (kemStepRecv P ct msg.header.senderRatchetPub msg.header.epoch s').recvEpoch = msg.header.epoch := rfl
    simp only [EStateM.run_modify, hirr, UInt32.lt_irrefl, if_false, EStateM.run_bind, openAt]
    cases (advanceRecvChain P msg.header.epoch msg.header.msgNum).run
      (kemStepRecv P ct msg.header.senderRatchetPub msg.header.epoch s') <;> rfl

/-! ## Messages that skip nothing -/

/-- The message is turned away before anything is changed. -/
def Rejected (s : State C) (msg : Message C) : Prop :=
  msg.header.epoch < s.recvEpoch ∨ (s.recvEpoch < msg.header.epoch ∧ msg.header.kemCt = none)

/-- The chain is not behind the message, and its next key opens it. -/
def OpensNext (P : Primitives C) (s : State C) (msg : Message C) : Prop :=
  msg.header.msgNum ≤ s.recvMsgNum ∧
    ∃ plaintext, P.aes.decrypt (messageKey P s.recvChainKey) msg.nonce msg.ciphertext msg.tag [] = some plaintext

/-- The message is the next one of its epoch, or the first one of a new epoch after all of the old one. -/
def NextInLine (P : Primitives C) (s : State C) (msg : Message C) : Prop :=
  (msg.header.epoch = s.recvEpoch ∧ OpensNext P s msg) ∨ ∃ ct, s.recvEpoch < msg.header.epoch ∧ msg.header.kemCt = some ct ∧
    msg.header.prevCount ≤ s.recvMsgNum ∧ OpensNext P (kemStepRecv P ct msg.header.senderRatchetPub msg.header.epoch s) msg

theorem decrypt_rejected (hc : s.skippedKeys.lookup (skipKey msg.header.epoch msg.header.msgNum) = none) (h : Rejected s msg) :
    ∃ e, (decrypt P msg).run s = .error e s := by
  rcases h with hpast | ⟨hnew, hnone⟩
  · exact ⟨_, decrypt_past hc hpast⟩
  · exact ⟨_, decrypt_noKemCt hc hnew hnone⟩

theorem advanceRecvChain_reached {epoch target : UInt32} (h : target ≤ s.recvMsgNum) :
    (advanceRecvChain P epoch target).run s = .ok () s := by
  have hturns : target.toNat - s.recvMsgNum.toNat = 0 := Nat.sub_eq_zero_of_le h
  rw [advanceRecvChain_run, hturns, advanceLoop_zero]

theorem openAt_of_opensNext (h : OpensNext P s msg) : ∃ plaintext, openAt P msg s = .ok plaintext (takeKey P s) := by
  obtain ⟨hreached, plaintext, hopen⟩ := h
  refine ⟨plaintext, ?_⟩
  unfold openAt
  rw [advanceRecvChain_reached hreached]
  dsimp only
  rw [aesOpen_run, hopen]

theorem decrypt_opened (hc : s.skippedKeys.lookup (skipKey msg.header.epoch msg.header.msgNum) = none)
    (he : msg.header.epoch = s.recvEpoch) (hreached : msg.header.msgNum ≤ s.recvMsgNum) {plaintext : Bytes}
    (hdec : P.aes.decrypt (messageKey P s.recvChainKey) msg.nonce msg.ciphertext msg.tag [] = some plaintext) :
    (decrypt P msg).run s = .ok plaintext (takeKey P s) := by
  rw [decrypt_current hc he]
  unfold openAt
  rw [advanceRecvChain_reached hreached]
  dsimp only
  rw [aesOpen_run, hdec]

/-- A message whose tag is wrong takes the key of the next one. -/
theorem decrypt_authFailed (hc : s.skippedKeys.lookup (skipKey msg.header.epoch msg.header.msgNum) = none)
    (he : msg.header.epoch = s.recvEpoch) (hreached : msg.header.msgNum ≤ s.recvMsgNum)
    (hdec : P.aes.decrypt (messageKey P s.recvChainKey) msg.nonce msg.ciphertext msg.tag [] = none) :
    (decrypt P msg).run s = .error .authFailed (takeKey P s) := by
  rw [decrypt_current hc he]
  unfold openAt
  rw [advanceRecvChain_reached hreached]
  dsimp only
  rw [aesOpen_run, hdec]

/-- A message that is next in line is opened and leaves no skipped keys. -/
theorem decrypt_nextInLine (hs : s.skippedKeys = ∅) (h : NextInLine P s msg) :
    ∃ plaintext s', (decrypt P msg).run s = .ok plaintext s' ∧ s'.skippedKeys = ∅ := by
  have hc : s.skippedKeys.lookup (skipKey msg.header.epoch msg.header.msgNum) = none := by
    rw [hs, AList.lookup_empty]
  rcases h with ⟨hepoch, hopens⟩ | ⟨ct, hnew, hct, hdrained, hopens⟩
  · obtain ⟨plaintext, hopen⟩ := openAt_of_opensNext hopens
    exact ⟨plaintext, takeKey P s, (decrypt_current hc hepoch).trans hopen, hs⟩
  · obtain ⟨plaintext, hopen⟩ := openAt_of_opensNext hopens
    refine ⟨plaintext, takeKey P (kemStepRecv P ct msg.header.senderRatchetPub msg.header.epoch s), ?_, hs⟩
    rw [decrypt_newEpoch hc hnew hct, advanceRecvChain_reached hdrained]
    exact hopen

end ScatterWeb.Ratchet
