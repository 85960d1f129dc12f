import Mathlib.Data.Finset.Card
import Mathlib.Order.Interval.Finset.Nat
import ScatterWeb.Ratchet.HeaderForgery

/-! # What an exception of `decrypt` leaves behind

`decrypt` works on the state itself and throws at five places. At two of them, a past epoch and a missing KEM ciphertext, nothing was changed yet; a
full cache stops the skipping loop after any number of turns; an authentication failure comes after the key was taken. Here, for
any state, however it came about: when a message is opened, and from that exactly when an exception leaves the state as it was. -/
namespace ScatterWeb.Ratchet
open Crypto Lib
set_option autoImplicit false
variable {C : Carriers} (P : Primitives C)

/-! ## Room in the cache -/

/-- How many of the slots `lo`, …, `lo + n - 1` of an epoch are not in the cache. A turn for a slot that is there replaces its key. -/
def unseen (s : State C) (epoch : UInt32) (lo n : ℕ) : ℕ :=
  ((Finset.Ico lo (lo + n)).filter (fun j => skipKey epoch (UInt32.ofNat j) ∉ s.skippedKeys)).card

/-- The size check passes before each of the `n` turns, with `used` further keys in the cache. -/
def Fits (s : State C) (used : ℕ) (epoch : UInt32) (lo n : ℕ) : Prop :=
  ∀ i < n, s.skippedKeys.entries.length + used + unseen s epoch lo i < maxSkippedKeys

theorem toNat_ofNat {j : ℕ} (h : j < 2 ^ 32) : (UInt32.ofNat j).toNat = j := by
  rw [UInt32.toNat_ofNat']
  exact Nat.mod_eq_of_lt h

theorem entries_insert_length_of_mem {κ ν : Type} [DecidableEq κ] (m : AList (fun _ : κ => ν)) {k : κ} {v : ν}
    (h : k ∈ m) : (m.insert k v).entries.length = m.entries.length := by
  have herase := entries_erase_length m h
  rw [AList.entries_insert, List.length_cons]
  exact herase

theorem unseen_zero (s : State C) (epoch : UInt32) (lo : ℕ) : unseen s epoch lo 0 = 0 := by
  simp [unseen]

theorem unseen_succ (s : State C) (epoch : UInt32) (lo n : ℕ) :
    unseen s epoch lo (n + 1) =
      (if skipKey epoch (UInt32.ofNat lo) ∉ s.skippedKeys then 1 else 0) + unseen s epoch (lo + 1) n := by
  have hsplit : Finset.Ico lo (lo + (n + 1)) = insert lo (Finset.Ico (lo + 1) (lo + 1 + n)) := by
    ext j
    simp only [Finset.mem_Ico, Finset.mem_insert]
    omega
  unfold unseen
  rw [hsplit, Finset.filter_insert]
  by_cases hmem : skipKey epoch (UInt32.ofNat lo) ∉ s.skippedKeys
  · rw [if_pos hmem, if_pos hmem, Finset.card_insert_of_notMem (by simp), Nat.add_comm]
  · rw [if_neg hmem, if_neg hmem, Nat.zero_add]

theorem unseen_congr {s s' : State C} {epoch : UInt32} {lo n : ℕ}
    (h : ∀ j, lo ≤ j → j < lo + n → (skipKey epoch (UInt32.ofNat j) ∈ s'.skippedKeys ↔ skipKey epoch (UInt32.ofNat j) ∈ s.skippedKeys)) :
    unseen s' epoch lo n = unseen s epoch lo n := by
  unfold unseen
  congr 1
  apply Finset.filter_congr
  intro j hj
  rw [Finset.mem_Ico] at hj
  rw [h j hj.1 hj.2]

/-- One turn takes the first slot off the count, and puts it into the cache. -/
theorem size_skipOne (epoch : UInt32) (s : State C) (n : ℕ) (hn : s.recvMsgNum.toNat + n + 1 < 2 ^ 32) :
    (skipOne P epoch s).skippedKeys.entries.length + unseen (skipOne P epoch s) epoch (s.recvMsgNum.toNat + 1) n =
      s.skippedKeys.entries.length + unseen s epoch s.recvMsgNum.toNat (n + 1) := by
  have hlater : unseen (skipOne P epoch s) epoch (s.recvMsgNum.toNat + 1) n = unseen s epoch (s.recvMsgNum.toNat + 1) n := by
    apply unseen_congr
    intro j hlo hhi
    have hne : skipKey epoch (UInt32.ofNat j) ≠ skipKey epoch s.recvMsgNum := by
      intro heq
      have hnum := congrArg UInt32.toNat (skipKey_inj.mp heq).2
      rw [toNat_ofNat (by omega)] at hnum
      omega
    exact (AList.mem_insert _).trans (or_iff_right hne)
  rw [unseen_succ, hlater, UInt32.ofNat_toNat, ← Nat.add_assoc]
  congr 1
  by_cases hmem : skipKey epoch s.recvMsgNum ∈ s.skippedKeys
  · rw [if_neg (not_not.mpr hmem)]
    exact entries_insert_length_of_mem _ hmem
  · rw [if_pos hmem]
    exact entries_insert_length _ hmem

theorem fits_succ (epoch : UInt32) (s : State C) (n : ℕ) (hn : s.recvMsgNum.toNat + n + 1 < 2 ^ 32) :
    Fits s 0 epoch s.recvMsgNum.toNat (n + 1) ↔
      s.skippedKeys.entries.length < maxSkippedKeys ∧ Fits (skipOne P epoch s) 0 epoch (s.recvMsgNum.toNat + 1) n := by
  constructor
  · intro h
    refine ⟨?_, ?_⟩
    · have h0 := h 0 (by omega)
      rwa [unseen_zero] at h0
    · intro i hi
      have hsize := size_skipOne P epoch s i (by omega)
      have hi' := h (i + 1) (by omega)
      omega
  · rintro ⟨h0, h⟩ i hi
    cases i with
    | zero =>
      rw [unseen_zero]
      exact h0
    | succ i =>
      have hsize := size_skipOne P epoch s i (by omega)
      have hi' := h i (by omega)
      omega

/-! ## The skipping loop, from any state -/

theorem skipMany_recvMsgNum (epoch : UInt32) (n : ℕ) (s : State C) (hn : s.recvMsgNum.toNat + n < 2 ^ 32) :
    (skipMany P epoch n s).recvMsgNum.toNat = s.recvMsgNum.toNat + n := by
  induction n generalizing s with
  | zero => rfl
  | succ n ih =>
    have hone : (skipOne P epoch s).recvMsgNum.toNat = s.recvMsgNum.toNat + 1 := toNat_succ (by omega)
    rw [skipMany, ih _ (by omega), hone]
    omega

theorem skipMany_length (epoch : UInt32) (n : ℕ) (s : State C) (hn : s.recvMsgNum.toNat + n < 2 ^ 32) :
    (skipMany P epoch n s).skippedKeys.entries.length = s.skippedKeys.entries.length + unseen s epoch s.recvMsgNum.toNat n := by
  induction n generalizing s with
  | zero => rw [unseen_zero]; rfl
  | succ n ih =>
    have hone : (skipOne P epoch s).recvMsgNum.toNat = s.recvMsgNum.toNat + 1 := toNat_succ (by omega)
    rw [skipMany, ih _ (by omega), hone]
    exact size_skipOne P epoch s n (by omega)

/-- The slots of another epoch stay as they are. -/
theorem mem_skipMany_of_ne {epoch epoch' : UInt32} (hne : epoch' ≠ epoch) (num : UInt32) (n : ℕ) (s : State C) :
    skipKey epoch' num ∈ (skipMany P epoch n s).skippedKeys ↔ skipKey epoch' num ∈ s.skippedKeys := by
  induction n generalizing s with
  | zero => exact Iff.rfl
  | succ n ih =>
    rw [skipMany, ih]
    refine (AList.mem_insert _).trans (or_iff_right ?_)
    intro heq
    exact hne (skipKey_inj.mp heq).1

/-- The loop ends where its count says, or throws after some turns; after none of them if the cache is full to begin with. -/
theorem advanceLoop_cases (epoch : UInt32) (n : ℕ) (s : State C) (hn : s.recvMsgNum.toNat + n < 2 ^ 32) :
    (Fits s 0 epoch s.recvMsgNum.toNat n ∧ (advanceLoop P epoch n).run s = .ok () (skipMany P epoch n s)) ∨
      (¬Fits s 0 epoch s.recvMsgNum.toNat n ∧ ∃ i < n, (advanceLoop P epoch n).run s = .error .tooManySkipped (skipMany P epoch i s) ∧
        (i = 0 ↔ maxSkippedKeys ≤ s.skippedKeys.entries.length)) := by
  induction n generalizing s with
  | zero => exact Or.inl ⟨fun i hi => absurd hi (Nat.not_lt_zero i), rfl⟩
  | succ n ih =>
    have hone : (skipOne P epoch s).recvMsgNum.toNat = s.recvMsgNum.toNat + 1 := toNat_succ (by omega)
    rw [fits_succ P epoch s n (by omega), advanceLoop_succ]
    by_cases hfull : maxSkippedKeys ≤ s.skippedKeys.entries.length
    · rw [if_pos hfull]
      exact Or.inr ⟨fun h => absurd h.1 (by omega), 0, by omega, rfl, iff_of_true rfl hfull⟩
    · rw [if_neg hfull]
      have hrest := ih (skipOne P epoch s) (by omega)
      rw [hone] at hrest
      rcases hrest with ⟨hfits, hrun⟩ | ⟨hnot, i, hi, hrun, _⟩
      · exact Or.inl ⟨⟨by omega, hfits⟩, hrun⟩
      · exact Or.inr ⟨fun h => hnot h.2, i + 1, by omega, hrun, iff_of_false (by omega) hfull⟩

/-- The slots that are in the cache already are at most as many as the cache has. -/
theorem le_unseen (s : State C) (epoch : UInt32) (lo n : ℕ) (hn : lo + n ≤ 2 ^ 32) :
    n ≤ unseen s epoch lo n + s.skippedKeys.entries.length := by
  have hseen : ((Finset.Ico lo (lo + n)).filter (fun j => ¬skipKey epoch (UInt32.ofNat j) ∉ s.skippedKeys)).card ≤
      s.skippedKeys.keys.toFinset.card := by
    apply Finset.card_le_card_of_injOn (fun j => skipKey epoch (UInt32.ofNat j))
    · intro j hj
      simp only [Finset.coe_filter, Finset.mem_Ico, not_not, Set.mem_ofPred_eq] at hj
      rw [Finset.mem_coe, List.mem_toFinset]
      exact hj.2
    · intro j hj j' hj' heq
      simp only [Finset.coe_filter, Finset.mem_Ico, Set.mem_ofPred_eq] at hj hj'
      have hnum := congrArg UInt32.toNat (skipKey_inj.mp heq).2
      rwa [toNat_ofNat (by omega), toNat_ofNat (by omega)] at hnum
  have hkeys : s.skippedKeys.keys.toFinset.card = s.skippedKeys.entries.length := by
    rw [List.toFinset_card_of_nodup s.skippedKeys.keys_nodup, AList.keys, List.keys, List.length_map]
  have hsplit := Finset.card_filter_add_card_filter_not (s := Finset.Ico lo (lo + n)) (fun j => skipKey epoch (UInt32.ofNat j) ∉ s.skippedKeys)
  rw [Nat.card_Ico] at hsplit
  unfold unseen
  omega

/-- So the loop does not get far. -/
theorem Fits.le {s : State C} {used : ℕ} {epoch : UInt32} {lo n : ℕ} (h : Fits s used epoch lo n) (hn : lo + n ≤ 2 ^ 32) :
    n ≤ maxSkippedKeys := by
  cases n with
  | zero => exact Nat.zero_le _
  | succ n =>
    have hlast := h n (by omega)
    have hseen := le_unseen s epoch lo n (by omega)
    omega

/-! ## The last part of `decrypt` -/

variable {P} {msg : Message C} {s : State C}

def gap (target : UInt32) (s : State C) : ℕ := target.toNat - s.recvMsgNum.toNat

theorem gap_lt (target : UInt32) (s : State C) : s.recvMsgNum.toNat + gap target s < 2 ^ 32 := by
  have h1 := target.toNat_lt
  have h2 := s.recvMsgNum.toNat_lt
  unfold gap
  omega

/-- The message is opened, or its key is taken for nothing, or the loop stops before. -/
theorem openAt_cases (msg : Message C) (s : State C) :
    (Fits s 0 msg.header.epoch s.recvMsgNum.toNat (gap msg.header.msgNum s) ∧
      ((Opens P (messageKey P (chainAt P s.recvChainKey (gap msg.header.msgNum s))) msg ∧ ∃ plaintext, openAt P msg s =
          .ok plaintext (takeKey P (skipMany P msg.header.epoch (gap msg.header.msgNum s) s))) ∨
        (¬Opens P (messageKey P (chainAt P s.recvChainKey (gap msg.header.msgNum s))) msg ∧ openAt P msg s =
          .error .authFailed (takeKey P (skipMany P msg.header.epoch (gap msg.header.msgNum s) s))))) ∨
      (¬Fits s 0 msg.header.epoch s.recvMsgNum.toNat (gap msg.header.msgNum s) ∧ ∃ i < gap msg.header.msgNum s,
        openAt P msg s = .error .tooManySkipped (skipMany P msg.header.epoch i s) ∧
          (i = 0 ↔ maxSkippedKeys ≤ s.skippedKeys.entries.length)) := by
  have hloop := advanceLoop_cases P msg.header.epoch (gap msg.header.msgNum s) s (gap_lt _ s)
  unfold openAt
  rw [advanceRecvChain_run]
  rcases hloop with ⟨hfits, hrun⟩ | ⟨hnot, i, hi, hrun, hfull⟩
  · refine Or.inl ⟨hfits, ?_⟩
    rw [show msg.header.msgNum.toNat - s.recvMsgNum.toNat = gap msg.header.msgNum s from rfl, hrun]
    dsimp only
    rw [aesOpen_run, skipMany_recvChainKey]
    unfold Opens
    cases P.aes.decrypt (messageKey P (chainAt P s.recvChainKey (gap msg.header.msgNum s))) msg.nonce msg.ciphertext msg.tag [] with
    | some plaintext => exact Or.inl ⟨rfl, plaintext, rfl⟩
    | none => exact Or.inr ⟨by simp, rfl⟩
  · refine Or.inr ⟨hnot, i, hi, ?_, hfull⟩
    rw [show msg.header.msgNum.toNat - s.recvMsgNum.toNat = gap msg.header.msgNum s from rfl, hrun]

theorem skipMany_eq_self_iff (epoch : UInt32) {i : ℕ} (hi : s.recvMsgNum.toNat + i < 2 ^ 32) : skipMany P epoch i s = s ↔ i = 0 := by
  constructor
  · intro h
    have hnum := skipMany_recvMsgNum P epoch i s hi
    rw [h] at hnum
    omega
  · rintro rfl
    rfl

/-- A key that was taken is missed: the counter has moved on, by less than once around. -/
theorem takeKey_skipMany_ne (epoch : UInt32) {n : ℕ} (hfits : Fits s 0 epoch s.recvMsgNum.toNat n) (hn : s.recvMsgNum.toNat + n < 2 ^ 32) :
    takeKey P (skipMany P epoch n s) ≠ s := by
  intro h
  have hle : n ≤ 100 := hfits.le (by omega)
  have hnum := skipMany_recvMsgNum P epoch n s hn
  have hnext : (skipMany P epoch n s).recvMsgNum + 1 = s.recvMsgNum := congrArg State.recvMsgNum h
  have hnat := congrArg UInt32.toNat hnext
  have hlt := s.recvMsgNum.toNat_lt
  rw [UInt32.toNat_add, hnum] at hnat
  have hone : (1 : UInt32).toNat = 1 := rfl
  rw [hone] at hnat
  omega

/-! ## Exceptions that leave no trace -/

/-- The message is opened: with a cached key, along the current chain, or after a KEM step. -/
inductive Openable (P : Primitives C) (s : State C) (msg : Message C) : Prop
  | cached (mk : C.Key) (slot : s.skippedKeys.lookup (skipKey msg.header.epoch msg.header.msgNum) = some mk) (opens : Opens P mk msg)
  | current (slot : s.skippedKeys.lookup (skipKey msg.header.epoch msg.header.msgNum) = none) (epoch : msg.header.epoch = s.recvEpoch)
      (room : Fits s 0 s.recvEpoch s.recvMsgNum.toNat (gap msg.header.msgNum s))
      (opens : Opens P (messageKey P (chainAt P s.recvChainKey (gap msg.header.msgNum s))) msg)
  | newEpoch (ct : C.Ct) (slot : s.skippedKeys.lookup (skipKey msg.header.epoch msg.header.msgNum) = none)
      (newer : s.recvEpoch < msg.header.epoch) (kemCt : msg.header.kemCt = some ct)
      (drain : Fits s 0 s.recvEpoch s.recvMsgNum.toNat (gap msg.header.prevCount s))
      (room : Fits s (unseen s s.recvEpoch s.recvMsgNum.toNat (gap msg.header.prevCount s)) msg.header.epoch 0 msg.header.msgNum.toNat)
      (opens : Opens P (messageKey P (chainAt P (sendChain P (ratchetStep P s.rootKey (P.kem.decapsulate s.myRatchetKem.priv ct)))
        msg.header.msgNum.toNat)) msg)

/-- `decrypt` throws before its first assignment: the message is turned away, or a key would have to be skipped and the cache is full. -/
inductive StopsAtOnce (s : State C) (msg : Message C) : Prop
  | rejected (slot : s.skippedKeys.lookup (skipKey msg.header.epoch msg.header.msgNum) = none) (turned : Rejected s msg)
  | full (slot : s.skippedKeys.lookup (skipKey msg.header.epoch msg.header.msgNum) = none) (epoch : msg.header.epoch = s.recvEpoch)
      (ahead : s.recvMsgNum < msg.header.msgNum) (size : maxSkippedKeys ≤ s.skippedKeys.entries.length)
  | fullDrain (slot : s.skippedKeys.lookup (skipKey msg.header.epoch msg.header.msgNum) = none)
      (newer : s.recvEpoch < msg.header.epoch) (kemCt : msg.header.kemCt.isSome) (ahead : s.recvMsgNum < msg.header.prevCount)
      (size : maxSkippedKeys ≤ s.skippedKeys.entries.length)

/-- If `decrypt` throws, the state is as before. -/
def FailureAtomic (P : Primitives C) (s : State C) (msg : Message C) : Prop :=
  ∀ e s', (decrypt P msg).run s = .error e s' → s' = s

theorem failureAtomic_of_ok {plaintext : Bytes} {s' : State C} (h : (decrypt P msg).run s = .ok plaintext s') : FailureAtomic P s msg := by
  intro e s'' herr
  rw [h] at herr
  cases herr

theorem failureAtomic_of_error {e : RatchetError} {s' : State C} (h : (decrypt P msg).run s = .error e s') :
    FailureAtomic P s msg ↔ s' = s := by
  constructor
  · intro hatomic
    exact hatomic e s' h
  · intro heq e' s'' herr
    rw [h] at herr
    cases herr
    exact heq

/-- A cached key is erased before it is tried. -/
theorem failureAtomic_cached {mk : C.Key} (hc : s.skippedKeys.lookup (skipKey msg.header.epoch msg.header.msgNum) = some mk) :
    FailureAtomic P s msg ↔ Opens P mk msg := by
  have hrun := decrypt_cached (P := P) hc
  rw [aesOpen_run] at hrun
  unfold Opens
  cases hdec : P.aes.decrypt mk msg.nonce msg.ciphertext msg.tag [] with
  | some plaintext =>
    rw [hdec] at hrun
    exact iff_of_true (failureAtomic_of_ok hrun) rfl
  | none =>
    rw [hdec] at hrun
    rw [failureAtomic_of_error hrun]
    refine iff_of_false ?_ (by simp)
    intro heq
    have hlookup := congrArg (fun st => st.skippedKeys.lookup (skipKey msg.header.epoch msg.header.msgNum)) heq
    dsimp only at hlookup
    rw [AList.lookup_erase, hc] at hlookup
    cases hlookup

theorem failureAtomic_current (hc : s.skippedKeys.lookup (skipKey msg.header.epoch msg.header.msgNum) = none)
    (he : msg.header.epoch = s.recvEpoch) :
    FailureAtomic P s msg ↔
      (Fits s 0 s.recvEpoch s.recvMsgNum.toNat (gap msg.header.msgNum s) ∧
        Opens P (messageKey P (chainAt P s.recvChainKey (gap msg.header.msgNum s))) msg) ∨
      (s.recvMsgNum < msg.header.msgNum ∧ maxSkippedKeys ≤ s.skippedKeys.entries.length) := by
  have hlt := gap_lt msg.header.msgNum s
  have hrun := decrypt_current (P := P) hc he
  have hcases := openAt_cases (P := P) msg s
  rw [← hrun, he] at hcases
  -- a full cache stops the loop, so the two conditions exclude each other
  have hahead : s.recvMsgNum < msg.header.msgNum ↔ 0 < gap msg.header.msgNum s := by
    rw [UInt32.lt_iff_toNat_lt]
    unfold gap
    omega
  rcases hcases with ⟨hfits, ⟨hopens, plaintext, hok⟩ | ⟨hnot, herr⟩⟩ | ⟨hfull, i, hi, herr, hzero⟩
  · exact iff_of_true (failureAtomic_of_ok hok) (Or.inl ⟨hfits, hopens⟩)
  · rw [failureAtomic_of_error herr]
    refine iff_of_false (takeKey_skipMany_ne _ hfits hlt) ?_
    rintro (⟨_, hopens⟩ | ⟨hlate, hsize⟩)
    · exact hnot hopens
    · have h0 := hfits 0 (hahead.mp hlate)
      omega
  · rw [failureAtomic_of_error herr, skipMany_eq_self_iff _ (by omega), hzero]
    constructor
    · intro hsize
      exact Or.inr ⟨hahead.mpr (by omega), hsize⟩
    · rintro (⟨hfits, _⟩ | ⟨_, hsize⟩)
      · exact absurd hfits hfull
      · exact hsize

/-- The state in which the chain of a new epoch begins. -/
def drained (P : Primitives C) (msg : Message C) (ct : C.Ct) (s : State C) : State C :=
  kemStepRecv P ct msg.header.senderRatchetPub msg.header.epoch (skipMany P s.recvEpoch (gap msg.header.prevCount s) s)

theorem drained_recvChainKey (ct : C.Ct) : (drained P msg ct s).recvChainKey =
    sendChain P (ratchetStep P s.rootKey (P.kem.decapsulate s.myRatchetKem.priv ct)) := by
  obtain ⟨hroot, _, hkem⟩ := skipMany_frame P s.recvEpoch (gap msg.header.prevCount s) s
  change sendChain P (ratchetStep P (skipMany P _ _ s).rootKey (P.kem.decapsulate (skipMany P _ _ s).myRatchetKem.priv ct)) = _
  rw [hroot, hkem]

theorem fits_drained (ct : C.Ct) (hnewer : s.recvEpoch < msg.header.epoch) (n : ℕ) :
    Fits (drained P msg ct s) 0 msg.header.epoch 0 n ↔
      Fits s (unseen s s.recvEpoch s.recvMsgNum.toNat (gap msg.header.prevCount s)) msg.header.epoch 0 n := by
  have hsize : (drained P msg ct s).skippedKeys.entries.length =
      s.skippedKeys.entries.length + unseen s s.recvEpoch s.recvMsgNum.toNat (gap msg.header.prevCount s) :=
    skipMany_length P s.recvEpoch _ s (gap_lt _ s)
  have hne : msg.header.epoch ≠ s.recvEpoch := by
    intro heq
    rw [heq] at hnewer
    exact absurd hnewer (UInt32.lt_irrefl _)
  have hunseen : ∀ i, unseen (drained P msg ct s) msg.header.epoch 0 i = unseen s msg.header.epoch 0 i := by
    intro i
    apply unseen_congr
    intro j _ _
    exact mem_skipMany_of_ne P hne _ _ s
  unfold Fits
  simp only [hsize, hunseen, Nat.add_zero]

theorem openAt_error_recvEpoch {e : RatchetError} {s' : State C} (h : openAt P msg s = .error e s') : s'.recvEpoch = s.recvEpoch := by
  rcases openAt_cases (P := P) msg s with ⟨_, ⟨_, plaintext, hok⟩ | ⟨_, herr⟩⟩ | ⟨_, i, _, herr, _⟩
  · rw [hok] at h
    cases h
  · rw [herr] at h
    cases h
    exact (skipMany_frame P _ _ s).2.1
  · rw [herr] at h
    cases h
    exact (skipMany_frame P _ _ s).2.1

theorem failureAtomic_newEpoch {ct : C.Ct} (hc : s.skippedKeys.lookup (skipKey msg.header.epoch msg.header.msgNum) = none)
    (hnewer : s.recvEpoch < msg.header.epoch) (hk : msg.header.kemCt = some ct) :
    FailureAtomic P s msg ↔
      (Fits s 0 s.recvEpoch s.recvMsgNum.toNat (gap msg.header.prevCount s) ∧
        Fits s (unseen s s.recvEpoch s.recvMsgNum.toNat (gap msg.header.prevCount s)) msg.header.epoch 0 msg.header.msgNum.toNat ∧
        Opens P (messageKey P (chainAt P (sendChain P (ratchetStep P s.rootKey (P.kem.decapsulate s.myRatchetKem.priv ct)))
          msg.header.msgNum.toNat)) msg) ∨
      (s.recvMsgNum < msg.header.prevCount ∧ maxSkippedKeys ≤ s.skippedKeys.entries.length) := by
  have hlt := gap_lt msg.header.prevCount s
  have hahead : s.recvMsgNum < msg.header.prevCount ↔ 0 < gap msg.header.prevCount s := by
    rw [UInt32.lt_iff_toNat_lt]
    unfold gap
    omega
  have hrun := decrypt_newEpoch (P := P) hc hnewer hk
  rw [advanceRecvChain_run, show msg.header.prevCount.toNat - s.recvMsgNum.toNat = gap msg.header.prevCount s from rfl] at hrun
  rcases advanceLoop_cases P s.recvEpoch (gap msg.header.prevCount s) s hlt with ⟨hdrain, hloop⟩ | ⟨hnot, i, hi, hloop, hzero⟩
  · rw [hloop] at hrun
    change _ = openAt P msg (drained P msg ct s) at hrun
    have hcases := openAt_cases (P := P) msg (drained P msg ct s)
    rw [← hrun, show gap msg.header.msgNum (drained P msg ct s) = msg.header.msgNum.toNat from Nat.sub_zero _,
      show (drained P msg ct s).recvMsgNum.toNat = 0 from rfl, fits_drained ct hnewer, drained_recvChainKey] at hcases
    have hearly : ¬(s.recvMsgNum < msg.header.prevCount ∧ maxSkippedKeys ≤ s.skippedKeys.entries.length) := by
      rintro ⟨hlate, hsize⟩
      have h0 := hdrain 0 (hahead.mp hlate)
      omega
    -- once the step is made, the epoch tells
    have hmoved : ∀ e s', (decrypt P msg).run s = .error e s' → s' ≠ s := by
      rintro e s' herr rfl
      rw [hrun] at herr
      have hepoch : s'.recvEpoch = msg.header.epoch := openAt_error_recvEpoch herr
      rw [hepoch] at hnewer
      exact absurd hnewer (UInt32.lt_irrefl _)
    rcases hcases with ⟨hfits, ⟨hopens, plaintext, hok⟩ | ⟨hnot, herr⟩⟩ | ⟨hfull, i, hi, herr, _⟩
    · exact iff_of_true (failureAtomic_of_ok hok) (Or.inl ⟨hdrain, hfits, hopens⟩)
    · rw [failureAtomic_of_error herr]
      exact iff_of_false (hmoved _ _ herr) (not_or.mpr ⟨fun h => hnot h.2.2, hearly⟩)
    · rw [failureAtomic_of_error herr]
      exact iff_of_false (hmoved _ _ herr) (not_or.mpr ⟨fun h => hfull h.2.1, hearly⟩)
  · rw [hloop] at hrun
    rw [failureAtomic_of_error hrun, skipMany_eq_self_iff _ (by omega), hzero]
    constructor
    · intro hsize
      exact Or.inr ⟨hahead.mpr (by omega), hsize⟩
    · rintro (⟨hdrain, _⟩ | ⟨_, hsize⟩)
      · exact absurd hdrain hnot
      · exact hsize

/-! ## The condition, branch by branch -/

theorem spared_cached_iff {mk : C.Key} (hc : s.skippedKeys.lookup (skipKey msg.header.epoch msg.header.msgNum) = some mk) :
    Openable P s msg ∨ StopsAtOnce s msg ↔ Opens P mk msg := by
  constructor
  · rintro (hopen | hstop)
    · cases hopen with
      | cached mk' hslot hopens =>
        rw [hc] at hslot
        cases hslot
        exact hopens
      | current hslot => simp [hc] at hslot
      | newEpoch ct hslot => simp [hc] at hslot
    · cases hstop with
      | rejected hslot => simp [hc] at hslot
      | full hslot => simp [hc] at hslot
      | fullDrain hslot => simp [hc] at hslot
  · intro hopens
    exact Or.inl (.cached mk hc hopens)

theorem spared_current_iff (hc : s.skippedKeys.lookup (skipKey msg.header.epoch msg.header.msgNum) = none)
    (he : msg.header.epoch = s.recvEpoch) :
    Openable P s msg ∨ StopsAtOnce s msg ↔
      (Fits s 0 s.recvEpoch s.recvMsgNum.toNat (gap msg.header.msgNum s) ∧
        Opens P (messageKey P (chainAt P s.recvChainKey (gap msg.header.msgNum s))) msg) ∨
      (s.recvMsgNum < msg.header.msgNum ∧ maxSkippedKeys ≤ s.skippedKeys.entries.length) := by
  have hnewer : ¬s.recvEpoch < msg.header.epoch := by
    rw [he]
    exact UInt32.lt_irrefl _
  have hpast : ¬msg.header.epoch < s.recvEpoch := by
    rw [he]
    exact UInt32.lt_irrefl _
  constructor
  · rintro (hopen | hstop)
    · cases hopen with
      | cached mk hslot => simp [hc] at hslot
      | current _ _ hroom hopens => exact Or.inl ⟨hroom, hopens⟩
      | newEpoch ct _ h => exact absurd h hnewer
    · cases hstop with
      | rejected _ hturned => exact absurd hturned (not_or.mpr ⟨hpast, fun h => hnewer h.1⟩)
      | full _ _ hlate hsize => exact Or.inr ⟨hlate, hsize⟩
      | fullDrain _ h => exact absurd h hnewer
  · rintro (⟨hroom, hopens⟩ | ⟨hlate, hsize⟩)
    · exact Or.inl (.current hc he hroom hopens)
    · exact Or.inr (.full hc he hlate hsize)

theorem spared_newEpoch_iff {ct : C.Ct} (hc : s.skippedKeys.lookup (skipKey msg.header.epoch msg.header.msgNum) = none)
    (hnewer : s.recvEpoch < msg.header.epoch) (hk : msg.header.kemCt = some ct) :
    Openable P s msg ∨ StopsAtOnce s msg ↔
      (Fits s 0 s.recvEpoch s.recvMsgNum.toNat (gap msg.header.prevCount s) ∧
        Fits s (unseen s s.recvEpoch s.recvMsgNum.toNat (gap msg.header.prevCount s)) msg.header.epoch 0 msg.header.msgNum.toNat ∧
        Opens P (messageKey P (chainAt P (sendChain P (ratchetStep P s.rootKey (P.kem.decapsulate s.myRatchetKem.priv ct)))
          msg.header.msgNum.toNat)) msg) ∨
      (s.recvMsgNum < msg.header.prevCount ∧ maxSkippedKeys ≤ s.skippedKeys.entries.length) := by
  have hnotCur : msg.header.epoch ≠ s.recvEpoch := by
    intro heq
    rw [heq] at hnewer
    exact absurd hnewer (UInt32.lt_irrefl _)
  constructor
  · rintro (hopen | hstop)
    · cases hopen with
      | cached mk hslot => simp [hc] at hslot
      | current _ hcur => exact absurd hcur hnotCur
      | newEpoch ct' _ _ hct hdrain hroom hopens =>
        rw [hk] at hct
        cases hct
        exact Or.inl ⟨hdrain, hroom, hopens⟩
    · cases hstop with
      | rejected _ hturned =>
        rcases hturned with hpast | ⟨_, hnone⟩
        · exact absurd (UInt32.lt_trans hpast hnewer) (UInt32.lt_irrefl _)
        · simp [hk] at hnone
      | full _ hcur => exact absurd hcur hnotCur
      | fullDrain _ _ _ hlate hsize => exact Or.inr ⟨hlate, hsize⟩
  · rintro (⟨hdrain, hroom, hopens⟩ | ⟨hlate, hsize⟩)
    · exact Or.inl (.newEpoch ct hc hnewer hk hdrain hroom hopens)
    · exact Or.inr (.fullDrain hc hnewer (by rw [hk]; rfl) hlate hsize)

theorem failureAtomic_rejected (hc : s.skippedKeys.lookup (skipKey msg.header.epoch msg.header.msgNum) = none) (h : Rejected s msg) :
    FailureAtomic P s msg := by
  obtain ⟨e, hrun⟩ := decrypt_rejected (P := P) hc h
  rw [failureAtomic_of_error hrun]

/-- An exception leaves the state as it was exactly when there is none, or when it comes before the first assignment. -/
theorem decrypt_failureAtomic_iff (P : Primitives C) (s : State C) (msg : Message C) :
    FailureAtomic P s msg ↔ Openable P s msg ∨ StopsAtOnce s msg := by
  cases hc : s.skippedKeys.lookup (skipKey msg.header.epoch msg.header.msgNum) with
  | some mk => rw [failureAtomic_cached hc, spared_cached_iff hc]
  | none =>
    rcases Nat.lt_trichotomy msg.header.epoch.toNat s.recvEpoch.toNat with hpast | hcur | hnewer
    · have hturned : Rejected s msg := Or.inl (UInt32.lt_iff_toNat_lt.mpr hpast)
      exact iff_of_true (failureAtomic_rejected hc hturned) (Or.inr (.rejected hc hturned))
    · have he := UInt32.toNat.inj hcur
      rw [failureAtomic_current hc he, spared_current_iff hc he]
    · have hlt := UInt32.lt_iff_toNat_lt.mpr hnewer
      cases hk : msg.header.kemCt with
      | none =>
        have hturned : Rejected s msg := Or.inr ⟨hlt, hk⟩
        exact iff_of_true (failureAtomic_rejected hc hturned) (Or.inr (.rejected hc hturned))
      | some ct => rw [failureAtomic_newEpoch hc hlt hk, spared_newEpoch_iff hc hlt hk]

/-! ## A message that arrives twice -/

/-- Alice writes twice. -/
def noteOne : State symbols × Message symbols := encrypt symbolic (demo.alice symbolic).state (demoCoins 0) [1]

def noteTwo : State symbols × Message symbols := encrypt symbolic noteOne.1 (demoCoins 1) [2]

/-- Bob after the first message. -/
def bobReading : State symbols := takeKey symbolic (demo.bob symbolic)

/-- The first message comes again, cannot be opened, and takes the key of the second with it. -/
theorem not_failureAtomic_noteOne :
    ¬(∀ (s : State symbols) (msg : Message symbols), FailureAtomic symbolic s msg) ∧
      (decrypt symbolic noteOne.2).run (demo.bob symbolic) = .ok [1] bobReading ∧
      Accepted ((decrypt symbolic noteTwo.2).run bobReading) ∧
      ∃ e s', (decrypt symbolic noteOne.2).run bobReading = .error e s' ∧ ¬Accepted ((decrypt symbolic noteTwo.2).run s') := by
  have hreplay : (decrypt symbolic noteOne.2).run bobReading = .error .authFailed (takeKey symbolic bobReading) := rfl
  have hsecond : (decrypt symbolic noteTwo.2).run bobReading = .ok [2] (takeKey symbolic bobReading) := rfl
  have hlost : (decrypt symbolic noteTwo.2).run (takeKey symbolic bobReading) =
      .error .authFailed (takeKey symbolic (takeKey symbolic bobReading)) := rfl
  refine ⟨?_, rfl, ⟨_, _, hsecond⟩, _, _, hreplay, ?_⟩
  · intro h
    have hsame := h bobReading noteOne.2 _ _ hreplay
    have hnum := congrArg State.recvMsgNum hsame
    exact absurd hnum (by decide)
  · rw [hlost]
    exact not_accepted_error _ _

end ScatterWeb.Ratchet
