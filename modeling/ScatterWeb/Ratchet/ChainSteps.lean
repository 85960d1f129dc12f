import ScatterWeb.Lib.Counted
import ScatterWeb.Ratchet.Atomicity

/-! # How much work a message can cause

`countedDecrypt` is `decrypt` with a count of the steps of the receiving chain. Every step but the last of a call writes a slot of the cache,
no two the same one: the numbers of an epoch go up within a call, and the drain before a KEM step is of another epoch. So the steps of a call are at
most one more than what the cache holds after it, and the check before each of them keeps that bounded. -/
namespace ScatterWeb.Ratchet
open Crypto Lib CountedM
set_option autoImplicit false
variable {C : Carriers} (P : Primitives C)

/-! ## Counting -/

def countedLoop (epoch : UInt32) : ℕ → CountedM RatchetError (State C) Unit
  | 0 => pure ()
  | n + 1 => do
    let s ← uncounted get
    if maxSkippedKeys ≤ s.skippedKeys.entries.length then throw .tooManySkipped
    uncounted (set (skipOne P epoch s))
    tick
    countedLoop epoch n

def countedRecvChain (epoch targetMsgNum : UInt32) : CountedM RatchetError (State C) Unit := do
  let s ← uncounted get
  countedLoop P epoch (targetMsgNum.toNat - s.recvMsgNum.toNat)

def countedKemStepRecv (kemCt : C.Ct) (senderPub : C.Pub) (newEpoch prevCount : UInt32) : CountedM RatchetError (State C) Unit := do
  let s ← uncounted get
  countedRecvChain P s.recvEpoch prevCount
  uncounted (modify (kemStepRecv P kemCt senderPub newEpoch))

/-- The part of `decrypt` after the KEM step. -/
def countedOpen (msg : Message C) : CountedM RatchetError (State C) Bytes := do
  let s ← uncounted get
  if msg.header.epoch < s.recvEpoch then throw .pastEpoch
  countedRecvChain P msg.header.epoch msg.header.msgNum
  let s ← uncounted get
  uncounted (set (takeKey P s))
  tick
  uncounted (aesOpen P (messageKey P s.recvChainKey) msg)

def countedDecryptFresh (msg : Message C) : CountedM RatchetError (State C) Bytes := do
  let hdr := msg.header
  let s ← uncounted get
  if s.recvEpoch < hdr.epoch then
    match hdr.kemCt with
    | none => throw .missingKemCt
    | some kemCt => countedKemStepRecv P kemCt hdr.senderRatchetPub hdr.epoch hdr.prevCount
  countedOpen P msg

/-- `decrypt`, counting the calls of `chain_step` on the receiving chain. -/
def countedDecrypt (msg : Message C) : CountedM RatchetError (State C) Bytes := do
  let s ← uncounted get
  let slot := skipKey msg.header.epoch msg.header.msgNum
  match s.skippedKeys.lookup slot with
  | some mk =>
    uncounted (set { s with skippedKeys := s.skippedKeys.erase slot })
    uncounted (aesOpen P mk msg)
  | none => countedDecryptFresh P msg

/-- The steps of the receiving chain in one call. -/
def chainSteps (msg : Message C) (s : State C) : ℕ := count ((countedDecrypt P msg).run (s, 0))

theorem countedLoop_succ (epoch : UInt32) (n : ℕ) (s : State C) (k : ℕ) : (countedLoop P epoch (n + 1)).run (s, k) =
    if maxSkippedKeys ≤ s.skippedKeys.entries.length then .error .tooManySkipped (s, k)
    else (countedLoop P epoch n).run (skipOne P epoch s, k + 1) := by
  rw [countedLoop, run_get_bind]
  split
  · rfl
  · rw [run_set_bind, run_tick_bind]

/-- The turns of the loop until it ends or throws. -/
def turns (epoch : UInt32) : ℕ → State C → ℕ
  | 0, _ => 0
  | n + 1, s => if maxSkippedKeys ≤ s.skippedKeys.entries.length then 0 else turns epoch n (skipOne P epoch s) + 1

theorem countedLoop_run (epoch : UInt32) (n : ℕ) (s : State C) (k : ℕ) :
    (countedLoop P epoch n).run (s, k) = withCount (k + turns P epoch n s) ((advanceLoop P epoch n).run s) := by
  induction n generalizing s k with
  | zero => rfl
  | succ n ih =>
    rw [countedLoop_succ, advanceLoop_succ, turns]
    split
    · rfl
    · rw [ih, Nat.add_right_comm, Nat.add_assoc]

theorem countedRecvChain_run (epoch target : UInt32) (s : State C) (k : ℕ) : (countedRecvChain P epoch target).run (s, k) =
    withCount (k + turns P epoch (gap target s) s) ((advanceRecvChain P epoch target).run s) := by
  rw [advanceRecvChain_run]
  exact countedLoop_run P epoch (gap target s) s k

/-- The steps of the last part of `decrypt`: those of the loop, and that of the message. -/
def openSteps (msg : Message C) (s : State C) : ℕ :=
  match (advanceRecvChain P msg.header.epoch msg.header.msgNum).run s with
  | .ok _ _ => turns P msg.header.epoch (gap msg.header.msgNum s) s + 1
  | .error _ _ => turns P msg.header.epoch (gap msg.header.msgNum s) s

variable {P} {msg : Message C} {s : State C}

theorem countedOpen_run (he : msg.header.epoch = s.recvEpoch) (k : ℕ) :
    (countedOpen P msg).run (s, k) = withCount (k + openSteps P msg s) (openAt P msg s) := by
  have hchain := countedRecvChain_run P msg.header.epoch msg.header.msgNum s k
  rw [countedOpen, run_get_bind, if_neg (he ▸ UInt32.lt_irrefl _)]
  unfold openSteps openAt
  cases hrun : (advanceRecvChain P msg.header.epoch msg.header.msgNum).run s with
  | ok u s' =>
    rw [hrun] at hchain
    exact run_bind_of_ok hchain
  | error e s' =>
    rw [hrun] at hchain
    exact run_bind_of_error hchain

/-! ## The branches -/

theorem countedDecrypt_cached {mk : C.Key} (h : s.skippedKeys.lookup (skipKey msg.header.epoch msg.header.msgNum) = some mk) (k : ℕ) :
    (countedDecrypt P msg).run (s, k) = withCount k ((decrypt P msg).run s) := by
  rw [decrypt_cached h, countedDecrypt, run_get_bind]
  dsimp only
  rw [h]
  rfl

theorem countedDecrypt_fresh (h : s.skippedKeys.lookup (skipKey msg.header.epoch msg.header.msgNum) = none) (k : ℕ) :
    (countedDecrypt P msg).run (s, k) = (countedDecryptFresh P msg).run (s, k) := by
  rw [countedDecrypt, run_get_bind]
  dsimp only
  rw [h]

theorem countedDecrypt_current (h : s.skippedKeys.lookup (skipKey msg.header.epoch msg.header.msgNum) = none)
    (he : msg.header.epoch = s.recvEpoch) (k : ℕ) :
    (countedDecrypt P msg).run (s, k) = withCount (k + openSteps P msg s) ((decrypt P msg).run s) := by
  have hnot : ¬s.recvEpoch < msg.header.epoch := he ▸ UInt32.lt_irrefl _
  rw [decrypt_current h he, countedDecrypt_fresh h, countedDecryptFresh, run_get_bind, if_neg hnot]
  exact countedOpen_run he k

theorem countedDecrypt_past (h : s.skippedKeys.lookup (skipKey msg.header.epoch msg.header.msgNum) = none)
    (he : msg.header.epoch < s.recvEpoch) (k : ℕ) : (countedDecrypt P msg).run (s, k) = withCount k ((decrypt P msg).run s) := by
  have hnot : ¬s.recvEpoch < msg.header.epoch := by
    rw [UInt32.lt_iff_toNat_lt] at he ⊢
    omega
  rw [decrypt_past h he, countedDecrypt_fresh h, countedDecryptFresh, run_get_bind, if_neg hnot]
  change (countedOpen P msg).run (s, k) = _
  rw [countedOpen, run_get_bind, if_pos he]
  rfl

theorem countedDecrypt_noKemCt (h : s.skippedKeys.lookup (skipKey msg.header.epoch msg.header.msgNum) = none)
    (he : s.recvEpoch < msg.header.epoch) (hk : msg.header.kemCt = none) (k : ℕ) :
    (countedDecrypt P msg).run (s, k) = withCount k ((decrypt P msg).run s) := by
  rw [decrypt_noKemCt h he hk, countedDecrypt_fresh h, countedDecryptFresh, run_get_bind, if_pos he, hk]
  rfl

/-- The steps of a call that drains the old epoch first. -/
def drainSteps (P : Primitives C) (msg : Message C) (ct : C.Ct) (s : State C) : ℕ :=
  match (advanceRecvChain P s.recvEpoch msg.header.prevCount).run s with
  | .ok _ s' => turns P s.recvEpoch (gap msg.header.prevCount s) s +
      openSteps P msg (kemStepRecv P ct msg.header.senderRatchetPub msg.header.epoch s')
  | .error _ _ => turns P s.recvEpoch (gap msg.header.prevCount s) s

theorem countedDecrypt_newEpoch {ct : C.Ct} (h : s.skippedKeys.lookup (skipKey msg.header.epoch msg.header.msgNum) = none)
    (he : s.recvEpoch < msg.header.epoch) (hk : msg.header.kemCt = some ct) (k : ℕ) :
    (countedDecrypt P msg).run (s, k) = withCount (k + drainSteps P msg ct s) ((decrypt P msg).run s) := by
  have hchain := countedRecvChain_run P s.recvEpoch msg.header.prevCount s k
  rw [decrypt_newEpoch h he hk, countedDecrypt_fresh h, countedDecryptFresh, run_get_bind, if_pos he, hk]
  unfold drainSteps
  cases hrun : (advanceRecvChain P s.recvEpoch msg.header.prevCount).run s with
  | ok u s' =>
    rw [hrun] at hchain
    have hepoch : msg.header.epoch = (kemStepRecv P ct msg.header.senderRatchetPub msg.header.epoch s').recvEpoch := rfl
    have hopen := countedOpen_run (P := P) hepoch (k + turns P s.recvEpoch (gap msg.header.prevCount s) s)
    rw [Nat.add_assoc] at hopen
    have hkem : (countedKemStepRecv P ct msg.header.senderRatchetPub msg.header.epoch msg.header.prevCount).run (s, k) =
        withCount (k + turns P s.recvEpoch (gap msg.header.prevCount s) s)
          (.ok ⟨⟩ (kemStepRecv P ct msg.header.senderRatchetPub msg.header.epoch s')) := by
      rw [countedKemStepRecv, run_get_bind, run_bind_of_ok hchain]
      rfl
    exact (run_bind_of_ok hkem).trans hopen
  | error e s' =>
    rw [hrun] at hchain
    have hkem : (countedKemStepRecv P ct msg.header.senderRatchetPub msg.header.epoch msg.header.prevCount).run (s, k) =
        withCount (k + turns P s.recvEpoch (gap msg.header.prevCount s) s) (.error e s') := by
      rw [countedKemStepRecv, run_get_bind, run_bind_of_error hchain]
    exact run_bind_of_error hkem

/-- The counted call is the call, with a count. -/
theorem countedDecrypt_run (msg : Message C) (s : State C) :
    ∀ k, (countedDecrypt P msg).run (s, k) = withCount (k + chainSteps P msg s) ((decrypt P msg).run s) := by
  suffices h : ∃ n, ∀ k, (countedDecrypt P msg).run (s, k) = withCount (k + n) ((decrypt P msg).run s) by
    obtain ⟨n, hn⟩ := h
    intro k
    rw [chainSteps, hn 0, count_withCount, Nat.zero_add, hn k]
  cases hc : s.skippedKeys.lookup (skipKey msg.header.epoch msg.header.msgNum) with
  | some mk => exact ⟨0, countedDecrypt_cached hc⟩
  | none =>
    rcases lt_trichotomy msg.header.epoch.toNat s.recvEpoch.toNat with hpast | heq | hnew
    · exact ⟨0, countedDecrypt_past hc (UInt32.lt_iff_toNat_lt.mpr hpast)⟩
    · exact ⟨_, countedDecrypt_current hc (UInt32.toNat.inj heq)⟩
    · have hlt := UInt32.lt_iff_toNat_lt.mpr hnew
      cases hk : msg.header.kemCt with
      | none => exact ⟨0, countedDecrypt_noKemCt hc hlt hk⟩
      | some ct => exact ⟨_, countedDecrypt_newEpoch hc hlt hk⟩

/-! ## Slots written in one call -/

/-- The slots of an epoch from one number on. -/
def slotsFrom (epoch : UInt32) (lo m : ℕ) : List UInt64 := (List.range m).map (fun i => skipKey epoch (UInt32.ofNat (lo + i)))

theorem slotsFrom_length (epoch : UInt32) (lo m : ℕ) : (slotsFrom epoch lo m).length = m := by
  rw [slotsFrom, List.length_map, List.length_range]

theorem slotsFrom_nodup (epoch : UInt32) (lo m : ℕ) (h : lo + m ≤ 2 ^ 32) : (slotsFrom epoch lo m).Nodup := by
  refine List.nodup_range.map_on ?_
  intro i hi j hj heq
  rw [List.mem_range] at hi hj
  have hnum := congrArg UInt32.toNat (skipKey_inj.mp heq).2
  rw [toNat_ofNat (by omega), toNat_ofNat (by omega)] at hnum
  omega

theorem mem_skipMany_of_mem (epoch : UInt32) (n : ℕ) {k : UInt64} (h : k ∈ s.skippedKeys) : k ∈ (skipMany P epoch n s).skippedKeys := by
  induction n generalizing s with
  | zero => exact h
  | succ n ih => exact ih ((AList.mem_insert _).mpr (.inr h))

/-- Each turn writes the slot of its number. -/
theorem mem_skipMany_of_slotsFrom (epoch : UInt32) {n : ℕ} (hn : s.recvMsgNum.toNat + n ≤ 2 ^ 32) {k : UInt64}
    (hk : k ∈ slotsFrom epoch s.recvMsgNum.toNat n) : k ∈ (skipMany P epoch n s).skippedKeys := by
  obtain ⟨i, hi, rfl⟩ := List.mem_map.mp hk
  rw [List.mem_range] at hi
  clear hk
  induction n generalizing s i with
  | zero => omega
  | succ n ih =>
    cases i with
    | zero =>
      refine mem_skipMany_of_mem epoch n ((AList.mem_insert _).mpr (.inl ?_))
      rw [Nat.add_zero, UInt32.ofNat_toNat]
    | succ i =>
      have hone : (skipOne P epoch s).recvMsgNum.toNat = s.recvMsgNum.toNat + 1 := toNat_succ (by omega)
      have hrest := ih (s := skipOne P epoch s) (by omega) i (by omega)
      rw [hone, Nat.add_assoc, Nat.add_comm 1 i] at hrest
      exact hrest

/-- A cache has at least as many keys as it has slots of a list without repetitions. -/
theorem length_le_size {l : List UInt64} (hl : l.Nodup) (h : ∀ k ∈ l, k ∈ s.skippedKeys) : l.length ≤ s.skippedKeys.entries.length := by
  have hkeys : s.skippedKeys.keys.length = s.skippedKeys.entries.length := List.length_map _
  rw [← hkeys]
  exact (List.subperm_of_subset hl h).length_le

/-! ## The cache stays bounded -/

/-- The cache is no larger than it may be. -/
def Bounded (s : State C) : Prop := s.skippedKeys.entries.length ≤ maxSkippedKeys

theorem entries_insert_length_le {κ ν : Type} [DecidableEq κ] (m : AList (fun _ : κ => ν)) (k : κ) (v : ν) :
    (m.insert k v).entries.length ≤ m.entries.length + 1 := by
  by_cases h : k ∈ m
  · rw [entries_insert_length_of_mem m h]
    exact Nat.le_succ _
  · rw [entries_insert_length m h]

theorem turns_le (epoch : UInt32) (n : ℕ) (s : State C) : turns P epoch n s ≤ n := by
  induction n generalizing s with
  | zero => exact le_rfl
  | succ n ih =>
    rw [turns]
    split
    · exact Nat.zero_le _
    · exact Nat.succ_le_succ (ih _)

theorem endState_advanceLoop (epoch : UInt32) (n : ℕ) (s : State C) :
    endState ((advanceLoop P epoch n).run s) = skipMany P epoch (turns P epoch n s) s := by
  induction n generalizing s with
  | zero => rfl
  | succ n ih =>
    rw [advanceLoop_succ, turns]
    split
    · rfl
    · exact ih (skipOne P epoch s)

/-- The check before each turn leaves room for it. -/
theorem Bounded.advanceLoop (h : Bounded s) (epoch : UInt32) (n : ℕ) : Bounded (endState ((advanceLoop P epoch n).run s)) := by
  induction n generalizing s with
  | zero => exact h
  | succ n ih =>
    rw [advanceLoop_succ]
    split
    · exact h
    · rename_i hroom
      refine ih ?_
      have hle := entries_insert_length_le s.skippedKeys (skipKey epoch s.recvMsgNum) (messageKey P s.recvChainKey)
      unfold Bounded
      change ((s.skippedKeys.insert _ _).entries).length ≤ _
      omega

theorem Bounded.advanceRecvChain (h : Bounded s) (epoch target : UInt32) : Bounded (endState ((advanceRecvChain P epoch target).run s)) := by
  rw [advanceRecvChain_run]
  exact h.advanceLoop epoch _

theorem endState_advanceRecvChain (epoch target : UInt32) (s : State C) :
    endState ((advanceRecvChain P epoch target).run s) = skipMany P epoch (turns P epoch (gap target s) s) s := by
  rw [advanceRecvChain_run]
  exact endState_advanceLoop epoch _ s

theorem endState_openAt (msg : Message C) (s : State C) : (endState (openAt P msg s)).skippedKeys =
    (endState ((advanceRecvChain P msg.header.epoch msg.header.msgNum).run s)).skippedKeys := by
  unfold openAt
  cases (advanceRecvChain P msg.header.epoch msg.header.msgNum).run s with
  | ok u s' =>
    dsimp only
    rw [endState_aesOpen]
    rfl
  | error e s' => rfl

theorem Bounded.openAt (h : Bounded s) (msg : Message C) : Bounded (endState (openAt P msg s)) := by
  unfold Bounded
  rw [endState_openAt]
  exact h.advanceRecvChain msg.header.epoch msg.header.msgNum

theorem openSteps_le (msg : Message C) (s : State C) : openSteps P msg s ≤ turns P msg.header.epoch (gap msg.header.msgNum s) s + 1 := by
  unfold openSteps
  split
  · exact le_rfl
  · exact Nat.le_succ _

/-- Every turn of the loop has left a slot behind. -/
theorem mem_endState_advanceRecvChain {epoch target : UInt32} {k : UInt64}
    (hk : k ∈ slotsFrom epoch s.recvMsgNum.toNat (turns P epoch (gap target s) s)) :
    k ∈ (endState ((Ratchet.advanceRecvChain P epoch target).run s)).skippedKeys := by
  have hlt := gap_lt target s
  have hle := turns_le (P := P) epoch (gap target s) s
  rw [endState_advanceRecvChain]
  exact mem_skipMany_of_slotsFrom epoch (by omega) hk

/-- What a call leaves: a cache that is no larger than it may be, and than which there were at most one step more. -/
structure Spends (s' : State C) (n : ℕ) : Prop where
  bounded : Bounded s'
  steps : n ≤ s'.skippedKeys.entries.length + 1

theorem spends_openAt (h : Bounded s) (msg : Message C) : Spends (endState (openAt P msg s)) (openSteps P msg s) where
  bounded := h.openAt msg
  steps := by
    have hlt := gap_lt msg.header.msgNum s
    have hle := turns_le (P := P) msg.header.epoch (gap msg.header.msgNum s) s
    have hsteps := openSteps_le (P := P) msg s
    have hsize := length_le_size (s := endState (openAt P msg s))
      (slotsFrom_nodup msg.header.epoch s.recvMsgNum.toNat (turns P msg.header.epoch (gap msg.header.msgNum s) s) (by omega)) ?_
    · rw [slotsFrom_length] at hsize
      omega
    · intro k hk
      rw [endState_openAt]
      exact mem_endState_advanceRecvChain hk

/-- The slots of the drain are of another epoch than those of the gap, and both are in the cache in the end. -/
theorem spends_newEpoch {ct : C.Ct} (h : Bounded s) (hc : s.skippedKeys.lookup (skipKey msg.header.epoch msg.header.msgNum) = none)
    (he : s.recvEpoch < msg.header.epoch) (hk : msg.header.kemCt = some ct) :
    Spends (endState ((decrypt P msg).run s)) (drainSteps P msg ct s) := by
  have hbounded := h.advanceRecvChain (P := P) s.recvEpoch msg.header.prevCount
  have hdrained : ∀ k ∈ slotsFrom s.recvEpoch s.recvMsgNum.toNat (turns P s.recvEpoch (gap msg.header.prevCount s) s), k ∈ _ :=
    fun k hk => mem_endState_advanceRecvChain (P := P) hk
  have hlt := gap_lt msg.header.prevCount s
  have hle := turns_le (P := P) s.recvEpoch (gap msg.header.prevCount s) s
  have hnodup := slotsFrom_nodup s.recvEpoch s.recvMsgNum.toNat (turns P s.recvEpoch (gap msg.header.prevCount s) s) (by omega)
  rw [decrypt_newEpoch hc he hk]
  unfold drainSteps
  cases hrun : (advanceRecvChain P s.recvEpoch msg.header.prevCount).run s with
  | error e s' =>
    rw [hrun] at hbounded hdrained
    have hsize := length_le_size hnodup hdrained
    rw [slotsFrom_length] at hsize
    exact ⟨hbounded, hsize.trans (Nat.le_succ _)⟩
  | ok u s' =>
    rw [hrun] at hbounded hdrained
    dsimp only
    -- The KEM step leaves the cache as it is and starts the numbers of the new epoch at zero.
    let s₁ := kemStepRecv P ct msg.header.senderRatchetPub msg.header.epoch s'
    have hbounded₁ : Bounded s₁ := hbounded
    refine ⟨hbounded₁.openAt msg, ?_⟩
    have hlt₁ := gap_lt msg.header.msgNum s₁
    have hle₁ := turns_le (P := P) msg.header.epoch (gap msg.header.msgNum s₁) s₁
    have hsteps := openSteps_le (P := P) msg s₁
    have hnodup₁ := slotsFrom_nodup msg.header.epoch s₁.recvMsgNum.toNat (turns P msg.header.epoch (gap msg.header.msgNum s₁) s₁) (by omega)
    have hboth : (slotsFrom s.recvEpoch s.recvMsgNum.toNat (turns P s.recvEpoch (gap msg.header.prevCount s) s) ++
        slotsFrom msg.header.epoch s₁.recvMsgNum.toNat (turns P msg.header.epoch (gap msg.header.msgNum s₁) s₁)).Nodup := by
      refine hnodup.append hnodup₁ ?_
      intro k hk hk'
      obtain ⟨i, _, rfl⟩ := List.mem_map.mp hk
      obtain ⟨j, _, heq⟩ := List.mem_map.mp hk'
      rw [(skipKey_inj.mp heq).1] at he
      exact UInt32.lt_irrefl _ he
    have hsize := length_le_size (s := endState (openAt P msg s₁)) hboth ?_
    · rw [List.length_append, slotsFrom_length, slotsFrom_length] at hsize
      change _ + openSteps P msg s₁ ≤ (endState (openAt P msg s₁)).skippedKeys.entries.length + 1
      omega
    · intro k hk
      rw [endState_openAt]
      obtain hold | hnew := List.mem_append.mp hk
      · rw [endState_advanceRecvChain]
        exact mem_skipMany_of_mem (s := s₁) msg.header.epoch _ (hdrained k hold)
      · exact mem_endState_advanceRecvChain hnew

theorem spends_decrypt (h : Bounded s) (msg : Message C) : Spends (endState ((decrypt P msg).run s)) (chainSteps P msg s) := by
  cases hc : s.skippedKeys.lookup (skipKey msg.header.epoch msg.header.msgNum) with
  | some mk =>
    have hmem : skipKey msg.header.epoch msg.header.msgNum ∈ s.skippedKeys := AList.lookup_isSome.mp (by rw [hc]; rfl)
    have hsize := entries_erase_length s.skippedKeys hmem
    rw [chainSteps, countedDecrypt_cached hc, count_withCount, decrypt_cached hc, endState_aesOpen]
    refine ⟨?_, Nat.zero_le _⟩
    unfold Bounded at *
    change (s.skippedKeys.erase _).entries.length ≤ _
    omega
  | none =>
    rcases lt_trichotomy msg.header.epoch.toNat s.recvEpoch.toNat with hpast | heq | hnew
    · have hlt := UInt32.lt_iff_toNat_lt.mpr hpast
      rw [chainSteps, countedDecrypt_past hc hlt, count_withCount, decrypt_past hc hlt]
      exact ⟨h, Nat.zero_le _⟩
    · have hepoch := UInt32.toNat.inj heq
      rw [chainSteps, countedDecrypt_current hc hepoch, count_withCount, decrypt_current hc hepoch, Nat.zero_add]
      exact spends_openAt h msg
    · have hlt := UInt32.lt_iff_toNat_lt.mpr hnew
      cases hk : msg.header.kemCt with
      | none =>
        rw [chainSteps, countedDecrypt_noKemCt hc hlt hk, count_withCount, decrypt_noKemCt hc hlt hk]
        exact ⟨h, Nat.zero_le _⟩
      | some ct =>
        rw [chainSteps, countedDecrypt_newEpoch hc hlt hk, count_withCount, Nat.zero_add]
        exact spends_newEpoch h hc hlt hk

/-! ## Runs -/

/-- The arguments of the two initialisers. -/
inductive Beginning (C : Carriers)
  | sender (peerPrekeyPub myKeyBPub peerKeyBPub : C.Pub) (encapCoin keygenCoin : C.Coin)
  | receiver (myPrekeyPriv : C.Priv) (prekeyCt : C.Ct) (senderKeyBPub myKeyBPub senderRatchetPub : C.Pub) (keygenCoin : C.Coin)

def Beginning.state (P : Primitives C) : Beginning C → State C
  | .sender peerPrekeyPub myKeyBPub peerKeyBPub encapCoin keygenCoin =>
    (initAsSender P peerPrekeyPub myKeyBPub peerKeyBPub encapCoin keygenCoin).state
  | .receiver myPrekeyPriv prekeyCt senderKeyBPub myKeyBPub senderRatchetPub keygenCoin =>
    initAsReceiver P myPrekeyPriv prekeyCt senderKeyBPub myKeyBPub senderRatchetPub keygenCoin

/-- A call, with any message at all, that returns or throws. -/
inductive Call (C : Carriers)
  | encrypt (coins : Coins C) (plaintext : Bytes)
  | decrypt (msg : Message C)

def Call.run (P : Primitives C) (s : State C) : Call C → State C
  | .encrypt coins plaintext => (Ratchet.encrypt P s coins plaintext).1
  | .decrypt msg => endState ((Ratchet.decrypt P msg).run s)

theorem bounded_state (P : Primitives C) (b : Beginning C) : Bounded (b.state P) := by
  cases b with
  | sender => exact Nat.zero_le _
  | receiver => exact Nat.zero_le _

theorem Bounded.run (h : Bounded s) (call : Call C) : Bounded (call.run P s) := by
  cases call with
  | encrypt coins plaintext =>
    have hcache : (Ratchet.encrypt P s coins plaintext).1.skippedKeys = s.skippedKeys := by
      unfold Ratchet.encrypt
      split
      · rfl
      · rfl
    change ((Ratchet.encrypt P s coins plaintext).1.skippedKeys).entries.length ≤ _
    rw [hcache]
    exact h
  | decrypt msg => exact (spends_decrypt h msg).bounded

/-- However the ratchet is used, the cache stays bounded, and so does the work of the next message. -/
theorem cache_and_steps_bounded (P : Primitives C) (b : Beginning C) (calls : List (Call C)) (msg : Message C) :
    (calls.foldl (Call.run P) (b.state P)).skippedKeys.entries.length ≤ maxSkippedKeys ∧
      chainSteps P msg (calls.foldl (Call.run P) (b.state P)) ≤ maxSkippedKeys + 1 := by
  have hrun : Bounded (calls.foldl (Call.run P) (b.state P)) := by
    induction calls using List.reverseRecOn with
    | nil => exact bounded_state P b
    | append_singleton calls call ih =>
      rw [List.foldl_concat]
      exact ih.run call
  obtain ⟨hbounded, hsteps⟩ := spends_decrypt (P := P) hrun msg
  unfold Bounded at hbounded
  exact ⟨hrun, hsteps.trans (by omega)⟩

end ScatterWeb.Ratchet
