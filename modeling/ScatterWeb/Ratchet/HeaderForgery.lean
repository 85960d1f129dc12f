import ScatterWeb.Ratchet.Keys

/-! # Genuine ciphertexts under a changed header

`encrypt` does not pass the header to AES-GCM, so a change of the header is noticed only where it
changes the message key, or where `decrypt` throws on the way to one. Three steps lead to the exact
condition: when `decrypt` accepts a message at all, for any header; which epochs hang on a root key; and from
both, since the keys of a session are apart, when the key that a changed header leads to is the key of the message. -/
namespace ScatterWeb.Ratchet
open Crypto Lib
set_option autoImplicit false
variable {C : Carriers} {P : Primitives C}

/-! ## What `decrypt` accepts -/

def Opens (P : Primitives C) (key : C.Key) (msg : Message C) : Prop :=
  (P.aes.decrypt key msg.nonce msg.ciphertext msg.tag []).isSome

def Accepted (r : EStateM.Result RatchetError (State C) Bytes) : Prop := ∃ plaintext s', r = .ok plaintext s'

theorem not_accepted_iff {r : EStateM.Result RatchetError (State C) Bytes} :
    ¬ Accepted r ↔ ∃ e s', r = .error e s' := by
  cases r with
  | ok b s' => exact iff_of_false (not_not.mpr ⟨b, s', rfl⟩) (by rintro ⟨e, s'', h⟩; cases h)
  | error e s' => exact iff_of_true (by rintro ⟨b, s'', h⟩; cases h) ⟨e, s', rfl⟩

theorem not_accepted_error (e : RatchetError) (s : State C) : ¬ Accepted (.error e s) := by
  rintro ⟨b, s', h⟩
  cases h

theorem accepted_aesOpen {key : C.Key} {msg : Message C} {s : State C} :
    Accepted ((aesOpen P key msg).run s) ↔ Opens P key msg := by
  rw [aesOpen_run]
  unfold Opens
  cases P.aes.decrypt key msg.nonce msg.ciphertext msg.tag [] with
  | some b => exact iff_of_true ⟨b, s, rfl⟩ rfl
  | none => exact iff_of_false (not_accepted_error _ _) (by simp)

/-- No slot at or past the receive position is in the cache, and the cache is not overfull. -/
structure AheadFree (s : State C) : Prop where
  current : ∀ num : UInt32, s.recvMsgNum.toNat ≤ num.toNat → s.skippedKeys.lookup (skipKey s.recvEpoch num) = none
  newer : ∀ e num : UInt32, s.recvEpoch.toNat < e.toNat → s.skippedKeys.lookup (skipKey e num) = none
  size_le : s.skippedKeys.entries.length ≤ maxSkippedKeys

theorem Receives.aheadFree {t : Track C} {s : State C} {w : Window maxSkippedKeys} (h : Receives P t s w) :
    AheadFree s := by
  refine ⟨?_, fun e num he => h.lookup_newer he, ?_⟩
  · intro num hnum
    apply h.lookup_ahead
    rw [h.next_eq]
    omega
  · rw [h.size_eq]
    exact w.card_le

theorem AheadFree.fresh {s : State C} (h : AheadFree s) (target : UInt32) :
    FreshSlots s.recvEpoch (target.toNat - s.recvMsgNum.toNat) s := by
  have h1 := target.toNat_lt
  have h2 := s.recvMsgNum.toNat_lt
  refine ⟨by omega, ?_⟩
  intro num hlo _ hmem
  rw [← AList.lookup_isSome, h.current num hlo] at hmem
  cases hmem

theorem accepted_openAt {msg : Message C} {s : State C}
    (hf : FreshSlots msg.header.epoch (msg.header.msgNum.toNat - s.recvMsgNum.toNat) s)
    (hsize : s.skippedKeys.entries.length ≤ maxSkippedKeys) :
    Accepted (openAt P msg s) ↔
      s.skippedKeys.entries.length + (msg.header.msgNum.toNat - s.recvMsgNum.toNat) ≤ maxSkippedKeys ∧
      Opens P (messageKey P (chainAt P s.recvChainKey (msg.header.msgNum.toNat - s.recvMsgNum.toNat))) msg := by
  unfold openAt
  rw [advanceRecvChain_run]
  by_cases hroom : s.skippedKeys.entries.length + (msg.header.msgNum.toNat - s.recvMsgNum.toNat) ≤ maxSkippedKeys
  · rw [advanceLoop_fits P hf hroom]
    simp only [accepted_aesOpen, skipMany_recvChainKey, hroom, true_and]
  · obtain ⟨s', hrun⟩ := advanceLoop_overflows P hf hsize (by omega)
    rw [hrun]
    exact iff_of_false (not_accepted_error _ _) (fun h => hroom h.1)

theorem accepted_current {msg : Message C} {s : State C} (h : AheadFree s)
    (hc : s.skippedKeys.lookup (skipKey msg.header.epoch msg.header.msgNum) = none)
    (he : msg.header.epoch = s.recvEpoch) :
    Accepted ((decrypt P msg).run s) ↔
      s.skippedKeys.entries.length + (msg.header.msgNum.toNat - s.recvMsgNum.toNat) ≤ maxSkippedKeys ∧
      Opens P (messageKey P (chainAt P s.recvChainKey (msg.header.msgNum.toNat - s.recvMsgNum.toNat))) msg := by
  rw [decrypt_current hc he]
  apply accepted_openAt _ h.size_le
  rw [he]
  exact h.fresh msg.header.msgNum

theorem accepted_newEpoch {msg : Message C} {s : State C} {ct : C.Ct} (h : AheadFree s)
    (he : s.recvEpoch.toNat < msg.header.epoch.toNat) (hk : msg.header.kemCt = some ct) :
    Accepted ((decrypt P msg).run s) ↔
      s.skippedKeys.entries.length + (msg.header.prevCount.toNat - s.recvMsgNum.toNat) + msg.header.msgNum.toNat ≤
        maxSkippedKeys ∧
      Opens P (messageKey P (chainAt P
        (sendChain P (ratchetStep P s.rootKey (P.kem.decapsulate s.myRatchetKem.priv ct))) msg.header.msgNum.toNat)) msg := by
  have hf := h.fresh msg.header.prevCount
  have hc := h.newer msg.header.epoch msg.header.msgNum he
  rw [decrypt_newEpoch hc (UInt32.lt_iff_toNat_lt.mpr he) hk, advanceRecvChain_run]
  by_cases hroom : s.skippedKeys.entries.length + (msg.header.prevCount.toNat - s.recvMsgNum.toNat) ≤ maxSkippedKeys
  · rw [advanceLoop_fits P hf hroom]
    obtain ⟨hroot, _, hkem⟩ := skipMany_frame P s.recvEpoch (msg.header.prevCount.toNat - s.recvMsgNum.toNat) s
    have hsize := skipMany_size P hf
    have hzero : (kemStepRecv P ct msg.header.senderRatchetPub msg.header.epoch
        (skipMany P s.recvEpoch (msg.header.prevCount.toNat - s.recvMsgNum.toNat) s)).recvMsgNum.toNat = 0 := rfl
    -- the slots of the new epoch are fresh, also after the drain
    have hfresh : FreshSlots msg.header.epoch msg.header.msgNum.toNat
        (kemStepRecv P ct msg.header.senderRatchetPub msg.header.epoch
          (skipMany P s.recvEpoch (msg.header.prevCount.toNat - s.recvMsgNum.toNat) s)) := by
      refine ⟨by rw [hzero]; have := msg.header.msgNum.toNat_lt; omega, ?_⟩
      intro num _ _ hmem
      rcases mem_skipMany P hf hmem with hold | ⟨num', heq⟩
      · rw [← AList.lookup_isSome, h.newer msg.header.epoch num he] at hold
        cases hold
      · have := (skipKey_inj.mp heq).1
        rw [this] at he
        omega
    have hopen := @accepted_openAt C P msg (kemStepRecv P ct msg.header.senderRatchetPub
      msg.header.epoch (skipMany P s.recvEpoch (msg.header.prevCount.toNat - s.recvMsgNum.toNat) s))
      (by rw [hzero]; exact hfresh) (by change (skipMany _ _ _ _).skippedKeys.entries.length ≤ _; omega)
    rw [hzero, Nat.sub_zero] at hopen
    refine hopen.trans ?_
    change (skipMany _ _ _ _).skippedKeys.entries.length + _ ≤ _ ∧
      Opens P (messageKey P (chainAt P (sendChain P (ratchetStep P (skipMany _ _ _ _).rootKey
        (P.kem.decapsulate (skipMany _ _ _ _).myRatchetKem.priv ct))) _)) msg ↔ _
    rw [hsize, hroot, hkem]
  · obtain ⟨s', hrun⟩ := advanceLoop_overflows P hf h.size_le (by omega)
    rw [hrun]
    exact iff_of_false (not_accepted_error _ _) (fun hle => hroom (by have := hle.1; omega))

section Keys
variable (hk : KeysApart P) (u : Setup C) (secret : ℕ → C.SS)
include hk

/-- Which epochs hang on the root that a KEM step from root `k` with secret `ss` leads to. -/
theorem chainOf_eq_step {p : Side} {e k : ℕ} {ss : C.SS} :
    chainOf P (u.root P) secret p e = sendChain P (ratchetStep P (rootAt P (u.root P) secret k) ss) ↔
      stepIndex p e = k + 1 ∧ secret k = ss := by
  have hroot : ∀ j, sendChain P (rootAt P (u.root P) secret j) =
      sendChain P (ratchetStep P (rootAt P (u.root P) secret k) ss) ↔ j = k + 1 ∧ secret k = ss := by
    intro j
    refine ⟨fun h => ?_, ?_⟩
    · cases j with
      | zero => exact absurd (sendChain_inj hk h).symm (ratchetStep_ne_root hk u.root_isInit _ _)
      | succ j =>
        obtain ⟨h1, h2⟩ := hk.step_inj (sendChain_inj hk h)
        obtain rfl := rootAt_inj hk u.root_isInit h1
        exact ⟨rfl, h2⟩
    · rintro ⟨rfl, rfl⟩
      rfl
  cases p with
  | alice => exact hroot _
  | bob =>
    cases e with
    | zero => exact iff_of_false (fun h => sendChain_ne_recvChain hk _ _ h.symm) (by simp [stepIndex])
    | succ e => exact hroot _

end Keys

/-! ## Changed headers -/

variable {u : Setup C} {g : Ghost C} {s : Session C} {p : Side} {i : ℕ} {m : Sent C}

theorem Inv.key_inj (h : Inv P u g s) (hP : P.Ideal) {e e' n n' : ℕ} (he : e ≤ (s.st p).sendEpoch.toNat)
    (he' : e' ≤ (s.st p).sendEpoch.toNat) :
    messageKey P (chainAt P ((g.track p).chain e') n') = (g.track p).key P e n ↔ e' = e ∧ n' = n := by
  unfold Track.key
  rw [h.chain_eq p e he, h.chain_eq p e' he']
  refine ⟨fun hk => ?_, ?_⟩
  · have hapart := keysApart_of_ideal hP
    obtain ⟨hc, hn⟩ := (chainAt_inj hapart (chainOf_head _ g.secret p e') (chainOf_head _ g.secret p e)).mp (messageKey_inj hapart hk)
    exact ⟨(chainOf_inj hapart u.root_isInit hc).2, hn⟩
  · rintro ⟨rfl, rfl⟩
    rfl

/-- A genuine ciphertext opens under its own key only, whatever the header says. -/
theorem Genuine.opens_iff (hP : P.Ideal) {t : Track C} {e n : ℕ} (hg : Genuine P t e n m.msg m.plaintext)
    (hdr : Header C) (key : C.Key) : Opens P key { m.msg with header := hdr } ↔ key = t.key P e n := by
  have hseal := hg.sealed
  have hct := congrArg Prod.fst hseal
  have htag := congrArg Prod.snd hseal
  simp only at hct htag
  unfold Opens
  simp only [hct, htag]
  refine ⟨fun h => ?_, ?_⟩
  · obtain ⟨b, hb⟩ := Option.isSome_iff_exists.mp h
    exact (hP.aes_binding.same_inputs hb).1
  · rintro rfl
    rw [hP.aes.decrypt_encrypt]
    rfl

/-- For the receiver, `ct` holds the secret of the KEM ciphertext that `p` sent for the epoch. -/
def SameSecret (P : Primitives C) (s : Session C) (p : Side) (epoch : UInt32) (ct : C.Ct) : Prop :=
  ∃ (j : ℕ) (m : Sent C) (ct₀ : C.Ct), (s.sent p)[j]? = some m ∧ m.msg.header.epoch = epoch ∧
    m.msg.header.kemCt = some ct₀ ∧ P.kem.decapsulate (s.st p.other).myRatchetKem.priv ct =
      P.kem.decapsulate (s.st p.other).myRatchetKem.priv ct₀

/-- The header `hdr'` leads the receiver of `p` to the same message key as `hdr`, without an exception:
out of the cache, along the current chain, or through a KEM step. -/
inductive Unnoticed (P : Primitives C) (s : Session C) (p : Side) (hdr hdr' : Header C) : Prop
  | cached (slot : skipKey hdr'.epoch hdr'.msgNum ∈ (s.st p.other).skippedKeys)
      (epoch : hdr'.epoch = hdr.epoch) (num : hdr'.msgNum = hdr.msgNum)
  | current (slot : skipKey hdr'.epoch hdr'.msgNum ∉ (s.st p.other).skippedKeys)
      (epoch : hdr'.epoch = (s.st p.other).recvEpoch) (same : hdr.epoch = (s.st p.other).recvEpoch)
      (num : hdr.msgNum.toNat = max hdr'.msgNum.toNat (s.st p.other).recvMsgNum.toNat)
      (room : (s.st p.other).skippedKeys.entries.length + (hdr'.msgNum.toNat - (s.st p.other).recvMsgNum.toNat) ≤
        maxSkippedKeys)
  | newEpoch (ct : C.Ct) (newer : (s.st p.other).recvEpoch.toNat < hdr'.epoch.toNat)
      (next : hdr.epoch.toNat = (s.st p.other).recvEpoch.toNat + 1) (num : hdr'.msgNum = hdr.msgNum)
      (kemCt : hdr'.kemCt = some ct) (secret : SameSecret P s p hdr.epoch ct)
      (room : (s.st p.other).skippedKeys.entries.length + (hdr'.prevCount.toNat - (s.st p.other).recvMsgNum.toNat) +
        hdr'.msgNum.toNat ≤ maxSkippedKeys)

/-- A ciphertext with the secret of the epoch in flight is one that leads to the epoch's chain. -/
theorem Inv.sameSecret_iff (h : Inv P u g s) {e n : ℕ} (hg : Genuine P (g.track p) e n m.msg m.plaintext)
    (he : e ≤ (s.st p).sendEpoch.toNat) (hnext : e = (s.st p.other).recvEpoch.toNat + 1) (ct : C.Ct) :
    SameSecret P s p m.msg.header.epoch ct ↔
      g.secret ((s.st p.other).sendEpoch.toNat + (s.st p.other).recvEpoch.toNat) =
        P.kem.decapsulate (s.st p.other).myRatchetKem.priv ct := by
  have hfl := h.flight_of_lt (p := p) (by omega)
  obtain ⟨m₀, ct₀, hm₀, hcar⟩ := hfl.first
  have hse : (s.st p).sendEpoch.toNat = e := by
    have := hfl.ahead
    omega
  rw [hse] at hm₀
  rw [← hcar.secret_eq]
  refine ⟨?_, ?_⟩
  · rintro ⟨j, m₁, ct₁, hj, hep, hct, hsec⟩
    obtain ⟨_, rfl⟩ := h.kem_position hg hj hep (by rw [hct]; rfl)
    rw [hm₀] at hj
    obtain rfl := Option.some.inj hj
    rw [hcar.kemCt_eq] at hct
    obtain rfl := Option.some.inj hct
    exact hsec.symm
  · intro hsec
    obtain ⟨m₁, hm₁, hg₁⟩ := (h.sends p).entry e 0 (by have := hg.num_lt; omega)
    rw [Nat.add_zero, hm₀] at hm₁
    obtain rfl := Option.some.inj hm₁
    exact ⟨_, m₀, ct₀, hm₀, UInt32.toNat.inj (by rw [hg₁.epoch_eq, hg.epoch_eq]), hcar.kemCt_eq, hsec.symm⟩

theorem chainAt_chainAt (P : Primitives C) (ck : C.Key) (n k : ℕ) : chainAt P (chainAt P ck n) k = chainAt P ck (n + k) := by
  induction k with
  | zero => rfl
  | succ k ih => exact congrArg (nextChainKey P) ih

theorem Inv.accepted_cached (h : Inv P u g s) (hP : P.Ideal) {e n : ℕ} (hg : Genuine P (g.track p) e n m.msg m.plaintext)
    (he : e ≤ (s.st p).sendEpoch.toNat) (hdr : Header C)
    (hslot : skipKey hdr.epoch hdr.msgNum ∈ (s.st p.other).skippedKeys) :
    Accepted ((decrypt P { m.msg with header := hdr }).run (s.st p.other)) ↔
      hdr.epoch = m.msg.header.epoch ∧ hdr.msgNum = m.msg.header.msgNum := by
  have hrec := h.receives p
  have hin : hdr.msgNum.toNat < (g.track p).count hdr.epoch.toNat ∧
      (g.track p).start hdr.epoch.toNat + hdr.msgNum.toNat ∈ (g.window p).cache := by
    by_contra hnot
    rw [← AList.lookup_isSome, hrec.uncached _ _ hnot] at hslot
    cases hslot
  have hlook := hrec.cached _ _ hin.1 hin.2
  rw [@decrypt_cached C P { m.msg with header := hdr } _ _ hlook, accepted_aesOpen, hg.opens_iff hP]
  refine (h.key_inj hP he ((h.sends p).epoch_le hin.1)).trans ?_
  rw [← hg.epoch_eq, ← hg.msgNum_eq]
  exact and_congr ⟨fun heq => UInt32.toNat.inj heq, congrArg _⟩ ⟨fun heq => UInt32.toNat.inj heq, congrArg _⟩

theorem Inv.accepted_current (h : Inv P u g s) (hP : P.Ideal) {e n : ℕ} (hg : Genuine P (g.track p) e n m.msg m.plaintext)
    (he : e ≤ (s.st p).sendEpoch.toNat) (hdr : Header C)
    (hslot : skipKey hdr.epoch hdr.msgNum ∉ (s.st p.other).skippedKeys) (hcur : hdr.epoch = (s.st p.other).recvEpoch) :
    Accepted ((decrypt P { m.msg with header := hdr }).run (s.st p.other)) ↔
      (s.st p.other).skippedKeys.entries.length + (hdr.msgNum.toNat - (s.st p.other).recvMsgNum.toNat) ≤ maxSkippedKeys ∧
      (s.st p.other).recvEpoch.toNat = e ∧ max hdr.msgNum.toNat (s.st p.other).recvMsgNum.toNat = n := by
  have hrec := h.receives p
  rw [@Ratchet.accepted_current C P { m.msg with header := hdr } _ hrec.aheadFree (AList.lookup_eq_none.mpr hslot) hcur,
    hg.opens_iff hP, hrec.chain_eq, chainAt_chainAt, h.key_inj hP he (h.recvEpoch_le p)]
  have hmax : (s.st p.other).recvMsgNum.toNat + (hdr.msgNum.toNat - (s.st p.other).recvMsgNum.toNat) =
      max hdr.msgNum.toNat (s.st p.other).recvMsgNum.toNat := by omega
  rw [hmax]

theorem Inv.accepted_newEpoch (h : Inv P u g s) (hP : P.Ideal) {e n : ℕ} (hg : Genuine P (g.track p) e n m.msg m.plaintext)
    (he : e ≤ (s.st p).sendEpoch.toNat) (hdr : Header C) {ct : C.Ct} (hct : hdr.kemCt = some ct)
    (hnew : (s.st p.other).recvEpoch.toNat < hdr.epoch.toNat) :
    Accepted ((decrypt P { m.msg with header := hdr }).run (s.st p.other)) ↔
      (s.st p.other).skippedKeys.entries.length + (hdr.prevCount.toNat - (s.st p.other).recvMsgNum.toNat) +
        hdr.msgNum.toNat ≤ maxSkippedKeys ∧
      e = (s.st p.other).recvEpoch.toNat + 1 ∧ SameSecret P s p m.msg.header.epoch ct ∧ hdr.msgNum.toNat = n := by
  rw [@Ratchet.accepted_newEpoch C P { m.msg with header := hdr } _ _ (h.receives p).aheadFree hnew hct, hg.opens_iff hP]
  refine and_congr_right (fun _ => ?_)
  -- the key of the message hangs on the root that the step leads to only if its epoch is the one in flight
  have hkey : messageKey P (chainAt P (sendChain P (ratchetStep P (s.st p.other).rootKey
        (P.kem.decapsulate (s.st p.other).myRatchetKem.priv ct))) hdr.msgNum.toNat) = (g.track p).key P e n ↔
      (stepIndex p e = (s.st p.other).sendEpoch.toNat + (s.st p.other).recvEpoch.toNat + 1 ∧
        g.secret ((s.st p.other).sendEpoch.toNat + (s.st p.other).recvEpoch.toNat) =
          P.kem.decapsulate (s.st p.other).myRatchetKem.priv ct) ∧ hdr.msgNum.toNat = n := by
    unfold Track.key
    rw [h.chain_eq p e he, h.root_eq p.other, ← chainOf_eq_step (keysApart_of_ideal hP) u g.secret]
    refine ⟨fun hk => ?_, ?_⟩
    · have hapart := keysApart_of_ideal hP
      obtain ⟨hc, hn⟩ := (chainAt_inj hapart ⟨_, Or.inl rfl⟩ (chainOf_head _ g.secret p e)).mp (messageKey_inj hapart hk)
      exact ⟨hc.symm, hn⟩
    · rintro ⟨hc, rfl⟩
      rw [hc]
  refine hkey.trans ⟨?_, ?_⟩
  · rintro ⟨⟨hidx, hsec⟩, hn⟩
    have hlow : (s.st p.other).recvEpoch.toNat < e := by
      by_contra hle
      have := h.stepIndex_le (p := p) (show e ≤ (s.st p.other).recvEpoch.toNat by omega)
      omega
    have hnext : e = (s.st p.other).recvEpoch.toNat + 1 := by
      have := (h.flight_of_lt (p := p) (by omega)).ahead
      omega
    exact ⟨hnext, (h.sameSecret_iff hg he hnext ct).mpr hsec, hn⟩
  · rintro ⟨hnext, hsec, hn⟩
    have hfl := h.flight_of_lt (p := p) (by omega)
    have hse : (s.st p).sendEpoch.toNat = e := by
      have := hfl.ahead
      omega
    have hlevel := hfl.level
    rw [hfl.got_eq, hse] at hlevel
    exact ⟨⟨by omega, (h.sameSecret_iff hg he hnext ct).mp hsec⟩, hn⟩

/-! ## Which way a header leads -/

variable {hdr hdr' : Header C}

theorem unnoticed_cached_iff (hslot : skipKey hdr'.epoch hdr'.msgNum ∈ (s.st p.other).skippedKeys)
    (hnewer : ¬(s.st p.other).recvEpoch.toNat < hdr'.epoch.toNat) :
    Unnoticed P s p hdr hdr' ↔ hdr'.epoch = hdr.epoch ∧ hdr'.msgNum = hdr.msgNum := by
  constructor
  · intro hu
    cases hu with
    | cached _ h1 h2 => exact ⟨h1, h2⟩
    | current hno => exact absurd hslot hno
    | newEpoch ct hlt => exact absurd hlt hnewer
  · intro heq
    exact .cached hslot heq.1 heq.2

theorem not_unnoticed_past (hslot : skipKey hdr'.epoch hdr'.msgNum ∉ (s.st p.other).skippedKeys)
    (hlt : hdr'.epoch.toNat < (s.st p.other).recvEpoch.toNat) : ¬Unnoticed P s p hdr hdr' := by
  intro hu
  cases hu with
  | cached hyes => exact hslot hyes
  | current _ hep =>
    rw [hep] at hlt
    omega
  | newEpoch ct hgt => omega

theorem unnoticed_current_iff (hslot : skipKey hdr'.epoch hdr'.msgNum ∉ (s.st p.other).skippedKeys)
    (hcur : hdr'.epoch = (s.st p.other).recvEpoch) :
    Unnoticed P s p hdr hdr' ↔
      (s.st p.other).skippedKeys.entries.length + (hdr'.msgNum.toNat - (s.st p.other).recvMsgNum.toNat) ≤ maxSkippedKeys ∧
      hdr.epoch = (s.st p.other).recvEpoch ∧ hdr.msgNum.toNat = max hdr'.msgNum.toNat (s.st p.other).recvMsgNum.toNat := by
  constructor
  · intro hu
    cases hu with
    | cached hyes => exact absurd hyes hslot
    | current _ _ hsame hnum hroom => exact ⟨hroom, hsame, hnum⟩
    | newEpoch ct hgt =>
      rw [hcur] at hgt
      omega
  · intro hall
    exact .current hslot hcur hall.2.1 hall.2.2 hall.1

/-- Without a KEM ciphertext there is no new epoch. -/
theorem not_unnoticed_noKemCt (hslot : skipKey hdr'.epoch hdr'.msgNum ∉ (s.st p.other).skippedKeys)
    (hgt : (s.st p.other).recvEpoch.toNat < hdr'.epoch.toNat) (hk : hdr'.kemCt = none) : ¬Unnoticed P s p hdr hdr' := by
  intro hu
  cases hu with
  | cached hyes => exact hslot hyes
  | current _ hep =>
    rw [hep] at hgt
    omega
  | newEpoch ct _ _ _ hct =>
    rw [hk] at hct
    cases hct

theorem unnoticed_newEpoch_iff {ct : C.Ct} (hslot : skipKey hdr'.epoch hdr'.msgNum ∉ (s.st p.other).skippedKeys)
    (hgt : (s.st p.other).recvEpoch.toNat < hdr'.epoch.toNat) (hk : hdr'.kemCt = some ct) :
    Unnoticed P s p hdr hdr' ↔
      (s.st p.other).skippedKeys.entries.length + (hdr'.prevCount.toNat - (s.st p.other).recvMsgNum.toNat) + hdr'.msgNum.toNat ≤ maxSkippedKeys ∧
      hdr.epoch.toNat = (s.st p.other).recvEpoch.toNat + 1 ∧ SameSecret P s p hdr.epoch ct ∧ hdr'.msgNum = hdr.msgNum := by
  constructor
  · intro hu
    cases hu with
    | cached hyes => exact absurd hyes hslot
    | current _ hep =>
      rw [hep] at hgt
      omega
    | newEpoch ct' _ hnext hnum hct hsec hroom =>
      rw [hk] at hct
      obtain rfl := Option.some.inj hct
      exact ⟨hroom, hnext, hsec, hnum⟩
  · intro hall
    obtain ⟨hroom, hnext, hsec, hnum⟩ := hall
    exact .newEpoch ct hgt hnext hnum hk hsec hroom

/-! ## Acceptance -/

theorem Inv.accepted_iff (h : Inv P u g s) (hP : P.Ideal) (hm : (s.sent p)[i]? = some m) (hdr : Header C) :
    Accepted ((decrypt P { m.msg with header := hdr }).run (s.st p.other)) ↔ Unnoticed P s p m.msg.header hdr := by
  obtain ⟨e, n, he, hn, _, hg⟩ := (h.sends p).locate hm
  have hfree := (h.receives p).aheadFree
  by_cases hslot : skipKey hdr.epoch hdr.msgNum ∈ (s.st p.other).skippedKeys
  · have hnewer : ¬(s.st p.other).recvEpoch.toNat < hdr.epoch.toNat := by
      intro hlt
      exact AList.lookup_eq_none.mp (hfree.newer _ _ hlt) hslot
    rw [h.accepted_cached hP hg he hdr hslot, unnoticed_cached_iff hslot hnewer]
  rcases lt_trichotomy hdr.epoch.toNat (s.st p.other).recvEpoch.toNat with hlt | heq | hgt
  · rw [@decrypt_past C P { m.msg with header := hdr } _ (AList.lookup_eq_none.mpr hslot) (UInt32.lt_iff_toNat_lt.mpr hlt)]
    exact iff_of_false (not_accepted_error _ _) (not_unnoticed_past hslot hlt)
  · have hcur : hdr.epoch = (s.st p.other).recvEpoch := UInt32.toNat.inj heq
    rw [h.accepted_current hP hg he hdr hslot hcur, unnoticed_current_iff hslot hcur, ← UInt32.toNat_inj, hg.epoch_eq, hg.msgNum_eq,
      eq_comm (a := n), eq_comm (a := e)]
  · cases hk : hdr.kemCt with
    | none =>
      rw [@decrypt_noKemCt C P { m.msg with header := hdr } _ (hfree.newer _ _ hgt) (UInt32.lt_iff_toNat_lt.mpr hgt) hk]
      exact iff_of_false (not_accepted_error _ _) (not_unnoticed_noKemCt hslot hgt hk)
    | some ct => rw [h.accepted_newEpoch hP hg he hdr hk hgt, unnoticed_newEpoch_iff hslot hgt hk, ← UInt32.toNat_inj, hg.epoch_eq, hg.msgNum_eq]

/-- Header authenticity, exactly: a genuine ciphertext under the header `hdr` makes `decrypt` throw if and
only if `hdr` does not lead to the message's own key. -/
theorem changed_header_throws_iff (hP : P.Ideal) (h : Honest P u s) (hm : (s.sent p)[i]? = some m) (hdr : Header C) :
    (∃ e s', (decrypt P { m.msg with header := hdr }).run (s.st p.other) = .error e s') ↔
      ¬ Unnoticed P s p m.msg.header hdr := by
  obtain ⟨g, hg⟩ := h.inv hP.toCorrect
  rw [← hg.accepted_iff hP hm hdr, not_accepted_iff]

def foreignHeader : Header symbols := { replyOne.msg.header with senderRatchetPub := Term.coin 99 }

theorem twoReplies_honest : Honest symbolic demo twoReplies := twoReplies_reachable Step.send

theorem changed_header_throws_iff_replyOne :
    (∃ e s', (decrypt symbolic { replyOne.msg with header := foreignHeader }).run (twoReplies.st .alice) = .error e s') ↔
      ¬ Unnoticed symbolic twoReplies .bob replyOne.msg.header foreignHeader :=
  changed_header_throws_iff symbolic_ideal twoReplies_honest (p := .bob) (i := 0) (m := replyOne) rfl foreignHeader

def HeaderAuthentic (P : Primitives C) (u : Setup C) : Prop :=
  ∀ (s : Session C) (p : Side) (i : ℕ) (m : Sent C) (hdr : Header C), Honest P u s → (s.sent p)[i]? = some m →
    hdr ≠ m.msg.header → ∃ e s', (decrypt P { m.msg with header := hdr }).run (s.st p.other) = .error e s'

/-- Alice accepts the foreign ratchet key: the message opens, and her next KEM step will encapsulate to it. -/
theorem not_headerAuthentic_replyOne : ¬ HeaderAuthentic symbolic demo := by
  intro h
  have hne : foreignHeader ≠ replyOne.msg.header := by
    intro heq
    have hpub := congrArg Header.senderRatchetPub heq
    cases hpub
  obtain ⟨e, s', herr⟩ := h twoReplies .bob 0 replyOne foreignHeader twoReplies_honest rfl hne
  have hok : ∃ s', (decrypt symbolic { replyOne.msg with header := foreignHeader }).run (twoReplies.st .alice) =
      .ok [1] s' ∧ s'.peerRatchetPub = Term.coin 99 := ⟨_, rfl, rfl⟩
  obtain ⟨s'', hok, _⟩ := hok
  exact absurd (hok.symm.trans herr) (by simp)

end ScatterWeb.Ratchet
