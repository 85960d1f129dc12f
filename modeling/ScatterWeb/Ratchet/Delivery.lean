import ScatterWeb.Ratchet.Invariant

/-! # Which deliveries open

A message can be opened when the message that carries the KEM ciphertext of its epoch has arrived
(`KemFirst`) and the keys of the earlier messages that have not arrived fit into the cache
(`CacheFits`). In a run that respects both at every delivery all messages open, in whatever order
they come. In a run where messages of a direction arrive in the order sent, some of them never, a
message opens exactly when both hold: a lost first message silences its epoch, and losses add up
over the whole session. -/
namespace ScatterWeb.Ratchet
open Crypto Lib
set_option autoImplicit false
variable {C : Carriers} {P : Primitives C} {u : Setup C} {g : Ghost C} {s s' : Session C} {p : Side} {i : ℕ} {m : Sent C}

/-- The message with the KEM ciphertext of the epoch of message `i`, if there is one, is `i` or has arrived. -/
def KemFirst (s : Session C) (p : Side) (i : ℕ) : Prop :=
  ∀ (m : Sent C) (j : ℕ) (m' : Sent C), (s.sent p)[i]? = some m → (s.sent p)[j]? = some m' →
    m'.msg.header.epoch = m.msg.header.epoch → m'.msg.header.kemCt.isSome → j = i ∨ j ∈ s.delivered p

/-- The keys to keep once message `i` was read, those of the earlier messages that have not arrived, fit. -/
def CacheFits (s : Session C) (p : Side) (i : ℕ) : Prop :=
  (Finset.range i \ s.delivered p).card ≤ maxSkippedKeys

/-! ## One delivery -/

/-- Where everything that arrived was opened, an admissible message opens. -/
theorem Inv.decrypt_ok (h : Inv P u g s) (hP : P.Correct) (hm : (s.sent p)[i]? = some m) (once : i ∉ s.delivered p)
    (hall : s.delivered p ⊆ s.opened p) (hkem : KemFirst s p i) (hfits : CacheFits s p i) :
    ∃ st', (decrypt P m.msg).run (s.st p.other) = .ok m.plaintext st' := by
  have hi : i ∉ s.opened p := fun hmem => once (s.opened_subset p hmem)
  have hle : i ≤ (g.track p).start ((s.st p.other).recvEpoch.toNat + 1) := by
    by_contra hgt
    obtain ⟨e, n, he, hn, hpos, hg⟩ := (h.sends p).locate hm
    have hlow : (s.st p.other).recvEpoch.toNat < e := by
      by_contra hge
      have := (g.track p).start_mono (show e + 1 ≤ (s.st p.other).recvEpoch.toNat + 1 by omega)
      have h2 : (g.track p).start (e + 1) = (g.track p).start e + (g.track p).count e := rfl
      omega
    have hnext : e = (s.st p.other).recvEpoch.toNat + 1 := by
      have := (h.flight_of_lt (lt_of_lt_of_le hlow he)).ahead
      omega
    obtain ⟨m', hm', hg'⟩ := (h.sends p).entry e 0 (by omega)
    have hsame : m'.msg.header.epoch = m.msg.header.epoch :=
      UInt32.toNat.inj (by rw [hg'.epoch_eq, hg.epoch_eq])
    rcases hkem m _ m' hm hm' hsame (hg'.kemCt_iff.mpr ⟨by omega, rfl⟩) with hself | harr
    · rw [← hself, hnext] at hgt
      omega
    · have h1 := (h.accounts p).used_lt _ (hall harr)
      have h2 := (h.receives p).next_le
      rw [hnext] at h1
      omega
  obtain ⟨st', hrun, _, _⟩ := h.decrypt_open hP hm hi hle
  have hok : ((g.window p).receive i).2 = true := by
    by_cases hc : i ∈ (g.window p).cache
    · rw [Window.receive_cached hc]
    · rw [Window.receive_ok_iff (h.accounts p) (h.ahead hi hc)]
      exact (Finset.card_le_card (Finset.sdiff_subset_sdiff (le_refl _) hall)).trans hfits
  rw [if_pos hok] at hrun
  exact ⟨st', hrun⟩

theorem Inv.admissible_of_ok (h : Inv P u g s) (hP : P.Correct) (hm : (s.sent p)[i]? = some m)
    (once : i ∉ s.delivered p) {b : Bytes} {st' : State C} (hrun : (decrypt P m.msg).run (s.st p.other) = .ok b st') :
    b = m.plaintext ∧ KemFirst s p i ∧ CacheFits s p i := by
  have hi : i ∉ s.opened p := fun hmem => once (s.opened_subset p hmem)
  by_cases hle : i ≤ (g.track p).start ((s.st p.other).recvEpoch.toNat + 1)
  · obtain ⟨st'', hrun', _, _⟩ := h.decrypt_open hP hm hi hle
    rw [hrun] at hrun'
    by_cases hok : ((g.window p).receive i).2 = true
    · rw [if_pos hok] at hrun'
      injection hrun' with hb _
      refine ⟨hb, ?_, ?_⟩
      · intro m₁ j m' hm₁ hj he hk
        rw [hm] at hm₁
        obtain rfl := Option.some.inj hm₁
        obtain ⟨e, n, hse, hn, rfl, hg⟩ := (h.sends p).locate hm
        obtain ⟨hpos, rfl⟩ := h.kem_position hg hj he hk
        by_cases hin : e ≤ (s.st p.other).recvEpoch.toNat
        · exact Or.inr (s.opened_subset p (h.entered p e hpos hin))
        · have hnext := (h.flight_of_lt (p := p) (by omega)).ahead
          have heq : (s.st p.other).recvEpoch.toNat + 1 = e := by omega
          rw [heq] at hle
          exact Or.inl (by omega)
      · by_cases hc : i ∈ (g.window p).cache
        · have hlt := (g.window p).below i hc
          have hsub : Finset.range i \ s.delivered p ⊆ (g.window p).cache := by
            rw [(h.accounts p).cache_eq]
            exact Finset.sdiff_subset_sdiff (Finset.range_subset_range.mpr (le_of_lt hlt)) (s.opened_subset p)
          exact (Finset.card_le_card hsub).trans (g.window p).card_le
        · rw [Window.receive_ok_iff (h.accounts p) (h.ahead hi hc)] at hok
          exact (Finset.card_le_card (Finset.sdiff_subset_sdiff (le_refl _) (s.opened_subset p))).trans hok
    · rw [if_neg hok] at hrun'
      cases hrun'
  · rw [h.decrypt_blocked hm (by omega)] at hrun
    cases hrun

/-! ## Runs that respect both conditions -/

def Orderly (P : Primitives C) (s : Session C) (e : Event C) (s' : Session C) : Prop :=
  Step P s e s' ∧ ∀ p i, e = .deliver p i → KemFirst s p i ∧ CacheFits s p i

def AllOpened (s : Session C) : Prop :=
  ∀ p i r, (i, r) ∈ s.received p → ∃ m, (s.sent p)[i]? = some m ∧ r = .ok m.plaintext

theorem AllOpened.delivered_subset (h : AllOpened s) (p : Side) : s.delivered p ⊆ s.opened p := by
  intro i hi
  simp only [Session.delivered, Session.opened, List.mem_toFinset, List.mem_map, List.mem_filter] at hi ⊢
  obtain ⟨⟨i, r⟩, hr, rfl⟩ := hi
  obtain ⟨m, _, rfl⟩ := h p i r hr
  exact ⟨_, ⟨hr, rfl⟩, rfl⟩

theorem Session.send_sent_of (P : Primitives C) {coins : Coins C} {plaintext : Bytes} {q : Side}
    (hm : (s.sent q)[i]? = some m) : ((s.send P p coins plaintext).sent q)[i]? = some m := by
  obtain rfl | rfl := p.eq_or_other q
  · rw [Session.send_sent_self, List.getElem?_append_left (List.getElem?_eq_some_iff.mp hm).1]
    exact hm
  · rw [Session.send_sent_other]
    exact hm

theorem AllOpened.record (h : AllOpened s) (hm : (s.sent p)[i]? = some m) (st' : State C) :
    AllOpened (s.record p i st' (.ok m.plaintext)) := by
  intro q j r hr
  obtain rfl | rfl := p.eq_or_other q
  · simp only [Session.record, Function.update_self, List.mem_append, List.mem_singleton] at hr
    rcases hr with hr | hr
    · exact h q j r hr
    · obtain ⟨rfl, rfl⟩ := Prod.mk.inj hr
      exact ⟨m, hm, rfl⟩
  · simp only [Session.record, Function.update_of_ne p.other_ne] at hr
    exact h p.other j r hr

theorem Orderly.allOpened (hP : P.Correct) (hs : ∃ g, Inv P u g s) (h : AllOpened s) {e : Event C}
    (hstep : Orderly P s e s') : AllOpened s' := by
  obtain ⟨hstep, hadm⟩ := hstep
  cases hstep with
  | send p coins plaintext room =>
    intro q j r hr
    obtain ⟨m, hm, rfl⟩ := h q j r hr
    exact ⟨m, Session.send_sent_of P hm, rfl⟩
  | deliver p i m hm once =>
    obtain ⟨g, hinv⟩ := hs
    obtain ⟨hkem, hfits⟩ := hadm p i rfl
    obtain ⟨st', hrun⟩ := hinv.decrypt_ok hP hm once (h.delivered_subset p) hkem hfits
    unfold Session.deliver
    rw [hrun]
    exact h.record hm st'

/-- Session correctness: in every run whose deliveries are admissible, every `decrypt` returns the
plaintext that was given to the matching `encrypt`. -/
theorem orderly_session_correct (hP : P.Correct) (h : Reachable (Orderly P) (Session.start P u) s) (p : Side) (i : ℕ)
    (r : Except RatchetError Bytes) (hr : (i, r) ∈ s.received p) :
    ∃ m, (s.sent p)[i]? = some m ∧ r = .ok m.plaintext := by
  have hinv : (∃ g, Inv P u g s) ∧ AllOpened s := by
    refine h.invariant (fun s => (∃ g, Inv P u g s) ∧ AllOpened s) ⟨?_, ?_⟩ ?_
    · exact Honest.inv hP (Reachable.refl _ _)
    · intro p i r hr
      cases hr
    · intro t e t' ⟨⟨g, hg⟩, hall⟩ hs
      exact ⟨hg.step hP hs.1, hs.allOpened hP ⟨g, hg⟩ hall⟩
  exact hinv.2 p i r hr

theorem Orderly.send (s : Session C) (p : Side) (coins : Coins C) (plaintext : Bytes) (room : CounterRoom (s.st p)) :
    Orderly P s (.send p coins plaintext) (s.send P p coins plaintext) :=
  ⟨Step.send s p coins plaintext room, nofun⟩

theorem twoReplies_kemFirst : KemFirst twoReplies .bob 0 := by
  intro m j m' _ hj _ hk
  rw [twoReplies_sent] at hj
  match j, hj with
  | 0, _ => exact Or.inl rfl
  | 1, hj =>
    obtain rfl := Option.some.inj hj
    cases hk

theorem orderly_session_correct_replyOne :
    (0, .ok [1]) ∈ (twoReplies.deliver symbolic .bob 0 replyOne.msg).received .bob ∧
    ∃ m, ((twoReplies.deliver symbolic .bob 0 replyOne.msg).sent .bob)[0]? = some m ∧
      (.ok [1] : Except RatchetError Bytes) = .ok m.plaintext := by
  have hmem : (0, .ok [1]) ∈ (twoReplies.deliver symbolic .bob 0 replyOne.msg).received .bob := List.mem_singleton_self _
  have hstep : Orderly symbolic twoReplies (.deliver .bob 0) (twoReplies.deliver symbolic .bob 0 replyOne.msg) := by
    refine ⟨Step.deliver twoReplies .bob 0 replyOne rfl (by decide), ?_⟩
    intro p i h
    injection h with hp hi
    subst hp hi
    exact ⟨twoReplies_kemFirst, Nat.zero_le _⟩
  exact ⟨hmem, orderly_session_correct symbolic_ideal.toCorrect
    ((twoReplies_reachable Orderly.send).tail hstep) .bob 0 _ hmem⟩

/-! ## Runs in order, with losses -/

def InOrder (P : Primitives C) (s : Session C) (e : Event C) (s' : Session C) : Prop :=
  Step P s e s' ∧ ∀ p i, e = .deliver p i → ∀ j ∈ s.delivered p, j < i

def FailedInadmissible (s : Session C) : Prop :=
  ∀ p j, j ∈ s.delivered p → j ∉ s.opened p → ¬ (KemFirst s p j ∧ CacheFits s p j)

theorem CacheFits.mono {j : ℕ} (h : CacheFits s p i) (hle : j ≤ i) : CacheFits s p j :=
  (Finset.card_le_card (Finset.sdiff_subset_sdiff (Finset.range_subset_range.mpr hle) (le_refl _))).trans h

/-- In order, an admissible message finds everything that arrived before it opened. -/
theorem Inv.all_opened (h : Inv P u g s) (hfail : FailedInadmissible s) (hm : (s.sent p)[i]? = some m)
    (hlt : ∀ j ∈ s.delivered p, j < i) (hkem : KemFirst s p i) (hfits : CacheFits s p i) :
    s.delivered p ⊆ s.opened p := by
  intro j hj
  by_contra hop
  have hji := hlt j hj
  refine hfail p j hj hop ⟨?_, hfits.mono (le_of_lt hji)⟩
  intro mj k mk hmj hmk hek hk
  obtain ⟨e, n, he, hn, rfl, hg⟩ := (h.sends p).locate hmj
  obtain ⟨hpos, rfl⟩ := h.kem_position hg hmk hek hk
  by_cases hin : e ≤ (s.st p.other).recvEpoch.toNat
  · exact Or.inr (s.opened_subset p (h.entered p e hpos hin))
  -- the epoch of `j` was never entered: it is the last one, so it is the epoch of `i`
  obtain ⟨e', n', he', hn', rfl, hg'⟩ := (h.sends p).locate hm
  have hlast := (h.flight_of_lt (p := p) (by omega)).ahead
  have hle : e ≤ e' := by
    by_contra hgt
    have := (g.track p).end_le_start (show e' < e by omega)
    omega
  have heq : e' = e := by omega
  subst heq
  have hsame : mk.msg.header.epoch = m.msg.header.epoch :=
    UInt32.toNat.inj (by rw [hek, hg.epoch_eq, hg'.epoch_eq])
  rcases hkem m _ mk hm hmk hsame hk with hself | harr
  · omega
  · exact Or.inr harr

/-- Admissibility of a message does not depend on a delivery at or after it. -/
theorem Inv.admissible_record (h : Inv P u g s) {j : ℕ} {st' : State C} {r : Except RatchetError Bytes} (hji : j ≤ i)
    (hadm : KemFirst (s.record p i st' r) p j ∧ CacheFits (s.record p i st' r) p j) :
    KemFirst s p j ∧ CacheFits s p j := by
  obtain ⟨hkem, hfits⟩ := hadm
  refine ⟨?_, ?_⟩
  · intro m k mk hm hmk hek hk
    obtain ⟨e, n, _, hn, rfl, hg⟩ := (h.sends p).locate hm
    obtain ⟨_, rfl⟩ := h.kem_position hg hmk hek hk
    rcases hkem m _ mk hm hmk hek hk with hself | harr
    · exact Or.inl hself
    · rw [Session.delivered_record, Finset.mem_insert] at harr
      rcases harr with hi | harr
      · exact Or.inl (by omega)
      · exact Or.inr harr
  · have hnot : i ∉ Finset.range j := by
      rw [Finset.mem_range]
      omega
    unfold CacheFits at hfits ⊢
    rw [Session.delivered_record, Finset.sdiff_insert_of_notMem hnot] at hfits
    exact hfits

theorem FailedInadmissible.send (h : FailedInadmissible s) (p : Side) (coins : Coins C) (plaintext : Bytes) :
    FailedInadmissible (s.send P p coins plaintext) := by
  intro q j hj hop hadm
  refine h q j hj hop ⟨?_, hadm.2⟩
  intro m k mk hm hmk hek hk
  exact hadm.1 m k mk (Session.send_sent_of P hm) (Session.send_sent_of P hmk) hek hk

theorem FailedInadmissible.record (h : FailedInadmissible s) (hinv : Inv P u g s)
    (hlt : ∀ j ∈ s.delivered p, j < i) {st' : State C} {r : Except RatchetError Bytes}
    (hnew : i ∉ (s.record p i st' r).opened p → ¬ (KemFirst s p i ∧ CacheFits s p i))
    (hsub : s.opened p ⊆ (s.record p i st' r).opened p) : FailedInadmissible (s.record p i st' r) := by
  intro q j hj hop hadm
  obtain rfl | rfl := p.eq_or_other q
  · rw [Session.delivered_record, Finset.mem_insert] at hj
    rcases hj with rfl | hj
    · exact hnew hop (hinv.admissible_record (le_refl _) hadm)
    · exact h q j hj (fun hm => hop (hsub hm)) (hinv.admissible_record (le_of_lt (hlt j hj)) hadm)
  · rw [Session.delivered_record_other] at hj
    rw [Session.opened_record_other] at hop
    refine h p.other j hj hop ?_
    unfold KemFirst CacheFits at hadm ⊢
    rw [Session.delivered_record_other] at hadm
    exact hadm

theorem Inv.deliver_inOrder (h : Inv P u g s) (hP : P.Correct) (hfail : FailedInadmissible s)
    (hm : (s.sent p)[i]? = some m) (hlt : ∀ j ∈ s.delivered p, j < i) :
    (∃ st', s.deliver P p i m.msg = s.record p i st' (.ok m.plaintext) ∧ KemFirst s p i ∧ CacheFits s p i) ∨
    (∃ st' e, s.deliver P p i m.msg = s.record p i st' (.error e) ∧ ¬ (KemFirst s p i ∧ CacheFits s p i)) := by
  have once : i ∉ s.delivered p := fun hmem => absurd (hlt i hmem) (lt_irrefl _)
  unfold Session.deliver
  cases hrun : (decrypt P m.msg).run (s.st p.other) with
  | ok b st' =>
    obtain ⟨rfl, hadm⟩ := h.admissible_of_ok hP hm once hrun
    exact Or.inl ⟨st', rfl, hadm⟩
  | error e st' =>
    refine Or.inr ⟨st', e, rfl, ?_⟩
    intro ⟨hkem, hfits⟩
    obtain ⟨st'', hok⟩ := h.decrypt_ok hP hm once (h.all_opened hfail hm hlt hkem hfits) hkem hfits
    rw [hrun] at hok
    cases hok

theorem InOrder.failedInadmissible (hP : P.Correct) (hs : ∃ g, Inv P u g s) (h : FailedInadmissible s) {e : Event C}
    (hstep : InOrder P s e s') : FailedInadmissible s' := by
  obtain ⟨hstep, hfifo⟩ := hstep
  cases hstep with
  | send p coins plaintext room => exact h.send p coins plaintext
  | deliver p i m hm once =>
    obtain ⟨g, hinv⟩ := hs
    have hlt := hfifo p i rfl
    rcases hinv.deliver_inOrder hP h hm hlt with ⟨st', hd, _⟩ | ⟨st', e, hd, hnot⟩
    · rw [hd]
      refine h.record hinv hlt (fun hop => absurd ?_ hop) ?_
      · rw [Session.opened_record_ok]
        exact Finset.mem_insert_self _ _
      · rw [Session.opened_record_ok]
        exact Finset.subset_insert _ _
    · rw [hd]
      refine h.record hinv hlt (fun _ => hnot) ?_
      rw [Session.opened_record_error]

theorem inOrder_inv (hP : P.Correct) (h : Reachable (InOrder P) (Session.start P u) s) :
    (∃ g, Inv P u g s) ∧ FailedInadmissible s := by
  refine h.invariant (fun s => (∃ g, Inv P u g s) ∧ FailedInadmissible s) ⟨?_, ?_⟩ ?_
  · exact Honest.inv hP (Reachable.refl _ _)
  · intro p j hj
    exact absurd hj (Finset.notMem_empty _)
  · intro t e t' ⟨⟨g, hg⟩, hfail⟩ hs
    exact ⟨hg.step hP hs.1, hs.failedInadmissible hP ⟨g, hg⟩ hfail⟩

/-- Loss tolerance: in a run in order with any losses, a delivered message is decrypted to its plaintext
exactly when the KEM ciphertext of its epoch came with it or before it and at most `maxSkippedKeys`
messages before it, counted over the whole session, have not arrived; otherwise `decrypt` throws. -/
theorem inOrder_opens_iff (hP : P.Correct) (h : Reachable (InOrder P) (Session.start P u) s)
    (hstep : InOrder P s (.deliver p i) s') :
    ∃ m r, (s.sent p)[i]? = some m ∧ s'.received p = s.received p ++ [(i, r)] ∧
      (r = .ok m.plaintext ↔ KemFirst s p i ∧ CacheFits s p i) ∧
      ((∃ e, r = .error e) ↔ ¬ (KemFirst s p i ∧ CacheFits s p i)) := by
  obtain ⟨⟨g, hg⟩, hfail⟩ := inOrder_inv hP h
  obtain ⟨hstep, hfifo⟩ := hstep
  cases hstep with
  | deliver p i m hm once =>
    rcases hg.deliver_inOrder hP hfail hm (hfifo p i rfl) with ⟨st', hd, hadm⟩ | ⟨st', e, hd, hnot⟩
    · refine ⟨m, .ok m.plaintext, hm, ?_, iff_of_true rfl hadm, iff_of_false ?_ (not_not.mpr hadm)⟩
      · rw [hd]
        simp [Session.record]
      · rintro ⟨e, he⟩
        cases he
    · refine ⟨m, .error e, hm, ?_, iff_of_false ?_ hnot, iff_of_true ⟨e, rfl⟩ hnot⟩
      · rw [hd]
        simp [Session.record]
      · intro he
        cases he

theorem InOrder.send (s : Session C) (p : Side) (coins : Coins C) (plaintext : Bytes) (room : CounterRoom (s.st p)) :
    InOrder P s (.send p coins plaintext) (s.send P p coins plaintext) :=
  ⟨Step.send s p coins plaintext room, nofun⟩

theorem InOrder.deliver (hm : (s.sent p)[i]? = some m) (hlt : ∀ j ∈ s.delivered p, j < i) :
    InOrder P s (.deliver p i) (s.deliver P p i m.msg) := by
  refine ⟨Step.deliver s p i m hm (fun hmem => absurd (hlt i hmem) (lt_irrefl _)), ?_⟩
  intro q j h
  injection h with hp hj
  subst hp hj
  exact hlt

theorem twoReplies_delivered : twoReplies.delivered .bob = ∅ := rfl

theorem inOrder_opens_iff_replyOne :
    ∃ m r, (twoReplies.sent .bob)[0]? = some m ∧
      (twoReplies.deliver symbolic .bob 0 replyOne.msg).received .bob = twoReplies.received .bob ++ [(0, r)] ∧
      (r = .ok m.plaintext ↔ KemFirst twoReplies .bob 0 ∧ CacheFits twoReplies .bob 0) ∧
      ((∃ e, r = .error e) ↔ ¬ (KemFirst twoReplies .bob 0 ∧ CacheFits twoReplies .bob 0)) :=
  inOrder_opens_iff symbolic_ideal.toCorrect (twoReplies_reachable InOrder.send) 
    (InOrder.deliver (m := replyOne) rfl (by simp [twoReplies_delivered]))

def lostSince (s : Session C) (p : Side) (i : ℕ) : Finset ℕ :=
  (Finset.range i).filter (fun j => ∀ k ∈ s.delivered p, k < j)

/-- Loss tolerance without regard to earlier losses, for the deliveries that meet a further condition. -/
def LossTolerantWhen (cond : Session C → Side → ℕ → Prop) (P : Primitives C) (u : Setup C) : Prop :=
  ∀ (s s' : Session C) (p : Side) (i : ℕ) (m : Sent C), Reachable (InOrder P) (Session.start P u) s →
    InOrder P s (.deliver p i) s' → (s.sent p)[i]? = some m → (lostSince s p i).card ≤ maxSkippedKeys → cond s p i →
    (i, .ok m.plaintext) ∈ s'.received p

def LossTolerant (P : Primitives C) (u : Setup C) : Prop := LossTolerantWhen (fun _ _ _ => True) P u

theorem not_lossTolerantWhen {cond : Session C → Side → ℕ → Prop} (hP : P.Correct)
    (h : Reachable (InOrder P) (Session.start P u) s) (hm : (s.sent p)[i]? = some m) (hlt : ∀ j ∈ s.delivered p, j < i)
    (hfew : (lostSince s p i).card ≤ maxSkippedKeys) (hcond : cond s p i) (hnot : ¬ (KemFirst s p i ∧ CacheFits s p i)) :
    ¬ LossTolerantWhen cond P u := by
  intro htol
  have hmem := htol s _ p i m h (InOrder.deliver hm hlt) hm hfew hcond
  obtain ⟨⟨g, hg⟩, hfail⟩ := inOrder_inv hP h
  rcases hg.deliver_inOrder hP hfail hm hlt with ⟨_, _, hadm⟩ | ⟨st', e, hd, _⟩
  · exact hnot hadm
  · rw [hd] at hmem
    simp only [Session.record, Function.update_self, List.mem_append, List.mem_singleton, Prod.mk.injEq] at hmem
    rcases hmem with hmem | ⟨_, hmem⟩
    · have hin : i ∈ s.delivered p := List.mem_toFinset.mpr (List.mem_map.mpr ⟨_, hmem, rfl⟩)
      exact absurd (hlt i hin) (lt_irrefl _)
    · cases hmem

/-- Alice may send any number of messages before anything is delivered; none carries a KEM ciphertext. -/
theorem reachable_aliceSends (P : Primitives C) (u : Setup C) (coins : Coins C) (n : ℕ) (hn : n < 2 ^ 32) :
    ∃ s, Reachable (InOrder P) (Session.start P u) s ∧ (s.sent .alice).length = n ∧ s.received .alice = [] ∧
      (∀ m ∈ s.sent .alice, m.msg.header.kemCt = none) ∧ (s.st .alice).needKemStep = false ∧
      (s.st .alice).sendMsgNum.toNat = n := by
  induction n with
  | zero => exact ⟨_, Reachable.refl _ _, rfl, rfl, nofun, rfl, rfl⟩
  | succ n ih =>
    obtain ⟨s, hs, hlen, hrec, hkem, hneed, hnum⟩ := ih (by omega)
    have hroom : CounterRoom (s.st .alice) := by
      unfold CounterRoom
      rw [hneed, hnum]
      exact hn
    refine ⟨_, hs.tail (InOrder.send s .alice coins [] hroom), ?_, hrec, ?_, ?_, ?_⟩
    · rw [Session.send_sent_self, List.length_append, hlen]
      rfl
    · intro m hm
      rw [Session.send_sent_self, List.mem_append, List.mem_singleton] at hm
      rcases hm with hm | rfl
      · exact hkem m hm
      · simp [encrypt, encryptStep, hneed]
    · rw [Session.send_st_self]
      simp [encrypt, encryptStep, hneed]
    · rw [Session.send_st_self]
      simp only [encrypt, encryptStep, hneed, Bool.false_eq_true, if_false]
      rw [UInt32.toNat_add, hnum]
      exact Nat.mod_eq_of_lt hn

theorem not_lossTolerantWhen_cacheFits : ¬ LossTolerantWhen CacheFits symbolic demo := by
  have hfits : CacheFits twoReplies .bob 1 := by
    unfold CacheFits
    decide
  refine not_lossTolerantWhen symbolic_ideal.toCorrect (twoReplies_reachable InOrder.send) (p := .bob) (i := 1)
    (m := replyTwo) rfl (by simp [twoReplies_delivered]) (by decide) hfits ?_
  rintro ⟨hkem, _⟩
  rcases hkem replyTwo 0 replyOne rfl rfl rfl rfl with hself | harr
  · cases hself
  · rw [twoReplies_delivered] at harr
    cases harr

/-- Of Alice's messages only 51 and 103 arrive: 51 are lost each time, and 102 keys do not fit. -/
theorem not_lossTolerantWhen_kemFirst (hP : P.Correct) (u : Setup C) (coins : Coins C) : ¬ LossTolerantWhen KemFirst P u := by
  obtain ⟨s, hs, hlen, hrec, hkem, _, _⟩ := reachable_aliceSends P u coins 104 (by decide)
  have hm : (s.sent .alice)[51]? = some ((s.sent .alice).get ⟨51, by omega⟩) := List.getElem?_eq_getElem (by omega)
  have hdel : s.delivered .alice = ∅ := by
    unfold Session.delivered
    rw [hrec]
    rfl
  have hstep : InOrder P s _ _ := InOrder.deliver hm (by simp [hdel])
  obtain ⟨st', r, hd⟩ := s.deliver_record P .alice 51 ((s.sent .alice).get ⟨51, by omega⟩).msg
  rw [hd] at hstep
  have hdel' : (s.record .alice 51 st' r).delivered .alice = {51} := by
    rw [Session.delivered_record, hdel]
    rfl
  have hm' : (s.sent .alice)[103]? = some ((s.sent .alice).get ⟨103, by omega⟩) := List.getElem?_eq_getElem (by omega)
  refine not_lossTolerantWhen hP (hs.tail hstep) (p := .alice) (i := 103) hm' ?_ ?_ ?_ ?_
  · rw [hdel']
    decide
  · unfold lostSince
    rw [hdel']
    decide
  · intro _ j m' _ hj _ hk
    rw [hkem m' (List.mem_of_getElem? hj)] at hk
    cases hk
  · rintro ⟨_, hfits⟩
    unfold CacheFits at hfits
    rw [hdel'] at hfits
    revert hfits
    decide

/-- A lost first message is too much, and so are losses that add up: neither condition alone is enough. -/
theorem not_lossTolerant_replyTwo :
    ¬ LossTolerant symbolic demo ∧ ¬ LossTolerantWhen CacheFits symbolic demo ∧ ¬ LossTolerantWhen KemFirst symbolic demo := by
  refine ⟨?_, not_lossTolerantWhen_cacheFits, not_lossTolerantWhen_kemFirst symbolic_ideal.toCorrect demo (demoCoins 0)⟩
  intro htol
  refine not_lossTolerantWhen_cacheFits ?_
  intro s s' p i m hs hstep hm hfew _
  exact htol s s' p i m hs hstep hm hfew trivial

end ScatterWeb.Ratchet
