import ScatterWeb.AnonRouter.Transfer

/-! # Nonces of the cells on a direct channel

The nonce of a cell is made of its session token and its sequence number. Both ends of a direct channel write the
channel id into the token and both count their cells from zero, under one key; so the
nonces are distinct exactly when only one of the ends sends. -/
namespace ScatterWeb.AnonRouter
open Crypto Lib Lib.Cbor
set_option autoImplicit false

section Sessions
variable (A : Aes) (load : Bytes → Option Item)

def datagramNonce (data : Bytes) : AesNonce :=
  let hdr := cellReadHeader (fit 557 data)
  cellNonce hdr.sessionTok hdr.seqNum

/-- The routers at `addrA` and `addrB` have made the handshake for a direct channel: `channel.open` at the first, its
`CHAN_OPEN` cell, `channel.accept` at the second, and its `CHAN_ACCEPT` cell. -/
inductive Handshaken (addrA addrB : String) (id : MessageId) (key : AesKey) : Router → Router → Prop
  | mk {a b b₁ a₂ : Router} {out₁ out₂ : Output} {d d' : Datagram} (remotePubkey : String) (mode : Option String) (tmp : AesKey)
      (hopen : d ∈ (dispatchIpc A a (.channelOpen remotePubkey (some 0) mode (some addrB) id tmp)).2.1.sent)
      (hopened : onDatagram A load b addrA d.data = .ok (b₁, out₁))
      (haccept : d' ∈ (dispatchIpc A b₁ (.channelAccept id key)).2.1.sent)
      (haccepted : onDatagram A load (dispatchIpc A a (.channelOpen remotePubkey (some 0) mode (some addrB) id tmp)).1 addrB
        d'.data = .ok (a₂, out₂)) :
      Handshaken addrA addrB id key a₂ (dispatchIpc A b₁ (.channelAccept id key)).1

inductive Side
  | initiator
  | acceptor
  deriving DecidableEq

/-- One call of `frame.send`: at which end, the nonce of the inner encryption, the payload. -/
abbrev Sending := Side × AesNonce × Bytes

/-- What the two ends hand to their transports when they send in the given order. -/
def exchange (id : MessageId) : Router → Router → List Sending → List Datagram
  | _, _, [] => []
  | a, b, (.initiator, nonce, payload) :: sends =>
    let (a, out, _) := dispatchIpc A a (.frameSend id nonce payload)
    out.sent ++ exchange id a b sends
  | a, b, (.acceptor, nonce, payload) :: sends =>
    let (b, out, _) := dispatchIpc A b (.frameSend id nonce payload)
    out.sent ++ exchange id a b sends

end Sessions

/-! ## Sequence numbers -/

/-- The sequence numbers of the cells, when the ends have sent `na` and `nb` cells before. -/
def seqs : ℕ → ℕ → List Side → List ℕ
  | _, _, [] => []
  | na, nb, .initiator :: sides => na :: seqs (na + 1) nb sides
  | na, nb, .acceptor :: sides => nb :: seqs na (nb + 1) sides

theorem initiator_mem_seqs {sides : List Side} (h : Side.initiator ∈ sides) (na nb : ℕ) : na ∈ seqs na nb sides := by
  induction sides generalizing nb with
  | nil => cases h
  | cons s sides ih =>
    cases s with
    | initiator => exact List.mem_cons_self ..
    | acceptor =>
      have hmem : Side.initiator ∈ sides := (List.mem_cons.mp h).resolve_left (by decide)
      exact List.mem_cons_of_mem _ (ih hmem (nb + 1))

theorem acceptor_mem_seqs {sides : List Side} (h : Side.acceptor ∈ sides) (na nb : ℕ) : nb ∈ seqs na nb sides := by
  induction sides generalizing na with
  | nil => cases h
  | cons s sides ih =>
    cases s with
    | acceptor => exact List.mem_cons_self ..
    | initiator =>
      have hmem : Side.acceptor ∈ sides := (List.mem_cons.mp h).resolve_left (by decide)
      exact List.mem_cons_of_mem _ (ih hmem (na + 1))

/-- Once both ends have sent, the first cell of the second to send repeats a number. -/
theorem seqs_not_nodup {sides : List Side} (ha : Side.initiator ∈ sides) (hb : Side.acceptor ∈ sides) (n : ℕ) :
    ¬(seqs n n sides).Nodup := by
  cases sides with
  | nil => cases ha
  | cons s sides =>
    intro hnodup
    cases s with
    | initiator =>
      have hmem : Side.acceptor ∈ sides := (List.mem_cons.mp hb).resolve_left (by decide)
      exact (List.nodup_cons.mp hnodup).1 (acceptor_mem_seqs hmem (n + 1) n)
    | acceptor =>
      have hmem : Side.initiator ∈ sides := (List.mem_cons.mp ha).resolve_left (by decide)
      exact (List.nodup_cons.mp hnodup).1 (initiator_mem_seqs hmem n (n + 1))

theorem seqs_initiator {sides : List Side} (h : ∀ s ∈ sides, s = .initiator) (na nb : ℕ) :
    seqs na nb sides = List.range' na sides.length := by
  induction sides generalizing na with
  | nil => rfl
  | cons s sides ih =>
    obtain rfl := h s (List.mem_cons_self ..)
    rw [seqs, ih (fun s' hs' => h s' (List.mem_cons_of_mem _ hs'))]
    rfl

theorem seqs_acceptor {sides : List Side} (h : ∀ s ∈ sides, s = .acceptor) (na nb : ℕ) :
    seqs na nb sides = List.range' nb sides.length := by
  induction sides generalizing nb with
  | nil => rfl
  | cons s sides ih =>
    obtain rfl := h s (List.mem_cons_self ..)
    rw [seqs, ih (fun s' hs' => h s' (List.mem_cons_of_mem _ hs'))]
    rfl

theorem cellNonce_inj {tok : SessionToken} {m n : ℕ} (hm : m < 2 ^ 32) (hn : n < 2 ^ 32)
    (h : cellNonce tok (UInt32.ofNat m) = cellNonce tok (UInt32.ofNat n)) : m = n := by
  have hlist : tok.toList.take 8 ++ be 4 (UInt32.ofNat m).toNat = tok.toList.take 8 ++ be 4 (UInt32.ofNat n).toNat :=
    congrArg List.Vector.toList h
  have hbe := congrArg ofBe (List.append_cancel_left hlist)
  rw [ofBe_be_of_lt (UInt32.toNat_lt _), ofBe_be_of_lt (UInt32.toNat_lt _), UInt32.toNat_ofNat', UInt32.toNat_ofNat',
    Nat.mod_eq_of_lt hm, Nat.mod_eq_of_lt hn] at hbe
  exact hbe

theorem nonces_range_nodup {tok : SessionToken} {k : ℕ} (hk : k < 2 ^ 32) :
    ((List.range' 0 k).map (fun n => cellNonce tok (UInt32.ofNat n))).Nodup := by
  refine List.Nodup.map_on ?_ List.nodup_range'
  intro m hm n hn h
  rw [List.mem_range'_1] at hm hn
  exact cellNonce_inj (by omega) (by omega) h

/-! ## Endpoints -/

section Endpoints
variable {A : Aes} {load : Bytes → Option Item}

/-- The router has the direct channel open under `key`, has sent `n` cells on it, and can send more. -/
structure Endpoint (id : MessageId) (key : AesKey) (n : ℕ) (ci : ChannelInfo) (r : Router) : Prop where
  get : r.channels.get id = some ci
  opened : ci.state = .opened
  direct : ci.anonLevel = .direct
  key : ci.channelKey = key
  seq : ci.sendSeq = UInt32.ofNat n
  guard : ci.myInboundGuard = none
  addr : ci.peerAddr ≠ ""
  host : ∃ host, parseAddr ci.peerAddr = .ok host

theorem Endpoint.send {id : MessageId} {key : AesKey} {n : ℕ} {ci : ChannelInfo} {r : Router} (h : Endpoint id key n ci r)
    (nonce : AesNonce) (payload : Bytes) :
    (dispatchIpc A r (.frameSend id nonce payload)).2.1.sent = [⟨ci.peerAddr, (sendCell A ci id nonce payload).toList⟩] ∧
      Endpoint id key (n + 1) { ci with sendSeq := ci.sendSeq + 1 } (dispatchIpc A r (.frameSend id nonce payload)).1 := by
  obtain ⟨host, hhost⟩ := h.host
  have hsend := send_direct_ok (A := A) (t := r.tunnels) h.get h.opened h.direct h.addr hhost nonce payload
  constructor
  · unfold dispatchIpc
    dsimp only
    rw [hsend]
  · rw [(dispatchIpc_frameSend A r id nonce payload).1, hsend]
    refine ⟨?_, h.opened, h.direct, h.key, ?_, h.guard, h.addr, h.host⟩
    · have hid := Channels.channelId_of_get h.get
      have hput := get_put_eq r.channels { ci with sendSeq := ci.sendSeq + 1 } id
      rw [if_pos hid] at hput
      exact hput
    · change ci.sendSeq + 1 = UInt32.ofNat (n + 1)
      rw [h.seq, UInt32.ofNat_add]
      rfl

theorem Endpoint.nonce {id : MessageId} {key : AesKey} {n : ℕ} {ci : ChannelInfo} {r : Router} (h : Endpoint id key n ci r)
    (nonce : AesNonce) (payload : Bytes) :
    datagramNonce (sendCell A ci id nonce payload).toList = cellNonce (fit 32 id.toList) (UInt32.ofNat n) := by
  have htok : sendTok ci = fit 32 id.toList := by
    unfold sendTok
    rw [h.guard]
    dsimp only
    rw [if_pos h.direct, Channels.channelId_of_get h.get]
  unfold datagramNonce sendCell
  rw [fit_cell]
  dsimp only
  rw [cellReadHeader_sealCell]
  change cellNonce (sendTok ci) ci.sendSeq = _
  rw [htok, h.seq]

theorem exchange_spec {id : MessageId} {key : AesKey} {na nb : ℕ} {ca cb : ChannelInfo} {a b : Router}
    (ha : Endpoint id key na ca a) (hb : Endpoint id key nb cb b) (sends : List Sending) :
    (exchange A id a b sends).map (fun d => datagramNonce d.data) =
        (seqs na nb (sends.map Prod.fst)).map (fun n => cellNonce (fit 32 id.toList) (UInt32.ofNat n)) ∧
      ∀ d ∈ exchange A id a b sends, ∃ hdr g, d.data = (sealCell A hdr key g).toList := by
  induction sends generalizing na nb ca cb a b with
  | nil => exact ⟨rfl, fun _ h => nomatch h⟩
  | cons s sends ih =>
    obtain ⟨side, nonce, payload⟩ := s
    cases side with
    | initiator =>
      obtain ⟨hsent, ha'⟩ := ha.send (A := A) nonce payload
      obtain ⟨hnonces, hkeys⟩ := ih ha' hb
      rw [exchange]
      dsimp only
      rw [hsent, List.map_append, hnonces]
      refine ⟨congrArg (fun x => x :: _) (ha.nonce nonce payload), ?_⟩
      intro d hd
      rcases List.mem_append.mp hd with hd | hd
      · rw [List.mem_singleton.mp hd, ← ha.key]
        exact ⟨_, _, rfl⟩
      · exact hkeys d hd
    | acceptor =>
      obtain ⟨hsent, hb'⟩ := hb.send (A := A) nonce payload
      obtain ⟨hnonces, hkeys⟩ := ih ha hb'
      rw [exchange]
      dsimp only
      rw [hsent, List.map_append, hnonces]
      refine ⟨congrArg (fun x => x :: _) (hb.nonce nonce payload), ?_⟩
      intro d hd
      rcases List.mem_append.mp hd with hd | hd
      · rw [List.mem_singleton.mp hd, ← hb.key]
        exact ⟨_, _, rfl⟩
      · exact hkeys d hd

theorem Handshaken.endpoints (hA : A.Correct) (hload : Loads load) {addrA addrB : String} {id : MessageId} {key : AesKey}
    {a b : Router} (h : Handshaken A load addrA addrB id key a b) :
    ∃ ca cb, Endpoint id key 0 ca a ∧ Endpoint id key 0 cb b := by
  obtain @⟨a, b, b₁, a₂, out₁, out₂, d, d', remotePubkey, mode, tmp, hopen, hopened, haccept, haccepted⟩ := h
  obtain ⟨_, hostB, ⟨rfl⟩, hhostB, rfl⟩ := mem_sent_channelOpen hopen
  have hb₁ : b₁.channels.get id = some
      { channelId := id, peerAddr := addrA, anonLevel := .direct, mode := modeOf (mode.getD "message") } := by
    rw [onDatagram_entry hopened]
    exact afterDatagram_chanOpenCell hA hload id .direct (modeOf (mode.getD "message")) _ addrA
  obtain ⟨ci, hostA, hci, hne, hhostA, rfl⟩ := mem_sent_channelAccept haccept
  rw [hb₁] at hci
  obtain rfl := Option.some.inj hci
  have hneB : addrB ≠ "" := by
    rintro rfl
    cases hhostB
  have ha₂ := onDatagram_entry haccepted id
  rw [afterDatagram_chanAcceptCell hA hload, entry_channelOpen] at ha₂
  have hb₂ := entry_channelAccept A b₁ id key
  rw [hb₁] at hb₂
  exact ⟨_, _, ⟨ha₂, rfl, rfl, rfl, rfl, rfl, hneB, _, hhostB⟩, ⟨hb₂, rfl, rfl, rfl, rfl, rfl, hne, _, hhostA⟩⟩

/-- After the handshake every cell of either end is built under the channel key, and the nonces are distinct exactly
when one of the ends does not send. -/
theorem cell_nonces_distinct_iff (hA : A.Correct) (hload : Loads load) {addrA addrB : String} {id : MessageId} {key : AesKey}
    {a b : Router} (h : Handshaken A load addrA addrB id key a b) {sends : List Sending}
    (ha : (sends.map Prod.fst).count .initiator < 2 ^ 32) (hb : (sends.map Prod.fst).count .acceptor < 2 ^ 32) :
    (∀ d ∈ exchange A id a b sends, ∃ hdr g, d.data = (sealCell A hdr key g).toList) ∧
      (((exchange A id a b sends).map (fun d => datagramNonce d.data)).Nodup ↔
        (∀ s ∈ sends, s.1 = .initiator) ∨ (∀ s ∈ sends, s.1 = .acceptor)) := by
  obtain ⟨ca, cb, hca, hcb⟩ := h.endpoints hA hload
  obtain ⟨hnonces, hkeys⟩ := exchange_spec (A := A) hca hcb sends
  refine ⟨hkeys, ?_⟩
  rw [hnonces]
  have hall : ∀ side, (∀ s ∈ sends, s.1 = side) ↔ ∀ s ∈ sends.map Prod.fst, s = side := by
    intro side
    simp only [List.mem_map, forall_exists_index, and_imp, forall_apply_eq_imp_iff₂]
  rw [hall, hall]
  constructor
  · intro hnodup
    by_contra hboth
    obtain ⟨hi, hac⟩ := not_or.mp hboth
    have hacc : Side.acceptor ∈ sends.map Prod.fst := by
      push Not at hi
      obtain ⟨s, hs, hne⟩ := hi
      cases s with
      | initiator => exact absurd rfl hne
      | acceptor => exact hs
    have hini : Side.initiator ∈ sends.map Prod.fst := by
      push Not at hac
      obtain ⟨s, hs, hne⟩ := hac
      cases s with
      | initiator => exact hs
      | acceptor => exact absurd rfl hne
    exact seqs_not_nodup hini hacc 0 (List.Nodup.of_map _ hnodup)
  · rintro (hside | hside)
    · rw [seqs_initiator hside]
      rw [List.count_eq_length.mpr (fun s hs => (hside s hs).symm)] at ha
      exact nonces_range_nodup ha
    · rw [seqs_acceptor hside]
      rw [List.count_eq_length.mpr (fun s hs => (hside s hs).symm)] at hb
      exact nonces_range_nodup hb

def NoncesUnique (A : Aes) (load : Bytes → Option Item) : Prop :=
  ∀ addrA addrB id key a b, Handshaken A load addrA addrB id key a b → ∀ sends : List Sending,
    (sends.map Prod.fst).count .initiator < 2 ^ 32 → (sends.map Prod.fst).count .acceptor < 2 ^ 32 →
    ((exchange A id a b sends).map (fun d => datagramNonce d.data)).Nodup

theorem exists_handshaken (hA : A.Correct) (hload : Loads load) (id : MessageId) (key : AesKey) :
    ∃ a b, Handshaken A load "10.0.0.1:9000" "10.0.0.2:9000" id key a b := by
  obtain ⟨b₁, out₁, a₂, out₂, hopen, hopened, _, haccept, haccepted, _⟩ := handshake_inOrder hA hload id key
  have hopen' : ⟨"10.0.0.2:9000", (chanOpenCell A id .direct .message).toList⟩ ∈
      (dispatchIpc A Router.initial (openCall id)).2.1.sent := by
    rw [hopen]
    exact List.mem_cons_self ..
  have haccept' : ⟨"10.0.0.1:9000", (chanAcceptCell A id key).toList⟩ ∈
      (dispatchIpc A b₁ (.channelAccept id key)).2.1.sent := by
    rw [haccept]
    exact List.mem_cons_self ..
  exact ⟨a₂, _, Handshaken.mk "" none (fit 32 []) hopen' hopened haccept' haccepted⟩

theorem not_noncesUnique (hA : A.Correct) (hload : Loads load) (id : MessageId) (key : AesKey) : ¬NoncesUnique A load := by
  intro h
  obtain ⟨a, b, hab⟩ := exists_handshaken hA hload id key
  obtain ⟨ca, cb, hca, hcb⟩ := hab.endpoints hA hload
  have hnodup := h _ _ _ _ _ _ hab [(.initiator, fit 12 [], [1]), (.acceptor, fit 12 [], [2])] (by decide) (by decide)
  rw [(exchange_spec hca hcb _).1] at hnodup
  exact seqs_not_nodup (by decide) (by decide) 0 (List.Nodup.of_map _ hnodup)

end Endpoints

theorem cell_nonces_distinct_iff_oneEnd :
    ∃ a b, Handshaken checksumAes load "10.0.0.1:9000" "10.0.0.2:9000" (fit 16 [7]) (fit 32 [1]) a b ∧
      ((exchange checksumAes (fit 16 [7]) a b [(.initiator, fit 12 [], [1]), (.initiator, fit 12 [], [2])]).map
        (fun d => datagramNonce d.data)).Nodup := by
  obtain ⟨a, b, hab⟩ := exists_handshaken checksumAes_correct load_loads (fit 16 [7]) (fit 32 [1])
  refine ⟨a, b, hab, ?_⟩
  exact (cell_nonces_distinct_iff checksumAes_correct load_loads hab (by decide) (by decide)).2.mpr (Or.inl (by decide))

theorem not_noncesUnique_checksum : ¬NoncesUnique checksumAes load :=
  not_noncesUnique checksumAes_correct load_loads (fit 16 [7]) (fit 32 [1])

end ScatterWeb.AnonRouter
