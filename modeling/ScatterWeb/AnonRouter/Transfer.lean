import ScatterWeb.AnonRouter.Handshake

/-! # One payload over a direct channel

`send` encrypts a payload, puts it into a clove, the clove into a garlic blob, and as much of the blob as
fits into one cell. The blob of a payload of `n` bytes takes `n + 61` bytes once `n` is past 227, so 435 bytes are the most
that arrive: of a longer one the cell carries the beginning of a blob, which the receiver cannot parse. An
empty payload is dropped by the receiver, which asks for more than 28 bytes of nonce and tag. In
both cases `send` returns true. -/
namespace ScatterWeb.AnonRouter
open Crypto Lib Lib.Cbor
set_option autoImplicit false

section Transfer
variable {A : Aes} {load : Bytes → Option Item}

/-! ## Sizes -/

theorem length_dataClove (hA : A.Correct) (ci : ChannelInfo) (id : MessageId) (nonce : AesNonce) (payload : Bytes) :
    (dataClove A ci id nonce payload).payload.length = payload.length + 28 := by
  unfold dataClove
  simp only [List.length_append, List.Vector.toList_length, hA.length_encrypt]
  omega

theorem garlic_fits_iff (hA : A.Correct) (ci : ChannelInfo) (id : MessageId) (nonce : AesNonce) (payload : Bytes) :
    (garlicEncode [dataClove A ci id nonce payload]).length ≤ 496 ↔ payload.length ≤ 435 := by
  have hlen : (garlicEncode [dataClove A ci id nonce payload]).length =
      30 + headSize (dataClove A ci id nonce payload).payload.length + (dataClove A ci id nonce payload).payload.length :=
    length_garlicEncode .data id _
  rw [hlen, length_dataClove hA]
  by_cases h2 : payload.length + 28 < 2 ^ 8
  · rw [headSize_two (by omega) h2]
    omega
  · by_cases h3 : payload.length + 28 < 2 ^ 16
    · rw [headSize_three (by omega) h3]
      omega
    · have := headSize_pos (payload.length + 28)
      omega

/-! ## The cell and its receiver -/

theorem openClove_dataClove (hA : A.Correct) {ci ci' : ChannelInfo} (hkey : ci'.channelKey = ci.channelKey) (id : MessageId)
    (nonce : AesNonce) (payload : Bytes) :
    openClove A ci' (dataClove A ci id nonce payload) = if payload = [] then none else some (ci'.channelId, payload) := by
  have hlen := length_dataClove hA ci id nonce payload
  unfold openClove
  by_cases hp : payload = []
  · rw [if_pos hp, if_neg]
    rintro ⟨_, hlt⟩
    rw [hlen, hp, List.length_nil] at hlt
    omega
  · have hpos : 0 < payload.length := List.length_pos_of_ne_nil hp
    let enc := A.encrypt ci.channelKey nonce payload []
    have hbody : (dataClove A ci id nonce payload).payload = nonce.toList ++ (enc.2.toList ++ enc.1) := rfl
    have hnonce : slice 0 12 (dataClove A ci id nonce payload).payload = nonce := by
      rw [hbody]
      exact fit_append nonce _
    have htag : slice 12 16 (dataClove A ci id nonce payload).payload = enc.2 := by
      rw [hbody]
      exact slice_append nonce.toList_length _ _
    have hct : (dataClove A ci id nonce payload).payload.drop 28 = enc.1 := by
      rw [hbody, ← List.append_assoc]
      exact List.drop_left' (by rw [List.length_append, List.Vector.toList_length, List.Vector.toList_length])
    rw [if_neg hp, if_pos ⟨rfl, by omega⟩, hnonce, htag, hct, hkey]
    have hdec : A.decrypt ci.channelKey nonce enc.1 enc.2 [] = some payload := hA.decrypt_encrypt _ _ _ _
    rw [hdec]
    rfl

theorem cellDecode_sendCell (hA : A.Correct) (ci : ChannelInfo) (id : MessageId) (nonce : AesNonce) (payload : Bytes) :
    ∃ hdr, cellDecode A (sendCell A ci id nonce payload) ci.channelKey =
      .ok ⟨hdr, (garlicEncode [dataClove A ci id nonce payload]).take 496⟩ := by
  let garlic := garlicEncode [dataClove A ci id nonce payload]
  have hgl : (sendHeader ci garlic).garlicLen.toNat = min garlic.length 496 := sendHeader_garlicLen ci garlic
  have hlen : (garlic.take (sendHeader ci garlic).garlicLen.toNat).length = min garlic.length 496 := by
    rw [List.length_take, hgl]
    omega
  have htake : garlic.take (sendHeader ci garlic).garlicLen.toNat = garlic.take 496 := by
    rw [hgl, Nat.min_comm, ← List.take_take, List.take_length]
  refine ⟨sendHeader ci garlic, ?_⟩
  have hdec := cellDecode_sealCell hA (sendHeader ci garlic) ci.channelKey (hgl.trans hlen.symm) (by omega)
  rw [htake] at hdec
  unfold sendCell
  dsimp only
  rw [htake]
  exact hdec

/-- What the peer gets out of the garlic of a cell. -/
theorem openClove_take_garlic (hA : A.Correct) (hload : Loads load) {ci ci' : ChannelInfo} (hkey : ci'.channelKey = ci.channelKey)
    (id : MessageId) (nonce : AesNonce) (payload : Bytes) :
    (garlicDecode load ((garlicEncode [dataClove A ci id nonce payload]).take 496)).filterMap (openClove A ci') =
      if 1 ≤ payload.length ∧ payload.length ≤ 435 then [(ci'.channelId, payload)] else [] := by
  let garlic := garlicEncode [dataClove A ci id nonce payload]
  by_cases hfit : payload.length ≤ 435
  · have hall : garlic.take 496 = garlic := List.take_of_length_le ((garlic_fits_iff hA ci id nonce payload).mpr hfit)
    change ((garlicDecode load (garlic.take 496)).filterMap _) = _
    rw [hall, garlicDecode_garlicEncode hload]
    simp only [List.filterMap_cons, List.filterMap_nil, openClove_dataClove hA hkey]
    by_cases hp : payload = []
    · rw [if_pos hp, if_neg]
      rintro ⟨hpos, _⟩
      rw [hp, List.length_nil] at hpos
      omega
    · have hpos : 0 < payload.length := List.length_pos_of_ne_nil hp
      rw [if_neg hp, if_pos ⟨hpos, hfit⟩]
  · have hcut : 496 < garlic.length := by
      by_contra hle
      exact hfit ((garlic_fits_iff hA ci id nonce payload).mp (Nat.le_of_not_lt hle))
    change ((garlicDecode load (garlic.take 496)).filterMap _) = _
    rw [garlicDecode_take hload _ hcut, if_neg (fun h => hfit h.2)]
    rfl

theorem onCell_sendCell (hA : A.Correct) (hload : Loads load) {m : Channels} (hm : NoGuards m) {id : MessageId}
    {ci ci' : ChannelInfo} (hid : ci.channelId = id) (hdirect : ci.anonLevel = .direct) (hguard : ci.myInboundGuard = none)
    (hget : m.get id = some ci') (hopen : ci'.state = .opened) (hkey : ci'.channelKey = ci.channelKey) (nonce : AesNonce)
    (payload : Bytes) :
    onCell A load m (sendCell A ci id nonce payload) =
      .ok (if ci'.anonLevel = .direct ∧ 1 ≤ payload.length ∧ payload.length ≤ 435 then [(id, payload)] else []) := by
  have htok : cellSessionTok (sendCell A ci id nonce payload) = fit 32 id.toList := by
    unfold sendCell
    rw [cellSessionTok_sealCell]
    change sendTok ci = _
    unfold sendTok
    rw [hguard]
    dsimp only
    rw [if_pos hdirect, hid]
  unfold onCell
  rw [find_ownsCell hm, htok, fit_fit (by omega), hget]
  by_cases hlevel : ci'.anonLevel = .direct
  · have hfilter : Option.filter (fun c => decide (c.anonLevel = .direct) && decide (c.state = .opened)) (some ci') =
        some ci' := by
      simp [Option.filter, hlevel, hopen]
    obtain ⟨hdr, hdec⟩ := cellDecode_sendCell hA ci id nonce payload
    rw [hfilter]
    dsimp only
    rw [hkey, hdec]
    dsimp only [Except.map]
    rw [openClove_take_garlic hA hload hkey, Channels.channelId_of_get hget]
    simp only [hlevel, true_and]
  · have hfilter : Option.filter (fun c => decide (c.anonLevel = .direct) && decide (c.state = .opened)) (some ci') =
        none := by
      simp [Option.filter, hlevel]
    rw [hfilter, if_neg (fun h => hlevel h.1)]

/-! ## From router to router -/

theorem onDatagram_data {r : Router} (hwf : r.Wf) (peerAddr : String) {cell : Cell} {frames : List (MessageId × Bytes)}
    (htype : byteAt 1 cell.toList = CellType.data.toByte) (hcell : onCell A load r.channels cell = .ok frames) :
    onDatagram A load r peerAddr cell.toList = .ok (r, { frames }) := by
  have hopen : (⟨byteAt 1 cell.toList⟩ : CellType) ≠ .chanOpen := by
    rw [htype]
    decide
  have hacc : (⟨byteAt 1 cell.toList⟩ : CellType) ≠ .chanAccept := by
    rw [htype]
    decide
  have hl : r.guards.lookup (cellSessionTok cell) = none := by
    rw [hwf.guards]
    rfl
  unfold onDatagram
  rw [if_neg (not_not.mpr cell.toList_length), fit_cell]
  dsimp only
  rw [if_neg hopen, if_neg hacc, hl]
  dsimp only
  rw [hcell]

theorem send_direct {tunnels : Tunnels} {m m' : Channels} {id : MessageId} {ci : ChannelInfo} {nonce : AesNonce}
    {payload : Bytes} {out : List Datagram} (hget : m.get id = some ci) (hopen : ci.state = .opened)
    (hdirect : ci.anonLevel = .direct) (haddr : ci.peerAddr ≠ "")
    (h : send A tunnels m id nonce payload = (m', .ok (true, out))) :
    out = [⟨ci.peerAddr, (sendCell A ci id nonce payload).toList⟩] := by
  rw [send_of_opened A tunnels hget hopen] at h
  have hres := (Prod.mk.inj h).2
  unfold dispatchCell at hres
  rw [if_pos ⟨hdirect, haddr⟩] at hres
  cases ht : transportSend ci.peerAddr (sendCell A ci id nonce payload).toList with
  | error e =>
    rw [ht] at hres
    cases hres
  | ok sent =>
    rw [ht] at hres
    obtain ⟨_, rfl⟩ := Prod.mk.inj (Except.ok.inj hres)
    exact (transportSend_ok ht).1

theorem send_direct_ok {t : Tunnels} {m : Channels} {id : MessageId} {ci : ChannelInfo} (hget : m.get id = some ci)
    (hopen : ci.state = .opened) (hdirect : ci.anonLevel = .direct) (haddr : ci.peerAddr ≠ "") {host : String × UInt16}
    (hparse : parseAddr ci.peerAddr = .ok host) (nonce : AesNonce) (payload : Bytes) :
    send A t m id nonce payload = (m.put { ci with sendSeq := ci.sendSeq + 1 },
      .ok (true, [⟨ci.peerAddr, (sendCell A ci id nonce payload).toList⟩])) := by
  rw [send_of_opened A t hget hopen]
  unfold dispatchCell
  rw [if_pos ⟨hdirect, haddr⟩, transportSend_of_parse hparse]

theorem receive_sendCell (hA : A.Correct) (hload : Loads load) {r : Router} (hwf : r.Wf) {id : MessageId}
    {ci ci' : ChannelInfo} (hid : ci.channelId = id) (hdirect : ci.anonLevel = .direct) (hguard : ci.myInboundGuard = none)
    (hget' : r.channels.get id = some ci') (hopen' : ci'.state = .opened) (hkey : ci'.channelKey = ci.channelKey)
    {peerAddr addr : String} {nonce : AesNonce} {payload : Bytes} :
    receive A load r (arriving peerAddr [⟨addr, (sendCell A ci id nonce payload).toList⟩]) = .ok (r,
      if ci'.anonLevel = .direct ∧ 1 ≤ payload.length ∧ payload.length ≤ 435 then [(id, payload)] else []) := by
  have hcell := onCell_sendCell hA hload hwf.noGuards hid hdirect hguard hget' hopen' hkey nonce payload
  have htype : byteAt 1 (sendCell A ci id nonce payload).toList = CellType.data.toByte := cellType_sealCell A _ _ _
  dsimp only [arriving, List.map, receive]
  rw [onDatagram_data hwf peerAddr htype hcell]
  dsimp only [Except.map]
  rw [List.append_nil]

/-- The peer gets a payload exactly when it is not empty, has at most 435 bytes, and the peer's channel is
direct too. -/
theorem payload_transferred_iff (hA : A.Correct) (hload : Loads load) {s r : Router}
    (hs : Reachable (Steps A load) Router.initial s) (hr : Reachable (Steps A load) Router.initial r)
    {id : MessageId} {ci ci' : ChannelInfo} {m : Channels} {nonce : AesNonce} {payload : Bytes} {out : List Datagram}
    (hget : s.channels.get id = some ci) (hopen : ci.state = .opened) (hdirect : ci.anonLevel = .direct)
    (haddr : ci.peerAddr ≠ "") (hsend : send A s.tunnels s.channels id nonce payload = (m, .ok (true, out)))
    (hget' : r.channels.get id = some ci') (hopen' : ci'.state = .opened) (hkey : ci'.channelKey = ci.channelKey)
    (peerAddr : String) :
    (∃ r', receive A load r (arriving peerAddr out) = .ok (r', [(id, payload)])) ↔
      ci'.anonLevel = .direct ∧ 1 ≤ payload.length ∧ payload.length ≤ 435 := by
  have hwf := Router.wf_of_reachable hr
  have hguard := ((Router.wf_of_reachable hs).noGuards id ci hget).1
  have hid := Channels.channelId_of_get hget
  rw [send_direct hget hopen hdirect haddr hsend, receive_sendCell hA hload hwf hid hdirect hguard hget' hopen' hkey]
  by_cases hc : ci'.anonLevel = .direct ∧ 1 ≤ payload.length ∧ payload.length ≤ 435
  · rw [if_pos hc]
    exact ⟨fun _ => hc, fun _ => ⟨r, rfl⟩⟩
  · rw [if_neg hc]
    constructor
    · rintro ⟨r', h⟩
      cases (Prod.mk.inj (Except.ok.inj h)).2
    · intro h
      exact absurd h hc

def PayloadsTransferred (A : Aes) (load : Bytes → Option Item) : Prop :=
  ∀ s r : Router, Reachable (Steps A load) Router.initial s → Reachable (Steps A load) Router.initial r →
    ∀ (id : MessageId) (ci ci' : ChannelInfo) (m : Channels) (nonce : AesNonce) (payload : Bytes) (out : List Datagram)
      (peerAddr : String),
      s.channels.get id = some ci → ci.state = .opened → ci.anonLevel = .direct → ci.peerAddr ≠ "" →
      send A s.tunnels s.channels id nonce payload = (m, .ok (true, out)) →
      r.channels.get id = some ci' → ci'.state = .opened → ci'.anonLevel = .direct → ci'.channelKey = ci.channelKey →
      ∃ r', receive A load r (arriving peerAddr out) = .ok (r', [(id, payload)])

end Transfer

theorem payload_transferred_iff_oneByte :
    ∃ s r out, Reachable (Steps checksumAes load) Router.initial s ∧ Reachable (Steps checksumAes load) Router.initial r ∧
      (send checksumAes s.tunnels s.channels (fit 16 [7]) (fit 12 []) [42]).2 = .ok (true, out) ∧
      ∃ r', receive checksumAes load r (arriving "10.0.0.1:9000" out) = .ok (r', [(fit 16 [7], [42])]) := by
  obtain ⟨s, hs, hget⟩ := reachable_initiator checksumAes_correct load_loads (fit 16 [7]) (fit 32 []) (fit 32 [1])
    "10.0.0.2:9000" "10.0.0.2:9000"
  obtain ⟨r, hr, hget'⟩ := reachable_acceptor checksumAes_correct load_loads (fit 16 [7]) (fit 32 [1]) "10.0.0.1:9000"
  have haddr : "10.0.0.2:9000" ≠ "" := by decide
  have hparse : parseAddr "10.0.0.2:9000" = .ok ("10.0.0.2", 9000) := rfl
  have hsend := send_direct_ok (A := checksumAes) (t := s.tunnels) hget rfl rfl haddr hparse (fit 12 []) [42]
  refine ⟨s, r, _, hs, hr, congrArg Prod.snd hsend, ?_⟩
  refine (payload_transferred_iff checksumAes_correct load_loads hs hr hget rfl rfl haddr hsend hget' rfl rfl
    "10.0.0.1:9000").mpr ?_
  exact ⟨rfl, by decide, by decide⟩

theorem not_payloadsTransferred_436 : ¬PayloadsTransferred checksumAes load := by
  intro h
  obtain ⟨s, hs, hget⟩ := reachable_initiator checksumAes_correct load_loads (fit 16 [7]) (fit 32 []) (fit 32 [1])
    "10.0.0.2:9000" "10.0.0.2:9000"
  obtain ⟨r, hr, hget'⟩ := reachable_acceptor checksumAes_correct load_loads (fit 16 [7]) (fit 32 [1]) "10.0.0.1:9000"
  have haddr : "10.0.0.2:9000" ≠ "" := by decide
  have hparse : parseAddr "10.0.0.2:9000" = .ok ("10.0.0.2", 9000) := rfl
  have hsend := send_direct_ok (A := checksumAes) (t := s.tunnels) hget rfl rfl haddr hparse (fit 12 [])
    (List.replicate 436 0)
  obtain ⟨r', hrecv⟩ := h s r hs hr _ _ _ _ _ _ _ "10.0.0.1:9000" hget rfl rfl haddr hsend hget' rfl rfl rfl
  have hid : (openInfo (fit 16 [7]) (fit 32 [1]) "10.0.0.2:9000").channelId = fit 16 [7] := rfl
  rw [receive_sendCell checksumAes_correct load_loads (Router.wf_of_reachable hr) hid rfl rfl hget' rfl rfl,
    if_neg (by rw [List.length_replicate]; omega)] at hrecv
  cases (Prod.mk.inj (Except.ok.inj hrecv)).2

end ScatterWeb.AnonRouter
