import ScatterWeb.AnonRouter.Entry
import ScatterWeb.Crypto.Symbolic

/-! # Handshake cells on the wire

`send_chan_open` and `send_chan_accept` build cells under a key of zeros; a router that receives one reads back what
was put in. Nothing in such a cell depends on a secret of its sender, so the lemmas are as much about
cells that a third party builds. -/
namespace ScatterWeb.AnonRouter
open Crypto Lib Lib.Cbor
set_option autoImplicit false

def handshakeCell (A : Aes) (cellType : CellType) (buf : Bytes) : Cell :=
  sealCell A { cellType, garlicLen := UInt16.ofNat buf.length } handshakeKey buf

def chanOpenCell (A : Aes) (channelId : MessageId) (anon : AnonLevel) (mode : ChannelMode) : Cell :=
  handshakeCell A .chanOpen (chanOpenPayload channelId anon mode)

def chanAcceptCell (A : Aes) (channelId : MessageId) (channelKey : AesKey) : Cell :=
  handshakeCell A .chanAccept (chanAcceptPayload channelId channelKey)

/-! ## What is sent -/

def chanOpenPairs (channelId : MessageId) (anon : AnonLevel) (mode : ChannelMode) : List (Item × Item) :=
  [(.text (ascii "channel_id"), .bytes channelId.toList), (.text (ascii "anon_level"), .uint (.a64 anon.toByte.toUInt64)),
    (.text (ascii "mode"), .uint (.a64 mode.toByte.toUInt64))]

def chanAcceptPairs (channelId : MessageId) (channelKey : AesKey) : List (Item × Item) :=
  [(.text (ascii "channel_id"), .bytes channelId.toList), (.text (ascii "channel_key"), .bytes channelKey.toList)]

theorem chanOpenPayload_eq (channelId : MessageId) (anon : AnonLevel) (mode : ChannelMode) :
    chanOpenPayload channelId anon mode = encode (.map (chanOpenPairs channelId anon mode)) := rfl

theorem chanAcceptPayload_eq (channelId : MessageId) (channelKey : AesKey) :
    chanAcceptPayload channelId channelKey = encode (.map (chanAcceptPairs channelId channelKey)) := rfl

theorem length_chanOpenPayload (channelId : MessageId) (anon : AnonLevel) (mode : ChannelMode) :
    (chanOpenPayload channelId anon mode).length ≤ 496 := by
  have h1 : (ascii "channel_id").length = 10 := rfl
  have h2 : (ascii "anon_level").length = 10 := rfl
  have h3 : (ascii "mode").length = 4 := rfl
  rw [chanOpenPayload_eq]
  simp [chanOpenPairs, encode, encodePairs, h1, h2, h3, encodeHead, Head.ofNat]

theorem length_chanAcceptPayload (channelId : MessageId) (channelKey : AesKey) :
    (chanAcceptPayload channelId channelKey).length ≤ 496 := by
  have h1 : (ascii "channel_id").length = 10 := rfl
  have h2 : (ascii "channel_key").length = 11 := rfl
  rw [chanAcceptPayload_eq]
  simp [chanAcceptPairs, encode, encodePairs, h1, h2, encodeHead, Head.ofNat]

theorem sendHandshake_eq (A : Aes) (cellType : CellType) {buf : Bytes} (h : buf.length ≤ 496) (peerAddr : String) :
    sendHandshake A cellType buf peerAddr =
      (transportSend peerAddr (handshakeCell A cellType buf).toList).mapError .transport := by
  unfold sendHandshake cellBuild
  rw [if_neg (by omega)]
  dsimp only
  rw [if_neg (by omega)]
  rfl

theorem sendChanOpen_eq (A : Aes) (channelId : MessageId) (anon : AnonLevel) (mode : ChannelMode) (peerAddr : String) :
    sendChanOpen A channelId anon mode peerAddr =
      (transportSend peerAddr (chanOpenCell A channelId anon mode).toList).mapError .transport :=
  sendHandshake_eq A _ (length_chanOpenPayload channelId anon mode) peerAddr

theorem sendChanAccept_eq (A : Aes) (channelId : MessageId) (channelKey : AesKey) (peerAddr : String) :
    sendChanAccept A channelId channelKey peerAddr =
      (transportSend peerAddr (chanAcceptCell A channelId channelKey).toList).mapError .transport :=
  sendHandshake_eq A _ (length_chanAcceptPayload channelId channelKey) peerAddr

theorem transportSend_ok {peerAddr : String} {data : Bytes} {out : List Datagram}
    (h : transportSend peerAddr data = .ok out) : out = [⟨peerAddr, data⟩] ∧ ∃ host, parseAddr peerAddr = .ok host := by
  unfold transportSend at h
  cases hp : parseAddr peerAddr with
  | error e =>
    rw [hp] at h
    cases h
  | ok host =>
    rw [hp] at h
    exact ⟨(Except.ok.inj h).symm, host, rfl⟩

theorem sendChanOpen_ok {A : Aes} {channelId : MessageId} {anon : AnonLevel} {mode : ChannelMode} {peerAddr : String}
    {out : List Datagram} (h : sendChanOpen A channelId anon mode peerAddr = .ok out) :
    out = [⟨peerAddr, (chanOpenCell A channelId anon mode).toList⟩] ∧ ∃ host, parseAddr peerAddr = .ok host := by
  rw [sendChanOpen_eq] at h
  cases ht : transportSend peerAddr (chanOpenCell A channelId anon mode).toList with
  | error e =>
    rw [ht] at h
    cases h
  | ok sent =>
    rw [ht] at h
    cases h
    exact transportSend_ok ht

theorem sendChanAccept_ok {A : Aes} {channelId : MessageId} {channelKey : AesKey} {peerAddr : String} {out : List Datagram}
    (h : sendChanAccept A channelId channelKey peerAddr = .ok out) :
    out = [⟨peerAddr, (chanAcceptCell A channelId channelKey).toList⟩] ∧ ∃ host, parseAddr peerAddr = .ok host := by
  rw [sendChanAccept_eq] at h
  cases ht : transportSend peerAddr (chanAcceptCell A channelId channelKey).toList with
  | error e =>
    rw [ht] at h
    cases h
  | ok sent =>
    rw [ht] at h
    cases h
    exact transportSend_ok ht

theorem mem_sent_channelOpen {A : Aes} {r : Router} {remotePubkey : String} {anonLevel : Option UInt64}
    {mode peerAddr : Option String} {id : MessageId} {tmp : AesKey} {d : Datagram}
    (h : d ∈ (dispatchIpc A r (.channelOpen remotePubkey anonLevel mode peerAddr id tmp)).2.1.sent) :
    ∃ addr host, peerAddr = some addr ∧ parseAddr addr = .ok host ∧
      d = ⟨addr, (chanOpenCell A id (anonLevelOf (anonLevel.getD 0)) (modeOf (mode.getD "message"))).toList⟩ := by
  unfold dispatchIpc at h
  cases peerAddr with
  | none => cases h
  | some addr =>
    dsimp only at h
    cases hs : sendChanOpen A id (anonLevelOf (anonLevel.getD 0)) (modeOf (mode.getD "message")) addr with
    | error e =>
      rw [hs] at h
      cases h
    | ok sent =>
      rw [hs] at h
      obtain ⟨rfl, host, hhost⟩ := sendChanOpen_ok hs
      exact ⟨addr, host, rfl, hhost, List.mem_singleton.mp h⟩

theorem mem_sent_channelAccept {A : Aes} {r : Router} {id : MessageId} {key : AesKey} {d : Datagram}
    (h : d ∈ (dispatchIpc A r (.channelAccept id key)).2.1.sent) :
    ∃ ci host, r.channels.get id = some ci ∧ ci.peerAddr ≠ "" ∧ parseAddr ci.peerAddr = .ok host ∧
      d = ⟨ci.peerAddr, (chanAcceptCell A id key).toList⟩ := by
  have hacc := get_accept r.channels id id key
  unfold dispatchIpc at h
  cases hget : r.channels.get id with
  | none =>
    rw [hget, if_pos rfl] at hacc
    dsimp only at h
    rw [hacc] at h
    cases h
  | some ci =>
    rw [hget, if_pos rfl, Option.map_some] at hacc
    have hkey : (accept r.channels id key).2 = some key := by
      unfold accept
      rw [hget]
    dsimp only at h
    rw [hacc, hkey] at h
    dsimp only at h
    by_cases hp : ci.peerAddr = ""
    · rw [if_pos hp] at h
      cases h
    · rw [if_neg hp, Option.getD_some] at h
      cases hs : sendChanAccept A id key ci.peerAddr with
      | error e =>
        rw [hs] at h
        cases h
      | ok sent =>
        rw [hs] at h
        obtain ⟨rfl, host, hhost⟩ := sendChanAccept_ok hs
        exact ⟨ci, host, rfl, hp, hhost, List.mem_singleton.mp h⟩

theorem transportSend_of_parse {peerAddr : String} {host : String × UInt16} (h : parseAddr peerAddr = .ok host) (data : Bytes) :
    transportSend peerAddr data = .ok [⟨peerAddr, data⟩] := by
  unfold transportSend
  rw [h]
  rfl

theorem sent_channelOpen (A : Aes) (r : Router) (remotePubkey : String) (anonLevel : Option UInt64) (mode : Option String)
    {addr : String} {host : String × UInt16} (h : parseAddr addr = .ok host) (id : MessageId) (tmp : AesKey) :
    (dispatchIpc A r (.channelOpen remotePubkey anonLevel mode (some addr) id tmp)).2.1.sent =
      [⟨addr, (chanOpenCell A id (anonLevelOf (anonLevel.getD 0)) (modeOf (mode.getD "message"))).toList⟩] := by
  unfold dispatchIpc
  dsimp only
  rw [sendChanOpen_eq, transportSend_of_parse h]
  rfl

theorem sent_channelAccept (A : Aes) {r : Router} {id : MessageId} {ci : ChannelInfo} (hget : r.channels.get id = some ci)
    (haddr : ci.peerAddr ≠ "") {host : String × UInt16} (h : parseAddr ci.peerAddr = .ok host) (key : AesKey) :
    (dispatchIpc A r (.channelAccept id key)).2.1.sent = [⟨ci.peerAddr, (chanAcceptCell A id key).toList⟩] := by
  have hacc := get_accept r.channels id id key
  have hkey : (accept r.channels id key).2 = some key := by
    unfold accept
    rw [hget]
  rw [hget, if_pos rfl, Option.map_some] at hacc
  unfold dispatchIpc
  dsimp only
  rw [hacc, hkey]
  dsimp only
  rw [if_neg haddr, Option.getD_some, sendChanAccept_eq, transportSend_of_parse h]
  rfl

/-! ## What is received -/

theorem fit_cell (cell : Cell) : fit 557 cell.toList = cell := by
  have h := fit_append cell []
  rwa [List.append_nil] at h

section Received
variable {A : Aes} {load : Bytes → Option Item}

theorem handshakePairs_handshakeCell (hA : A.Correct) (hload : Loads load) (cellType : CellType)
    {kvs : List (Item × Item)} (hlen : (encode (.map kvs)).length ≤ 496) :
    handshakePairs A load (handshakeCell A cellType (encode (.map kvs))) = some kvs := by
  have hgarlic : (UInt16.ofNat (encode (.map kvs)).length).toNat = (encode (.map kvs)).length := by
    rw [UInt16.toNat_ofNat']
    omega
  unfold handshakePairs handshakeCell
  rw [cellDecode_sealCell hA _ _ hgarlic hlen]
  dsimp only
  rw [hload.load_encode]

theorem readChanOpen_pairs (channelId : MessageId) (anon : AnonLevel) (mode : ChannelMode) :
    readChanOpen (chanOpenPairs channelId anon mode) = ⟨channelId, anon, mode⟩ := by
  obtain ⟨anon⟩ := anon
  obtain ⟨mode⟩ := mode
  simp [chanOpenPairs, readChanOpen, readArr, readByte, keyOf, ascii_inj, bytesOf, isUint, safeCborUint, Arg.toNat,
    copyInto_toList]

theorem handshakeOf_chanOpenCell (hA : A.Correct) (hload : Loads load) (channelId : MessageId) (anon : AnonLevel)
    (mode : ChannelMode) :
    handshakeOf A load (chanOpenCell A channelId anon mode).toList = some (.chanOpen ⟨channelId, anon, mode⟩) := by
  have hpairs : handshakePairs A load (chanOpenCell A channelId anon mode) = some (chanOpenPairs channelId anon mode) :=
    handshakePairs_handshakeCell hA hload .chanOpen (length_chanOpenPayload channelId anon mode)
  have htype : (⟨byteAt 1 (chanOpenCell A channelId anon mode).toList⟩ : CellType) = .chanOpen :=
    congrArg CellType.mk (cellType_sealCell A _ _ _)
  unfold handshakeOf
  rw [if_neg (not_not.mpr (List.Vector.toList_length _)), fit_cell]
  dsimp only
  rw [if_pos htype, hpairs, Option.map_some, readChanOpen_pairs]

theorem handshakeOf_chanAcceptCell (hA : A.Correct) (hload : Loads load) (channelId : MessageId) (channelKey : AesKey) :
    handshakeOf A load (chanAcceptCell A channelId channelKey).toList = some (.chanAccept channelId channelKey) := by
  have hpairs : handshakePairs A load (chanAcceptCell A channelId channelKey) = some (chanAcceptPairs channelId channelKey) :=
    handshakePairs_handshakeCell hA hload .chanAccept (length_chanAcceptPayload channelId channelKey)
  have htype : (⟨byteAt 1 (chanAcceptCell A channelId channelKey).toList⟩ : CellType) = .chanAccept :=
    congrArg CellType.mk (cellType_sealCell A _ _ _)
  have hne : CellType.chanAccept ≠ CellType.chanOpen := by decide
  unfold handshakeOf
  rw [if_neg (not_not.mpr (List.Vector.toList_length _)), fit_cell]
  dsimp only
  rw [htype, if_neg hne, if_pos rfl, hpairs, Option.bind_some]
  simp [chanAcceptPairs, gotKey, readArr, keyOf, ascii_inj, bytesOf, copyInto_toList]

/-- A handshake cell never ends the process. -/
theorem onDatagram_of_handshake {data : Bytes} {hk : Handshake} (h : handshakeOf A load data = some hk) (r : Router)
    (peerAddr : String) : ∃ r' out, onDatagram A load r peerAddr data = .ok (r', out) := by
  unfold handshakeOf at h
  unfold onDatagram
  by_cases hlen : data.length ≠ 557
  · rw [if_pos hlen] at h
    cases h
  rw [if_neg hlen] at h ⊢
  dsimp only at h ⊢
  by_cases hopen : (⟨byteAt 1 (fit 557 data).toList⟩ : CellType) = .chanOpen
  · rw [if_pos hopen]
    exact ⟨_, _, rfl⟩
  rw [if_neg hopen] at h ⊢
  by_cases hacc : (⟨byteAt 1 (fit 557 data).toList⟩ : CellType) = .chanAccept
  · rw [if_pos hacc]
    exact ⟨_, _, rfl⟩
  rw [if_neg hacc] at h
  cases h

/-- Nor does it bring frames, or make the router send. -/
theorem onDatagram_handshake_output {data : Bytes} {hk : Handshake} (h : handshakeOf A load data = some hk) {r r' : Router}
    {peerAddr : String} {out : Output} (hstep : onDatagram A load r peerAddr data = .ok (r', out)) :
    out.frames = [] ∧ out.sent = [] := by
  obtain ⟨_, _, rfl⟩ | ⟨_, _, hcell⟩ | ⟨_, _, _, rfl⟩ | ⟨hlen, hopen, hacc, _⟩ := onDatagram_cases hstep
  · exact ⟨rfl, rfl⟩
  · have hout : _ = out := congrArg Prod.snd hcell
    rw [← hout]
    exact onChanOpenCell_output _ _ _
  · exact ⟨rfl, rfl⟩
  · unfold handshakeOf at h
    rw [if_neg (not_not.mpr hlen), if_neg hopen, if_neg hacc] at h
    cases h

/-! ## The entry of the channel -/

theorem afterDatagram_chanOpenCell (hA : A.Correct) (hload : Loads load) (id : MessageId) (anon : AnonLevel) (mode : ChannelMode)
    (old : Option ChannelInfo) (peerAddr : String) :
    afterDatagram A load id old peerAddr (chanOpenCell A id anon mode).toList =
      some { channelId := id, peerAddr, anonLevel := anon, mode } := by
  unfold afterDatagram
  rw [handshakeOf_chanOpenCell hA hload]
  exact if_pos rfl

theorem afterDatagram_chanAcceptCell (hA : A.Correct) (hload : Loads load) (id : MessageId) (key : AesKey)
    (old : Option ChannelInfo) (peerAddr : String) :
    afterDatagram A load id old peerAddr (chanAcceptCell A id key).toList =
      old.map (fun ci => { ci with channelKey := key, state := .opened }) := by
  unfold afterDatagram
  rw [handshakeOf_chanAcceptCell hA hload]
  exact if_pos rfl

variable (A) in
theorem entry_channelOpen (r : Router) (remotePubkey : String) (anonLevel : Option UInt64) (mode peerAddr : Option String)
    (id : MessageId) (tmp : AesKey) :
    (dispatchIpc A r (.channelOpen remotePubkey anonLevel mode peerAddr id tmp)).1.channels.get id =
      some { channelId := id, remotePubkeyHex := remotePubkey, anonLevel := anonLevelOf (anonLevel.getD 2)
             mode := modeOf (mode.getD "message"), channelKey := tmp, peerAddr := peerAddr.getD "" } := by
  have h := dispatchIpc_entry A r (.channelOpen remotePubkey anonLevel mode peerAddr id tmp) id
  rw [AfterCall, if_pos rfl] at h
  exact h

variable (A) in
theorem entry_channelAccept (r : Router) (id : MessageId) (key : AesKey) :
    (dispatchIpc A r (.channelAccept id key)).1.channels.get id =
      (r.channels.get id).map (fun ci => { ci with channelKey := key, state := .opened }) := by
  have h := dispatchIpc_entry A r (.channelAccept id key) id
  rw [AfterCall, if_pos rfl] at h
  exact h

/-! ## Completed handshakes -/

/-- The entry of a direct channel after the handshake, at either end. -/
def openInfo (id : MessageId) (key : AesKey) (peerAddr : String) : ChannelInfo :=
  { channelId := id, anonLevel := .direct, state := .opened, channelKey := key, peerAddr }

theorem step_of_handshake {r : Router} {data : Bytes} {hk : Handshake} (h : handshakeOf A load data = some hk)
    (peerAddr : String) (id : MessageId) : ∃ r', Steps A load r (.datagram peerAddr data) r' ∧
      r'.channels.get id = afterDatagram A load id (r.channels.get id) peerAddr data := by
  obtain ⟨r', out, hstep⟩ := onDatagram_of_handshake h r peerAddr
  exact ⟨r', ⟨out, hstep⟩, onDatagram_entry hstep id⟩

theorem reachable_initiator (hA : A.Correct) (hload : Loads load) (id : MessageId) (tmp key : AesKey)
    (peerAddr sender : String) :
    ∃ r, Reachable (Steps A load) Router.initial r ∧ r.channels.get id = some (openInfo id key peerAddr) := by
  let call : Call := .channelOpen "" (some 0) none (some peerAddr) id tmp
  have hopen : Steps A load Router.initial (.ipc call) (dispatchIpc A Router.initial call).1 := ⟨_, rfl⟩
  have hentry := entry_channelOpen A Router.initial "" (some 0) none (some peerAddr) id tmp
  obtain ⟨r, hstep, hget⟩ := step_of_handshake (r := (dispatchIpc A Router.initial call).1)
    (handshakeOf_chanAcceptCell hA hload id key) sender id
  refine ⟨r, ((Reachable.refl _ _).tail hopen).tail hstep, ?_⟩
  rw [hget, afterDatagram_chanAcceptCell hA hload, hentry]
  rfl

variable (A) in
def acceptorEvents (id : MessageId) (key : AesKey) (peerAddr : String) : List Event :=
  [.datagram peerAddr (chanOpenCell A id .direct .message).toList, .ipc (.channelAccept id key)]

theorem run_acceptor (hA : A.Correct) (hload : Loads load) (id : MessageId) (key : AesKey) (peerAddr : String) :
    ∃ r, Run (Steps A load) Router.initial (acceptorEvents A id key peerAddr) r ∧
      r.channels.get id = some (openInfo id key peerAddr) := by
  obtain ⟨r, hstep, hget⟩ := step_of_handshake (r := Router.initial)
    (handshakeOf_chanOpenCell hA hload id .direct .message) peerAddr id
  have hacc : Steps A load r (.ipc (.channelAccept id key)) (dispatchIpc A r (.channelAccept id key)).1 := ⟨_, rfl⟩
  refine ⟨_, (Run.nil.snoc hstep).snoc hacc, ?_⟩
  rw [entry_channelAccept, hget, afterDatagram_chanOpenCell hA hload]
  rfl

theorem reachable_acceptor (hA : A.Correct) (hload : Loads load) (id : MessageId) (key : AesKey) (peerAddr : String) :
    ∃ r, Reachable (Steps A load) Router.initial r ∧ r.channels.get id = some (openInfo id key peerAddr) := by
  obtain ⟨r, hrun, hget⟩ := run_acceptor hA hload id key peerAddr
  exact ⟨r, ⟨_, hrun⟩, hget⟩

def openCall (id : MessageId) : Call := .channelOpen "" (some 0) none (some "10.0.0.2:9000") id (fit 32 [])

/-- Two routers that have just started can make a handshake: here each cell arrives as soon as it is sent. -/
theorem handshake_inOrder (hA : A.Correct) (hload : Loads load) (id : MessageId) (key : AesKey) :
    ∃ b₁ out₁ a₂ out₂,
      (dispatchIpc A Router.initial (openCall id)).2.1.sent =
        [⟨"10.0.0.2:9000", (chanOpenCell A id .direct .message).toList⟩] ∧
      onDatagram A load Router.initial "10.0.0.1:9000" (chanOpenCell A id .direct .message).toList = .ok (b₁, out₁) ∧
      b₁.channels.get id = some { channelId := id, peerAddr := "10.0.0.1:9000", anonLevel := .direct } ∧
      (dispatchIpc A b₁ (.channelAccept id key)).2.1.sent = [⟨"10.0.0.1:9000", (chanAcceptCell A id key).toList⟩] ∧
      onDatagram A load (dispatchIpc A Router.initial (openCall id)).1 "10.0.0.2:9000" (chanAcceptCell A id key).toList =
        .ok (a₂, out₂) ∧
      a₂.channels.get id = some (openInfo id key "10.0.0.2:9000") := by
  have hostA : parseAddr "10.0.0.1:9000" = .ok ("10.0.0.1", 9000) := rfl
  have hostB : parseAddr "10.0.0.2:9000" = .ok ("10.0.0.2", 9000) := rfl
  have hne : "10.0.0.1:9000" ≠ "" := by decide
  obtain ⟨b₁, out₁, hopened⟩ := onDatagram_of_handshake (handshakeOf_chanOpenCell hA hload id .direct .message)
    Router.initial "10.0.0.1:9000"
  have hb₁ := onDatagram_entry hopened id
  rw [afterDatagram_chanOpenCell hA hload] at hb₁
  obtain ⟨a₂, out₂, haccepted⟩ := onDatagram_of_handshake (handshakeOf_chanAcceptCell hA hload id key)
    (dispatchIpc A Router.initial (openCall id)).1 "10.0.0.2:9000"
  have ha₂ := onDatagram_entry haccepted id
  unfold openCall at ha₂
  rw [afterDatagram_chanAcceptCell hA hload, entry_channelOpen] at ha₂
  have hlevel : anonLevelOf ((some 0).getD 0) = .direct := rfl
  have hmode : modeOf ((none : Option String).getD "message") = .message := rfl
  have hsent : (dispatchIpc A Router.initial (openCall id)).2.1.sent = [⟨"10.0.0.2:9000", (chanOpenCell A id .direct .message).toList⟩] := by
    rw [openCall, sent_channelOpen A Router.initial "" (some 0) none hostB id (fit 32 []), hlevel, hmode]
  exact ⟨b₁, out₁, a₂, out₂, hsent, hopened, hb₁, sent_channelAccept A hb₁ hne hostA key, haccepted, ha₂⟩

end Received

end ScatterWeb.AnonRouter
