import ScatterWeb.AnonRouter.Channel

/-! # The router of `anonrouter/src/router.cpp`

`onDatagram` is called for every UDP datagram, `dispatchIpc` for every request of a local process. An exception
that leaves `on_datagram` ends the process, so there is no next state; one that leaves
`dispatch_ipc` becomes an error reply, and what was done before it stays done.

A `Call` has its parameters looked up and parsed, with the defaults of absent ones still open, and carries the
random bytes that its handling draws. `initiate_bootstrap_connections` does what `channel.open` with an empty
public key and level 0 does. Log lines, the DHT and the TFT ledger are left out. -/
namespace ScatterWeb.AnonRouter
open Crypto Lib Lib.Cbor
set_option autoImplicit false

structure GuardEntry where
  forwardAddr : String
  bytesFwd : Int64 := 0
  deriving DecidableEq

abbrev GuardTable := AList (fun _ : SessionToken => GuardEntry)

structure Router where
  channels : Channels
  guards : GuardTable
  tunnels : Tunnels

namespace Router

def initial : Router := ⟨.empty, ∅, ∅⟩

end Router

/-- What a step does to the outside: datagrams sent, frames pushed as `frame.recv`, channels pushed as
`channel.incoming`. -/
structure Output where
  sent : List Datagram := []
  frames : List (MessageId × Bytes) := []
  incoming : List ChannelInfo := []
  deriving DecidableEq

section Handlers
variable (A : Aes) (load : Bytes → Option Item)

/-! ## Handshake cells -/

def handshakeKey : AesKey := fit 32 []

structure ChanOpen where
  channelId : MessageId
  anonLevel : AnonLevel
  mode : ChannelMode
  deriving DecidableEq

def handshakePairs (cell : Cell) : Option (List (Item × Item)) :=
  match cellDecode A cell handshakeKey with
  | .error _ => none
  | .ok dc =>
    match load dc.garlicData with
    | some (.map kvs) => some kvs
    | _ => none

def isUint : Item → Bool
  | .uint _ => true
  | _ => false

/-- The last unsigned integer under the key, cast to a byte. -/
def readByte (kvs : List (Item × Item)) (key : String) (init : UInt8) : UInt8 :=
  kvs.foldl (fun cur kv => if keyOf kv.1 = ascii key ∧ isUint kv.2 then (safeCborUint kv.2).toUInt8 else cur) init

def readChanOpen (kvs : List (Item × Item)) : ChanOpen where
  channelId := readArr kvs "channel_id" (fit 16 [])
  anonLevel := ⟨readByte kvs "anon_level" AnonLevel.direct.toByte⟩
  mode := ⟨readByte kvs "mode" ChannelMode.message.toByte⟩

def onChanOpenCell (r : Router) (peerAddr : String) (cell : Cell) : Router × Output :=
  match handshakePairs A load cell with
  | none => (r, {})
  | some kvs =>
    let o := readChanOpen kvs
    let channels := registerIncoming r.channels o.channelId peerAddr o.anonLevel o.mode
    ({ r with channels }, { incoming := (channels.get o.channelId).toList })

def gotKey (kvs : List (Item × Item)) : Bool :=
  kvs.any (fun kv => decide (keyOf kv.1 = ascii "channel_key") && decide ((bytesOf kv.2).length = 32))

/-- The payload is parsed here and again in `on_chan_accept`. -/
def onChanAcceptCell (r : Router) (cell : Cell) : Router :=
  match cellDecode A cell handshakeKey with
  | .error _ => r
  | .ok dc =>
    match load dc.garlicData with
    | some (.map kvs) => if gotKey kvs then { r with channels := onChanAccept load r.channels dc.garlicData } else r
    | _ => r

def chanOpenPayload (channelId : MessageId) (anon : AnonLevel) (mode : ChannelMode) : Bytes :=
  let m := DefMap.new 3
  let m := m.add (.text (ascii "channel_id")) (.bytes channelId.toList)
  let m := m.add (.text (ascii "anon_level")) (.uint (.a64 anon.toByte.toUInt64))
  let m := m.add (.text (ascii "mode")) (.uint (.a64 mode.toByte.toUInt64))
  encode m.item

def chanAcceptPayload (channelId : MessageId) (channelKey : AesKey) : Bytes :=
  let m := DefMap.new 2
  let m := m.add (.text (ascii "channel_id")) (.bytes channelId.toList)
  let m := m.add (.text (ascii "channel_key")) (.bytes channelKey.toList)
  encode m.item

/-- The common end of `send_chan_open` and `send_chan_accept`. -/
def sendHandshake (cellType : CellType) (buf : Bytes) (peerAddr : String) : Except RouterError (List Datagram) :=
  if 496 < buf.length then .ok []
  else
    let hdr : CellHeader := { cellType, garlicLen := UInt16.ofNat buf.length }
    match cellBuild A hdr handshakeKey buf with
    | .error e => .error (.cell e)
    | .ok cell => (transportSend peerAddr cell.toList).mapError .transport

def sendChanOpen (channelId : MessageId) (anon : AnonLevel) (mode : ChannelMode) (peerAddr : String) :
    Except RouterError (List Datagram) :=
  sendHandshake A .chanOpen (chanOpenPayload channelId anon mode) peerAddr

def sendChanAccept (channelId : MessageId) (channelKey : AesKey) (peerAddr : String) : Except RouterError (List Datagram) :=
  sendHandshake A .chanAccept (chanAcceptPayload channelId channelKey) peerAddr

/-! ## Datagrams -/

/-- `relay_cell`, for the entry that was found. -/
def relayCell (r : Router) (entry : GuardEntry) (cell : Cell) : Except RouterError (Router × Output) :=
  match transportSend entry.forwardAddr cell.toList with
  | .error e => .error (.transport e)
  | .ok sent =>
    let guards := r.guards.insert (cellSessionTok cell) { entry with bytesFwd := entry.bytesFwd + 557 }
    .ok ({ r with guards }, { sent })

def onDatagram (r : Router) (peerAddr : String) (data : Bytes) : Except RouterError (Router × Output) :=
  if data.length ≠ 557 then .ok (r, {})
  else
    let cell : Cell := fit 557 data
    let cellType : CellType := ⟨byteAt 1 cell.toList⟩
    if cellType = .chanOpen then .ok (onChanOpenCell A load r peerAddr cell)
    else if cellType = .chanAccept then .ok (onChanAcceptCell A load r cell, {})
    else
      match r.guards.lookup (cellSessionTok cell) with
      | some entry => relayCell r entry cell
      | none =>
        match onCell A load r.channels cell with
        | .error e => .error (.cell e)
        | .ok frames => .ok (r, { frames })

/-! ## Requests -/

inductive Call
  | channelOpen (remotePubkey : String) (anonLevel : Option UInt64) (mode peerAddr : Option String)
      (newId : MessageId) (newKey : AesKey)
  | channelAccept (channelId : MessageId) (newKey : AesKey)
  | channelReject (channelId : MessageId)
  | channelUpgrade (channelId : MessageId) (mode : String) (csk : AesKey)
  | channelClose (channelId : MessageId)
  | channelList
  | frameSend (channelId : MessageId) (nonce : AesNonce) (payload : Bytes)
  | frameSendBatch (channelId : MessageId) (frames : List (AesNonce × Bytes))
  deriving DecidableEq

inductive Reply
  | ok (channelId : MessageId) (ok : Bool)
  | closed (channelId : MessageId)
  | channels (list : List ChannelInfo)
  | sent (channelId : MessageId) (sent : Bool)
  | sentCount (channelId : MessageId) (count : UInt32)
  deriving DecidableEq

def anonLevelOf (raw : UInt64) : AnonLevel := if 2 < raw then ⟨2⟩ else ⟨raw.toUInt8⟩

def modeOf (s : String) : ChannelMode :=
  if s = "stream" then .stream else if s = "datagram" then .datagram else .message

/-- `frame.send_batch`; an exception ends the loop. -/
def sendBatch (tunnels : Tunnels) (channelId : MessageId) :
    Channels → List (AesNonce × Bytes) → Channels × List Datagram × Except RouterError UInt32
  | m, [] => (m, [], .ok 0)
  | m, (nonce, payload) :: frames =>
    match send A tunnels m channelId nonce payload with
    | (m, .error e) => (m, [], .error e)
    | (m, .ok (ok, out)) =>
      let (m, rest, count) := sendBatch tunnels channelId m frames
      (m, out ++ rest, count.map (fun n => n + if ok then 1 else 0))

/-- The level that `channel.open` stores defaults to 2; the one it sends in the `CHAN_OPEN` cell, to 0. -/
def dispatchIpc (r : Router) : Call → Router × Output × Except RouterError Reply
  | .channelOpen remotePubkey anonLevel mode peerAddr newId newKey =>
    let mode := modeOf (mode.getD "message")
    let channels := openChannel r.channels remotePubkey (anonLevelOf (anonLevel.getD 2)) mode (peerAddr.getD "") newId newKey
    match peerAddr with
    | none => ({ r with channels }, {}, .ok (.ok newId true))
    | some addr =>
      match sendChanOpen A newId (anonLevelOf (anonLevel.getD 0)) mode addr with
      | .error e => ({ r with channels }, {}, .error e)
      | .ok sent => ({ r with channels }, { sent }, .ok (.ok newId true))
  | .channelAccept channelId newKey =>
    let (channels, key) := accept r.channels channelId newKey
    match channels.get channelId with
    | none => ({ r with channels }, {}, .ok (.ok channelId key.isSome))
    | some ci =>
      if ci.peerAddr = "" then ({ r with channels }, {}, .ok (.ok channelId key.isSome))
      else
        match sendChanAccept A channelId (key.getD (fit 32 [])) ci.peerAddr with
        | .error e => ({ r with channels }, {}, .error e)
        | .ok sent => ({ r with channels }, { sent }, .ok (.ok channelId key.isSome))
  | .channelReject channelId => ({ r with channels := reject r.channels channelId }, {}, .ok (.ok channelId true))
  | .channelUpgrade channelId mode csk =>
    let (channels, ok) := upgrade r.channels channelId (if mode = "stream" then .stream else .message) csk
    ({ r with channels }, {}, .ok (.ok channelId ok))
  | .channelClose channelId => ({ r with channels := close r.channels channelId }, {}, .ok (.closed channelId))
  | .channelList => (r, {}, .ok (.channels r.channels.list))
  | .frameSend channelId nonce payload =>
    match send A r.tunnels r.channels channelId nonce payload with
    | (channels, .error e) => ({ r with channels }, {}, .error e)
    | (channels, .ok (ok, sent)) => ({ r with channels }, { sent }, .ok (.sent channelId ok))
  | .frameSendBatch channelId frames =>
    let (channels, sent, count) := sendBatch A r.tunnels channelId r.channels frames
    ({ r with channels }, { sent }, count.map (.sentCount channelId))

/-! ## Runs -/

inductive Event
  | datagram (peerAddr : String) (data : Bytes)
  | ipc (call : Call)
  deriving DecidableEq

def step (r : Router) : Event → Except RouterError (Router × Output)
  | .datagram peerAddr data => onDatagram A load r peerAddr data
  | .ipc call => .ok ((dispatchIpc A r call).1, (dispatchIpc A r call).2.1)

def arriving (peerAddr : String) (sent : List Datagram) : List (String × Bytes) := sent.map (fun d => (peerAddr, d.data))

/-- Datagrams received one after another, each with the address it comes from: the frames they bring. -/
def receive : Router → List (String × Bytes) → Except RouterError (Router × List (MessageId × Bytes))
  | r, [] => .ok (r, [])
  | r, (peerAddr, data) :: ds =>
    match onDatagram A load r peerAddr data with
    | .error e => .error e
    | .ok (r, out) => (receive r ds).map (fun res => (res.1, out.frames ++ res.2))

/-- A step that does not end the process. -/
def Steps (r : Router) (e : Event) (r' : Router) : Prop := ∃ out, step A load r e = .ok (r', out)

end Handlers

end ScatterWeb.AnonRouter
