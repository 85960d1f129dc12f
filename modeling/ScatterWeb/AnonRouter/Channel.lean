import Mathlib.Data.List.AList
import ScatterWeb.AnonRouter.Garlic

/-! # The channel manager of `anonrouter/src/channel.cpp`

The table `channels_` maps a channel id to a `ChannelInfo` that carries the same id. Each operation is one
step: the lock is held while a table entry is read or written, and the random bytes that an operation draws
are an argument of it. `recv_seq` and `rtt_ms` are left out, since nothing reads or writes them, and so is
the accounting of `forward_via_outbound`, which belongs to the TFT engine. -/
namespace ScatterWeb.AnonRouter
open Crypto Lib Lib.Cbor
set_option autoImplicit false

/-! ## Sending datagrams -/

structure Datagram where
  addr : String
  data : Bytes
  deriving DecidableEq

inductive TransportError
  | badAddress (s : String)
  /-- `std::invalid_argument` or `std::out_of_range`. -/
  | stoi
  deriving DecidableEq

def TransportError.what : TransportError → String
  | .badAddress s => "UdpTransport: bad address: " ++ s
  | .stoi => "stoi"

/-- `std::stoi` in base 10: white space, a sign, and as many digits as follow. -/
def stoi (s : List Char) : Except TransportError ℤ :=
  let s := s.dropWhile (fun c => c.toNat = 32 ∨ 9 ≤ c.toNat ∧ c.toNat ≤ 13)
  let (negative, s) := match s with
    | '-' :: s => (true, s)
    | '+' :: s => (false, s)
    | s => (false, s)
  let digits := s.takeWhile Char.isDigit
  let n := digits.foldl (fun n c => 10 * n + (c.toNat - '0'.toNat)) 0
  let i : ℤ := if negative then -n else n
  if digits.isEmpty ∨ i < -2 ^ 31 ∨ 2 ^ 31 ≤ i then .error .stoi else .ok i

/-- The host is what precedes the last colon. -/
def parseAddr (s : String) : Except TransportError (String × UInt16) :=
  let port := (s.toList.reverse.takeWhile (fun c => c ≠ ':')).reverse
  if port.length = s.toList.length then .error (.badAddress s)
  else (stoi port).map (fun i => (String.ofList (s.toList.take (s.toList.length - port.length - 1)), UInt16.ofInt i))

/-- `UdpTransport::send`. A host that cannot be resolved is not an error. -/
def transportSend (peerAddr : String) (data : Bytes) : Except TransportError (List Datagram) :=
  (parseAddr peerAddr).map (fun _ => [⟨peerAddr, data⟩])

/-! ## Channels -/

structure AnonLevel where
  toByte : UInt8
  deriving DecidableEq

namespace AnonLevel

def direct : AnonLevel := ⟨0⟩

def rendezvous : AnonLevel := ⟨1⟩

def anonymous : AnonLevel := ⟨2⟩

end AnonLevel

structure ChannelMode where
  toByte : UInt8
  deriving DecidableEq

namespace ChannelMode

def datagram : ChannelMode := ⟨0⟩

def message : ChannelMode := ⟨1⟩

def stream : ChannelMode := ⟨2⟩

end ChannelMode

inductive ChannelState
  | opening
  | opened
  | upgrading
  | closed
  deriving DecidableEq

structure GuardRef where
  nodeId : String
  sessionTok : SessionToken
  deriving DecidableEq

structure ChannelInfo where
  channelId : MessageId
  remotePubkeyHex : String := ""
  anonLevel : AnonLevel := .anonymous
  mode : ChannelMode := .message
  state : ChannelState := .opening
  channelKey : AesKey := fit 32 []
  sendSeq : UInt32 := 0
  peerAddr : String := ""
  myInboundGuard : Option GuardRef := none
  remoteInboundGuard : Option GuardRef := none
  deriving DecidableEq

/-- The table; an entry sits under its own id. -/
structure Channels where
  table : AList (fun _ : MessageId => ChannelInfo)
  keyed : ∀ id ci, table.lookup id = some ci → ci.channelId = id

namespace Channels

def empty : Channels := ⟨∅, by simp⟩

def get (m : Channels) (id : MessageId) : Option ChannelInfo := m.table.lookup id

def put (m : Channels) (ci : ChannelInfo) : Channels where
  table := m.table.insert ci.channelId ci
  keyed := by
    intro id ci' h
    by_cases hid : id = ci.channelId
    · subst hid
      rw [AList.lookup_insert] at h
      rw [Option.some.inj h]
    · rw [AList.lookup_insert_ne hid] at h
      exact m.keyed id ci' h

def erase (m : Channels) (id : MessageId) : Channels where
  table := m.table.erase id
  keyed := by
    intro id' ci h
    by_cases hid : id' = id
    · rw [hid, AList.lookup_erase] at h
      cases h
    · rw [AList.lookup_erase_ne hid] at h
      exact m.keyed id' ci h

def list (m : Channels) : List ChannelInfo := m.table.entries.map Sigma.snd

theorem channelId_of_get {m : Channels} {id : MessageId} {ci : ChannelInfo} (h : m.get id = some ci) : ci.channelId = id :=
  m.keyed id ci h

@[simp] theorem get_put (m : Channels) (ci : ChannelInfo) : (m.put ci).get ci.channelId = some ci :=
  AList.lookup_insert m.table

theorem get_put_of_ne (m : Channels) {ci : ChannelInfo} {id : MessageId} (h : id ≠ ci.channelId) :
    (m.put ci).get id = m.get id := AList.lookup_insert_ne h

@[simp] theorem get_erase (m : Channels) (id : MessageId) : (m.erase id).get id = none := AList.lookup_erase id m.table

theorem get_erase_of_ne (m : Channels) {id id' : MessageId} (h : id' ≠ id) : (m.erase id).get id' = m.get id' :=
  AList.lookup_erase_ne h

theorem mem_list {m : Channels} {ci : ChannelInfo} : ci ∈ m.list ↔ m.get ci.channelId = some ci := by
  unfold list get
  rw [List.mem_map]
  constructor
  · rintro ⟨⟨id, ci'⟩, hmem, rfl⟩
    have hget : m.table.lookup id = some ci' := AList.mem_lookup_iff.mpr hmem
    rw [m.keyed id ci' hget]
    exact hget
  · intro hget
    exact ⟨⟨ci.channelId, ci⟩, AList.mem_lookup_iff.mp hget, rfl⟩

end Channels

/-! ## Opening and closing -/

def openChannel (m : Channels) (remotePubkeyHex : String) (anonLevel : AnonLevel) (mode : ChannelMode)
    (peerAddr : String) (newId : MessageId) (newKey : AesKey) : Channels :=
  m.put { channelId := newId, remotePubkeyHex, anonLevel, mode, peerAddr, channelKey := newKey }

def registerIncoming (m : Channels) (channelId : MessageId) (peerAddr : String) (anonLevel : AnonLevel)
    (mode : ChannelMode) : Channels :=
  m.put { channelId, peerAddr, anonLevel, mode }

/-- `accept`, with the key it draws; the result is `none` when there is no such channel. -/
def accept (m : Channels) (channelId : MessageId) (newKey : AesKey) : Channels × Option AesKey :=
  match m.get channelId with
  | none => (m, none)
  | some ci => (m.put { ci with channelKey := newKey, state := .opened }, some newKey)

def upgrade (m : Channels) (channelId : MessageId) (newMode : ChannelMode) (csk : AesKey) : Channels × Bool :=
  match m.get channelId with
  | none => (m, false)
  | some ci => (m.put { ci with mode := newMode, channelKey := csk, state := .opened }, true)

def close (m : Channels) (channelId : MessageId) : Channels := m.erase channelId

def reject (m : Channels) (channelId : MessageId) : Channels := close m channelId

/-! ## Sending -/

structure TunnelInfo where
  guardEndpoint : String
  deriving DecidableEq

abbrev Tunnels := AList (fun _ : SessionToken => TunnelInfo)

def forwardViaOutbound (tunnels : Tunnels) (outTok : SessionToken) (cell : Cell) : Except TransportError (List Datagram) :=
  match tunnels.lookup outTok with
  | none => .ok []
  | some info => transportSend info.guardEndpoint cell.toList

/-- The exceptions of the router: those of the cell codec and those of the transport. -/
inductive RouterError
  | cell (e : CellError)
  | transport (e : TransportError)
  deriving DecidableEq

def RouterError.what : RouterError → String
  | .cell e => e.what
  | .transport e => e.what

def dataClove (A : Aes) (ci : ChannelInfo) (channelId : MessageId) (nonce : AesNonce) (payload : Bytes) : Clove :=
  let enc := A.encrypt ci.channelKey nonce payload []
  ⟨.data, channelId, none, nonce.toList ++ (enc.2.toList ++ enc.1)⟩

def sendTok (ci : ChannelInfo) : SessionToken :=
  match ci.myInboundGuard with
  | some g => g.sessionTok
  | none => if ci.anonLevel = .direct then fit 32 ci.channelId.toList else fit 32 []

def sendHeader (ci : ChannelInfo) (garlic : Bytes) : CellHeader :=
  { cellType := .data
    garlicLen := UInt16.ofNat (min garlic.length 496)
    sessionTok := sendTok ci
    seqNum := ci.sendSeq }

def dispatchCell (tunnels : Tunnels) (ci : ChannelInfo) (cell : Cell) : Except TransportError (List Datagram) :=
  if ci.anonLevel = .direct ∧ ci.peerAddr ≠ "" then transportSend ci.peerAddr cell.toList
  else match ci.remoteInboundGuard with
    | some g => forwardViaOutbound tunnels g.sessionTok cell
    | none => .ok []

/-- `send`, with the nonce that `aes_encrypt` draws. The sequence number is used up also when the call throws. -/
def send (A : Aes) (tunnels : Tunnels) (m : Channels) (channelId : MessageId) (nonce : AesNonce) (payload : Bytes) :
    Channels × Except RouterError (Bool × List Datagram) :=
  match m.get channelId with
  | none => (m, .ok (false, []))
  | some ci =>
    if ci.state ≠ .opened then (m, .ok (false, []))
    else
      let garlic := garlicEncode [dataClove A ci channelId nonce payload]
      if garlic.isEmpty then (m, .ok (false, []))
      else
        let hdr := sendHeader ci garlic
        let m := m.put { ci with sendSeq := ci.sendSeq + 1 }
        match cellBuild A hdr ci.channelKey (garlic.take hdr.garlicLen.toNat) with
        | .error e => (m, .error (.cell e))
        | .ok cell =>
          match dispatchCell tunnels ci cell with
          | .error e => (m, .error (.transport e))
          | .ok out => (m, .ok (true, out))

/-- The cell of a payload on an open channel. A blob that does not fit is cut off. -/
def sendCell (A : Aes) (ci : ChannelInfo) (channelId : MessageId) (nonce : AesNonce) (payload : Bytes) : Cell :=
  let garlic := garlicEncode [dataClove A ci channelId nonce payload]
  sealCell A (sendHeader ci garlic) ci.channelKey (garlic.take (sendHeader ci garlic).garlicLen.toNat)

theorem sendHeader_garlicLen (ci : ChannelInfo) (garlic : Bytes) :
    (sendHeader ci garlic).garlicLen.toNat = min garlic.length 496 := by
  change (UInt16.ofNat (min garlic.length 496)).toNat = min garlic.length 496
  rw [UInt16.toNat_ofNat']
  omega

theorem send_of_opened (A : Aes) (tunnels : Tunnels) {m : Channels} {id : MessageId} {ci : ChannelInfo}
    (hget : m.get id = some ci) (hopen : ci.state = .opened) (nonce : AesNonce) (payload : Bytes) :
    send A tunnels m id nonce payload = (m.put { ci with sendSeq := ci.sendSeq + 1 },
      match dispatchCell tunnels ci (sendCell A ci id nonce payload) with
      | .error e => .error (.transport e)
      | .ok out => .ok (true, out)) := by
  let garlic := garlicEncode [dataClove A ci id nonce payload]
  have hne : garlic.isEmpty = false := garlicEncode_isEmpty _
  have hbuild : cellBuild A (sendHeader ci garlic) ci.channelKey (garlic.take (sendHeader ci garlic).garlicLen.toNat) =
      .ok (sendCell A ci id nonce payload) := by
    unfold cellBuild
    rw [if_neg]
    · rfl
    · rw [List.length_take, sendHeader_garlicLen]
      omega
  unfold send
  rw [hget]
  simp only [ne_eq, hopen, not_true_eq_false, if_false]
  change (if garlic.isEmpty then _ else _) = _
  rw [hne]
  simp only [Bool.false_eq_true, if_false]
  rw [hbuild]
  dsimp only
  cases dispatchCell tunnels ci (sendCell A ci id nonce payload) with
  | error e => rfl
  | ok out => rfl

theorem send_of_not_opened (A : Aes) (tunnels : Tunnels) {m : Channels} {id : MessageId}
    (h : ∀ ci, m.get id = some ci → ci.state ≠ .opened) (nonce : AesNonce) (payload : Bytes) :
    send A tunnels m id nonce payload = (m, .ok (false, [])) := by
  unfold send
  cases hget : m.get id with
  | none => rfl
  | some ci => exact if_pos (h ci hget)

/-! ## Receiving -/

def ownsCell (tok : SessionToken) (ci : ChannelInfo) : Bool :=
  (match ci.myInboundGuard with
    | some g => decide (g.sessionTok = tok)
    | none => false) ||
  (decide (ci.anonLevel = .direct) && decide (ci.state = .opened) && decide (ci.channelId = fit 16 tok.toList))

/-- A frame of the channel, when the clove is a data clove that decrypts. -/
def openClove (A : Aes) (ci : ChannelInfo) (clove : Clove) : Option (MessageId × Bytes) :=
  if clove.type = .data ∧ 28 < clove.payload.length then
    (A.decrypt ci.channelKey (slice 0 12 clove.payload) (clove.payload.drop 28) (slice 12 16 clove.payload) []).map
      (fun plain => (ci.channelId, plain))
  else none

/-- `on_cell`: the calls of `frame_cb`, in order. An exception of `cell_decode` is not caught. -/
def onCell (A : Aes) (load : Bytes → Option Item) (m : Channels) (cell : Cell) :
    Except CellError (List (MessageId × Bytes)) :=
  match m.list.find? (ownsCell (cellSessionTok cell)) with
  | none => .ok []
  | some ci => (cellDecode A cell ci.channelKey).map
      (fun dc => (garlicDecode load dc.garlicData).filterMap (openClove A ci))

/-- No channel has a guard. Nothing in the router assigns one. -/
def NoGuards (m : Channels) : Prop :=
  ∀ id ci, m.get id = some ci → ci.myInboundGuard = none ∧ ci.remoteInboundGuard = none

theorem find_ownsCell {m : Channels} (hm : NoGuards m) (tok : SessionToken) :
    m.list.find? (ownsCell tok) =
      (m.get (fit 16 tok.toList)).filter (fun ci => decide (ci.anonLevel = .direct) && decide (ci.state = .opened)) := by
  have howns : ∀ ci ∈ m.list, ownsCell tok ci = true ↔
      (ci.anonLevel = .direct ∧ ci.state = .opened) ∧ ci.channelId = fit 16 tok.toList := by
    intro ci hci
    have hguard := (hm _ ci (Channels.mem_list.mp hci)).1
    unfold ownsCell
    rw [hguard]
    simp
  cases hf : m.list.find? (ownsCell tok) with
  | some ci =>
    have hmem := List.mem_of_find?_eq_some hf
    obtain ⟨hlevel, hid⟩ := (howns ci hmem).mp (List.find?_some hf)
    have hget := Channels.mem_list.mp hmem
    rw [hid] at hget
    rw [hget]
    simp [Option.filter, hlevel]
  | none =>
    cases hget : m.get (fit 16 tok.toList) with
    | none => rfl
    | some ci =>
      have hid := Channels.channelId_of_get hget
      have hmem : ci ∈ m.list := by
        rw [Channels.mem_list, hid]
        exact hget
      have hnot := List.find?_eq_none.mp hf ci hmem
      rw [howns ci hmem] at hnot
      have hlevel : ¬(ci.anonLevel = .direct ∧ ci.state = .opened) := fun h => hnot ⟨h, hid⟩
      simp [Option.filter, hlevel]

/-- The bytes of a map key. libcbor keeps text and byte strings alike; `cbor_string_handle` is undefined on
other items, which here are the empty key. -/
def keyOf : Item → Bytes
  | .text b => b
  | .bytes b => b
  | _ => []

/-- The last byte string of the right size under the key. -/
def readArr {n : ℕ} (kvs : List (Item × Item)) (key : String) (init : ByteArr n) : ByteArr n :=
  kvs.foldl (fun cur kv => if keyOf kv.1 = ascii key then copyInto cur (bytesOf kv.2) else cur) init

def onChanAccept (load : Bytes → Option Item) (m : Channels) (payload : Bytes) : Channels :=
  match load payload with
  | some (.map kvs) =>
    let channelId : MessageId := readArr kvs "channel_id" (fit 16 [])
    let channelKey : AesKey := readArr kvs "channel_key" (fit 32 [])
    match m.get channelId with
    | none => m
    | some ci => m.put { ci with channelKey := channelKey, state := .opened }
  | _ => m

end ScatterWeb.AnonRouter
