import ScatterWeb.AnonRouter.Transfer
import ScatterWeb.Outbox.Model

/-! # An attempt to deliver, down to the router

`attempt_delivery` asks the router for its channels, opens one where none is open for the key of the inbox, and calls
`frame.send` on it. The reply of that call says whether the channel was open, and is not looked at: an attempt counts
as successful whenever no call throws. The router may handle other requests and datagrams between these calls. -/
namespace ScatterWeb.Outbox
open Crypto Lib Lib.Cbor Client Mailbox
open AnonRouter (Aes AesKey AesNonce MessageId ChannelInfo Channels Tunnels Datagram Cell Router dispatchIpc dispatchCell transportSend
  parseAddr cellDecode garlicDecode garlicEncode openClove openChannel sendCell dataClove)
set_option autoImplicit false

/-- A hexadecimal text as the router's strings are. -/
def keyText (b : Bytes) : String := String.ofList (b.map (fun c => Char.ofNat c.toNat))

/-- The random bytes that the router draws. -/
structure Draws where
  newId : MessageId
  newKey : AesKey
  nonce : AesNonce

section Calls
variable (A : Aes) (r : Router) (key : String) (draws : Draws)

/-- The part of `ensure_channel` after the loop. -/
def openForKey : Router × Option MessageId :=
  match dispatchIpc A r (.channelOpen key (some 2) (some "message") none draws.newId draws.newKey) with
  | (r, _, .ok (.ok channelId _)) => (r, some channelId)
  | (r, _, _) => (r, none)

/-- `ensure_channel`; the result is `none` where it throws. -/
def ensureChannel : Router × Option MessageId :=
  match (dispatchIpc A r .channelList).2.2 with
  | .error _ => (r, none)
  | .ok (.channels channels) =>
    match channels.find? (fun ci => decide (ci.remotePubkeyHex = key ∧ ci.state = .opened)) with
    | some ci => (r, some ci.channelId)
    | none => openForKey A r key draws
  | .ok _ => openForKey A r key draws

/-- The first open channel for the key, or the one that is opened. -/
def chosenId : MessageId :=
  ((r.channels.list.find? (fun ci => decide (ci.remotePubkeyHex = key ∧ ci.state = .opened))).map ChannelInfo.channelId).getD draws.newId

theorem ensureChannel_snd : (ensureChannel A r key draws).2 = some (chosenId r key draws) := by
  unfold ensureChannel chosenId
  rw [show (dispatchIpc A r .channelList).2.2 = .ok (.channels r.channels.list) from rfl]
  dsimp only
  split
  · rename_i ci hfind
    rw [hfind]
    rfl
  · rename_i hfind
    rw [hfind]
    rfl

theorem ensureChannel_of_some {ci : ChannelInfo}
    (h : r.channels.list.find? (fun ci => decide (ci.remotePubkeyHex = key ∧ ci.state = .opened)) = some ci) :
    (ensureChannel A r key draws).1 = r ∧ chosenId r key draws = ci.channelId := by
  unfold ensureChannel chosenId
  rw [show (dispatchIpc A r .channelList).2.2 = .ok (.channels r.channels.list) from rfl]
  dsimp only
  rw [h]
  exact ⟨rfl, rfl⟩

/-- Without an open channel for the key, the one that is opened is not open. -/
theorem get_ensureChannel_of_none (h : r.channels.list.find? (fun ci => decide (ci.remotePubkeyHex = key ∧ ci.state = .opened)) = none) :
    ∃ ci, (ensureChannel A r key draws).1.channels.get (chosenId r key draws) = some ci ∧ ci.state = .opening := by
  have hchosen : chosenId r key draws = draws.newId := by
    unfold chosenId
    rw [h]
    rfl
  have hrouter : (ensureChannel A r key draws).1.channels =
      openChannel r.channels key ⟨2⟩ .message "" draws.newId draws.newKey := by
    unfold ensureChannel
    rw [show (dispatchIpc A r .channelList).2.2 = .ok (.channels r.channels.list) from rfl]
    dsimp only
    rw [h]
    rfl
  rw [hrouter, hchosen]
  exact ⟨_, Channels.get_put _ _, rfl⟩

end Calls

/-! ## The attempt -/

section Attempt
variable (A : Aes) (load : Bytes → Option Item) (between : Router → Router) (r : Router) (draws : Draws) (nowMs : ℤ)
  (msg : QueuedMessage) (ri : RecipientInbox)

/-- The router when it handles `frame.send`. -/
def routerAtSend : Router := between (ensureChannel A r (keyText (bytesToHex ri.keyCPubkey)) draws).1

def sendingId : MessageId := chosenId r (keyText (bytesToHex ri.keyCPubkey)) draws

/-- How the router handles the call of `frame.send`. -/
def frameSend : Router × AnonRouter.Output × Except AnonRouter.RouterError AnonRouter.Reply :=
  dispatchIpc A (routerAtSend A between r draws ri) (.frameSend (sendingId r draws ri) draws.nonce msg.deliveryFrame)

/-- What the attempt reads from the router. -/
def routerEnv : Env where
  nowMs
  ensureChannel := fun key => (ensureChannel A r (keyText key) draws).2.map (fun id => bytesToHex id.toList)
  sendOk := (frameSend A between r draws msg ri).2.2.isOk

/-- The datagram is a cell from which the peer of the channel gets the frame. -/
def Carries (ci : ChannelInfo) (d : Datagram) (frame : Bytes) : Prop :=
  ∃ (cell : Cell) (dc : AnonRouter.DecodedCell), d.data = cell.toList ∧ cellDecode A cell ci.channelKey = .ok dc ∧
    (ci.channelId, frame) ∈ (garlicDecode load dc.garlicData).filterMap (openClove A ci)

/-- If the attempt counts as successful, the router has given a cell with the frame to the transport. -/
def CountsOnlySent : Prop :=
  (attemptDelivery (routerEnv A between r draws nowMs msg ri) msg ri).1 = true →
    ∃ ci d, (routerAtSend A between r draws ri).channels.get (sendingId r draws ri) = some ci ∧
      d ∈ (frameSend A between r draws msg ri).2.1.sent ∧ Carries A load ci d msg.deliveryFrame

/-- Where the cells of a channel go. -/
def cellRoute (tunnels : Tunnels) (ci : ChannelInfo) : Option String :=
  if ci.anonLevel = .direct ∧ ci.peerAddr ≠ "" then some ci.peerAddr
  else ci.remoteInboundGuard.bind (fun g => (tunnels.lookup g.sessionTok).map AnonRouter.TunnelInfo.guardEndpoint)

/-- The channel is open and its cells go somewhere, where `parse_addr` throws or the frame fits into a cell. -/
def Routable (r : Router) (id : MessageId) (frame : Bytes) : Prop :=
  ∃ ci addr, r.channels.get id = some ci ∧ ci.state = .opened ∧ cellRoute r.tunnels ci = some addr ∧
    ((∃ e, parseAddr addr = .error e) ∨ (1 ≤ frame.length ∧ frame.length ≤ 435))

end Attempt

section Sent
variable {A : Aes} {load : Bytes → Option Item} {between : Router → Router} {r : Router} {draws : Draws} {nowMs : ℤ}
  {msg : QueuedMessage} {ri : RecipientInbox}

theorem attemptDelivery_routerEnv :
    (attemptDelivery (routerEnv A between r draws nowMs msg ri) msg ri).1 = (frameSend A between r draws msg ri).2.2.isOk := by
  have hchan : (routerEnv A between r draws nowMs msg ri).ensureChannel (bytesToHex ri.keyCPubkey) =
      some (bytesToHex (sendingId r draws ri).toList) := by
    unfold routerEnv
    dsimp only
    rw [ensureChannel_snd]
    rfl
  unfold attemptDelivery
  rw [hchan]
  rfl

theorem dispatchCell_eq (tunnels : Tunnels) (ci : ChannelInfo) (cell : Cell) : dispatchCell tunnels ci cell =
    match cellRoute tunnels ci with
    | none => .ok []
    | some addr => transportSend addr cell.toList := by
  unfold dispatchCell cellRoute
  split
  · rfl
  · cases ci.remoteInboundGuard with
    | none => rfl
    | some g =>
      unfold AnonRouter.forwardViaOutbound
      dsimp only [Option.bind_some]
      cases tunnels.lookup g.sessionTok with
      | none => rfl
      | some info => rfl

/-- A cell of `send` carries its frame when that is not empty and was not cut off. -/
theorem carries_sendCell_iff (hA : A.Correct) (hload : Loads load) (ci : ChannelInfo) (id : MessageId)
    (addr : String) (nonce : AesNonce) (frame : Bytes) :
    Carries A load ci ⟨addr, (sendCell A ci id nonce frame).toList⟩ frame ↔ 1 ≤ frame.length ∧ frame.length ≤ 435 := by
  obtain ⟨hdr, hdec⟩ := AnonRouter.cellDecode_sendCell hA ci id nonce frame
  have hopened := AnonRouter.openClove_take_garlic hA hload (rfl : ci.channelKey = ci.channelKey) id nonce frame
  constructor
  · rintro ⟨cell, dc, hdata, hcell, hmem⟩
    obtain rfl : sendCell A ci id nonce frame = cell := List.Vector.toList_injective hdata
    rw [hdec] at hcell
    cases hcell
    rw [hopened] at hmem
    by_contra hsize
    rw [if_neg hsize] at hmem
    exact absurd hmem List.not_mem_nil
  · intro hsize
    refine ⟨_, _, rfl, hdec, ?_⟩
    rw [hopened, if_pos hsize]
    exact List.mem_singleton.mpr rfl

/-- On a channel that is missing or not open the reply says that nothing was sent, and is not looked at. -/
theorem not_countsOnlySent_of_not_opened
    (hnot : ∀ ci, (routerAtSend A between r draws ri).channels.get (sendingId r draws ri) = some ci → ci.state ≠ .opened) :
    ¬CountsOnlySent A load between r draws nowMs msg ri := by
  have hsend : frameSend A between r draws msg ri = (routerAtSend A between r draws ri, {}, .ok (.sent (sendingId r draws ri) false)) := by
    unfold frameSend
    rw [dispatchIpc, AnonRouter.send_of_not_opened A _ hnot]
  intro h
  unfold CountsOnlySent at h
  rw [attemptDelivery_routerEnv, hsend] at h
  obtain ⟨_, d, _, hd, _⟩ := h rfl
  exact absurd hd List.not_mem_nil

theorem routable_iff_of_opened {r : Router} {id : MessageId} {ci : ChannelInfo} (hget : r.channels.get id = some ci)
    (hopen : ci.state = .opened) (frame : Bytes) :
    Routable r id frame ↔ ∃ addr, cellRoute r.tunnels ci = some addr ∧
      ((∃ e, parseAddr addr = .error e) ∨ (1 ≤ frame.length ∧ frame.length ≤ 435)) := by
  constructor
  · rintro ⟨ci', addr, hget', _, hroute, hsize⟩
    rw [hget] at hget'
    cases hget'
    exact ⟨addr, hroute, hsize⟩
  · rintro ⟨addr, hroute, hsize⟩
    exact ⟨ci, addr, hget, hopen, hroute, hsize⟩

/-- On an open channel the cell is built; it is dropped when it has no way to go, and `parse_addr` may throw. -/
theorem countsOnlySent_iff_of_opened (hA : A.Correct) (hload : Loads load) {ci : ChannelInfo}
    (hget : (routerAtSend A between r draws ri).channels.get (sendingId r draws ri) = some ci) (hopen : ci.state = .opened) :
    CountsOnlySent A load between r draws nowMs msg ri ↔
      ∃ addr, cellRoute (routerAtSend A between r draws ri).tunnels ci = some addr ∧
        ((∃ e, parseAddr addr = .error e) ∨ (1 ≤ msg.deliveryFrame.length ∧ msg.deliveryFrame.length ≤ 435)) := by
  have hcarries := fun addr => carries_sendCell_iff hA hload ci (sendingId r draws ri) addr draws.nonce msg.deliveryFrame
  unfold CountsOnlySent
  rw [attemptDelivery_routerEnv]
  unfold frameSend
  generalize routerAtSend A between r draws ri = rs at hget
  generalize sendingId r draws ri = id at hget hcarries
  rw [dispatchIpc, AnonRouter.send_of_opened A rs.tunnels hget hopen, dispatchCell_eq]
  cases hroute : cellRoute rs.tunnels ci with
  | none =>
    constructor
    · intro h
      obtain ⟨_, d, _, hd, _⟩ := h rfl
      exact absurd hd List.not_mem_nil
    · rintro ⟨addr, hnone, _⟩
      cases hnone
  | some addr =>
    dsimp only
    cases hparse : parseAddr addr with
    | error e =>
      have hsend : transportSend addr (sendCell A ci id draws.nonce msg.deliveryFrame).toList = .error e := by
        unfold AnonRouter.transportSend
        rw [hparse]
        rfl
      rw [hsend]
      constructor
      · exact fun _ => ⟨addr, rfl, Or.inl ⟨e, hparse⟩⟩
      · intro _ h
        cases h
    | ok host =>
      rw [AnonRouter.transportSend_of_parse hparse]
      constructor
      · intro h
        obtain ⟨ci', d, hget', hd, hd'⟩ := h rfl
        rw [hget] at hget'
        cases hget'
        obtain rfl := List.mem_singleton.mp hd
        exact ⟨addr, rfl, Or.inr ((hcarries addr).mp hd')⟩
      · rintro ⟨addr', haddr, ⟨e, herror⟩ | hsize⟩ _
        · cases haddr
          cases hparse.symm.trans herror
        · exact ⟨ci, _, hget, List.mem_singleton.mpr rfl, (hcarries addr).mpr hsize⟩

/-- An attempt that counts as successful has sent the frame exactly when the channel can take it. -/
theorem counts_only_sent_iff (hA : A.Correct) (hload : Loads load) (between : Router → Router) (r : Router) (draws : Draws)
    (nowMs : ℤ) (msg : QueuedMessage) (ri : RecipientInbox) :
    CountsOnlySent A load between r draws nowMs msg ri ↔
      Routable (routerAtSend A between r draws ri) (sendingId r draws ri) msg.deliveryFrame := by
  by_cases hopened : ∃ ci, (routerAtSend A between r draws ri).channels.get (sendingId r draws ri) = some ci ∧ ci.state = .opened
  · obtain ⟨ci, hget, hopen⟩ := hopened
    rw [countsOnlySent_iff_of_opened hA hload hget hopen, routable_iff_of_opened hget hopen]
  · have hnot : ∀ ci, (routerAtSend A between r draws ri).channels.get (sendingId r draws ri) = some ci → ci.state ≠ .opened :=
      fun ci hget hopen => hopened ⟨ci, hget, hopen⟩
    constructor
    · exact fun h => absurd h (not_countsOnlySent_of_not_opened hnot)
    · rintro ⟨ci, addr, hget, hopen, _⟩
      exact absurd hopen (hnot ci hget)

end Sent

/-! ## A router with a channel, and one without -/

def someDraws : Draws := ⟨fit 16 [5], fit 32 [5], fit 12 [5]⟩

def someInbox : RecipientInbox := ⟨[1], [9], [9]⟩

def someMessage : QueuedMessage := { messageId := [1], recipientKeyBKemPubkeyHex := [], deliveryFrame := [42] }

def openToInbox : ChannelInfo where
  channelId := fit 16 [7]
  remotePubkeyHex := keyText (bytesToHex someInbox.keyCPubkey)
  anonLevel := .direct
  state := .opened
  peerAddr := "10.0.0.2:9000"

def connected : Router := { Router.initial with channels := Channels.empty.put openToInbox }

theorem counts_only_sent_iff_connected :
    CountsOnlySent checksumAes load (fun r => r) connected someDraws 0 someMessage someInbox := by
  refine (counts_only_sent_iff checksumAes_correct load_loads (fun r => r) connected someDraws 0 someMessage someInbox).mpr ?_
  have hlist : connected.channels.list = [openToInbox] := rfl
  have hfind : connected.channels.list.find? (fun ci => decide (ci.remotePubkeyHex = keyText (bytesToHex someInbox.keyCPubkey) ∧
      ci.state = .opened)) = some openToInbox := by
    rw [hlist]
    exact List.find?_cons_of_pos (by simp [openToInbox])
  obtain ⟨hrouter, hchosen⟩ := ensureChannel_of_some checksumAes connected _ someDraws hfind
  have hrs : routerAtSend checksumAes (fun r => r) connected someDraws someInbox = connected := hrouter
  have hid : sendingId connected someDraws someInbox = openToInbox.channelId := hchosen
  rw [hrs, hid]
  exact ⟨openToInbox, "10.0.0.2:9000", Channels.get_put _ _, rfl, rfl, Or.inr ⟨by decide, by decide⟩⟩

/-- Before the first channel to an inbox is open, every attempt counts as successful and nothing is sent. -/
theorem not_countsOnlySent_unconnected : ¬ ∀ (r : Router) (draws : Draws) (nowMs : ℤ) (msg : QueuedMessage) (ri : RecipientInbox),
    CountsOnlySent checksumAes load (fun r => r) r draws nowMs msg ri := by
  intro h
  refine not_countsOnlySent_of_not_opened ?_ (h Router.initial someDraws 0 someMessage someInbox)
  intro ci hget hopen
  obtain ⟨ci', hget', hopening⟩ := get_ensureChannel_of_none checksumAes Router.initial
    (keyText (bytesToHex someInbox.keyCPubkey)) someDraws rfl
  cases hget.symm.trans hget'
  rw [hopening] at hopen
  cases hopen

end ScatterWeb.Outbox
