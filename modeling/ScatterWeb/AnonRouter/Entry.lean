import ScatterWeb.AnonRouter.Router
import ScatterWeb.Lib.Transition

/-! # One channel of the router

What a step does to the table entry of one channel depends on that entry and the event alone. `EntryStep` says
it once for every event, `step_entry` proves it of the router, and the results about
the router's runs are proved from it. -/
namespace ScatterWeb.AnonRouter
open Crypto Lib Lib.Cbor
set_option autoImplicit false

section Entries
variable (A : Aes) (load : Bytes → Option Item)

/-! ## Handshake datagrams -/

inductive Handshake
  | chanOpen (o : ChanOpen)
  | chanAccept (channelId : MessageId) (channelKey : AesKey)
  deriving DecidableEq

/-- The handshake cell that the router reads a datagram as. Anyone can build one: the key is public. -/
def handshakeOf (data : Bytes) : Option Handshake :=
  if data.length ≠ 557 then none
  else
    let cell : Cell := fit 557 data
    let cellType : CellType := ⟨byteAt 1 cell.toList⟩
    if cellType = .chanOpen then (handshakePairs A load cell).map (fun kvs => .chanOpen (readChanOpen kvs))
    else if cellType = .chanAccept then
      (handshakePairs A load cell).bind (fun kvs =>
        if gotKey kvs then some (.chanAccept (readArr kvs "channel_id" (fit 16 [])) (readArr kvs "channel_key" (fit 32 [])))
        else none)
    else none

/-! ## The entry of one channel -/

def afterDatagram (id : MessageId) (old : Option ChannelInfo) (peerAddr : String) (data : Bytes) : Option ChannelInfo :=
  match handshakeOf A load data with
  | some (.chanOpen o) =>
    if o.channelId = id then some { channelId := id, peerAddr, anonLevel := o.anonLevel, mode := o.mode } else old
  | some (.chanAccept channelId channelKey) =>
    if channelId = id then old.map (fun ci => { ci with channelKey := channelKey, state := .opened }) else old
  | none => old

/-- The entry of `id` when some cells have been sent on `cid`: the sequence number has moved on. -/
def Sent (cid id : MessageId) (old new : Option ChannelInfo) : Prop :=
  if cid = id then ∃ n, new = old.map (fun ci => { ci with sendSeq := ci.sendSeq + n }) else new = old

def AfterCall (id : MessageId) (old new : Option ChannelInfo) : Call → Prop
  | .channelOpen remotePubkey anonLevel mode peerAddr newId newKey =>
    new = if newId = id then
      some { channelId := id, remotePubkeyHex := remotePubkey, anonLevel := anonLevelOf (anonLevel.getD 2)
             mode := modeOf (mode.getD "message"), peerAddr := peerAddr.getD "", channelKey := newKey }
      else old
  | .channelAccept channelId newKey =>
    new = if channelId = id then old.map (fun ci => { ci with channelKey := newKey, state := .opened }) else old
  | .channelReject channelId => new = if channelId = id then none else old
  | .channelUpgrade channelId mode csk =>
    new = if channelId = id then
      old.map (fun ci => { ci with mode := if mode = "stream" then .stream else .message, channelKey := csk, state := .opened })
      else old
  | .channelClose channelId => new = if channelId = id then none else old
  | .channelList => new = old
  | .frameSend channelId _ _ => Sent channelId id old new
  | .frameSendBatch channelId _ => Sent channelId id old new

def EntryStep (id : MessageId) (old new : Option ChannelInfo) : Event → Prop
  | .datagram peerAddr data => new = afterDatagram A load id old peerAddr data
  | .ipc call => AfterCall id old new call

variable {A load}

/-! ## The operations of the channel manager, entry by entry -/

theorem get_put_eq (m : Channels) (ci : ChannelInfo) (id : MessageId) :
    (m.put ci).get id = if ci.channelId = id then some ci else m.get id := by
  by_cases h : ci.channelId = id
  · rw [if_pos h, ← h, Channels.get_put]
  · rw [if_neg h, Channels.get_put_of_ne m (Ne.symm h)]

theorem get_erase_eq (m : Channels) (cid id : MessageId) : (m.erase cid).get id = if cid = id then none else m.get id := by
  by_cases h : cid = id
  · rw [if_pos h, h, Channels.get_erase]
  · rw [if_neg h, Channels.get_erase_of_ne m (Ne.symm h)]

theorem get_rewrite (m : Channels) (cid id : MessageId) (f : ChannelInfo → ChannelInfo)
    (hf : ∀ ci, (f ci).channelId = ci.channelId) :
    (match m.get cid with | none => m | some ci => m.put (f ci)).get id =
      if cid = id then (m.get id).map f else m.get id := by
  cases hget : m.get cid with
  | none =>
    by_cases h : cid = id
    · subst h
      rw [if_pos rfl, hget]
      rfl
    · rw [if_neg h]
  | some ci =>
    have hid : (f ci).channelId = cid := by rw [hf, Channels.channelId_of_get hget]
    dsimp only
    rw [get_put_eq, hid]
    by_cases h : cid = id
    · subst h
      rw [if_pos rfl, if_pos rfl, hget]
      rfl
    · rw [if_neg h, if_neg h]

theorem get_accept (m : Channels) (cid id : MessageId) (newKey : AesKey) :
    (accept m cid newKey).1.get id =
      if cid = id then (m.get id).map (fun ci => { ci with channelKey := newKey, state := .opened }) else m.get id := by
  rw [← get_rewrite m cid id (fun ci => { ci with channelKey := newKey, state := .opened }) (fun _ => rfl)]
  unfold accept
  cases m.get cid with
  | none => rfl
  | some ci => rfl

theorem get_upgrade (m : Channels) (cid id : MessageId) (newMode : ChannelMode) (csk : AesKey) :
    (upgrade m cid newMode csk).1.get id =
      if cid = id then (m.get id).map (fun ci => { ci with mode := newMode, channelKey := csk, state := .opened })
      else m.get id := by
  rw [← get_rewrite m cid id (fun ci => { ci with mode := newMode, channelKey := csk, state := .opened }) (fun _ => rfl)]
  unfold upgrade
  cases m.get cid with
  | none => rfl
  | some ci => rfl

theorem Sent.refl (cid id : MessageId) (old : Option ChannelInfo) : Sent cid id old old := by
  unfold Sent
  by_cases h : cid = id
  · rw [if_pos h]
    refine ⟨0, ?_⟩
    cases old with
    | none => rfl
    | some ci => simp
  · rw [if_neg h]

theorem Sent.trans {cid id : MessageId} {a b c : Option ChannelInfo} (hab : Sent cid id a b) (hbc : Sent cid id b c) :
    Sent cid id a c := by
  unfold Sent at *
  by_cases h : cid = id
  · rw [if_pos h] at *
    obtain ⟨n, rfl⟩ := hab
    obtain ⟨n', rfl⟩ := hbc
    refine ⟨n + n', ?_⟩
    cases a with
    | none => rfl
    | some ci => simp [UInt32.add_assoc]
  · rw [if_neg h] at *
    rw [hbc, hab]

theorem sent_send (A : Aes) (tunnels : Tunnels) (m : Channels) (cid id : MessageId) (nonce : AesNonce) (payload : Bytes) :
    Sent cid id (m.get id) ((send A tunnels m cid nonce payload).1.get id) := by
  by_cases hopen : ∃ ci, m.get cid = some ci ∧ ci.state = .opened
  · obtain ⟨ci, hget, hstate⟩ := hopen
    have hid := Channels.channelId_of_get hget
    rw [send_of_opened A tunnels hget hstate]
    dsimp only
    rw [get_put_eq]
    unfold Sent
    by_cases h : cid = id
    · subst h
      rw [if_pos rfl, if_pos hid, hget]
      exact ⟨1, rfl⟩
    · rw [if_neg h, if_neg (by rw [hid]; exact h)]
  · rw [send_of_not_opened A tunnels (fun ci hget hstate => hopen ⟨ci, hget, hstate⟩)]
    exact Sent.refl _ _ _

theorem sent_sendBatch (A : Aes) (tunnels : Tunnels) (cid id : MessageId) (frames : List (AesNonce × Bytes)) (m : Channels) :
    Sent cid id (m.get id) ((sendBatch A tunnels cid m frames).1.get id) := by
  induction frames generalizing m with
  | nil => exact Sent.refl _ _ _
  | cons frame frames ih =>
    obtain ⟨nonce, payload⟩ := frame
    have hs := sent_send A tunnels m cid id nonce payload
    unfold sendBatch
    cases hsend : send A tunnels m cid nonce payload with
    | mk m' result =>
      rw [hsend] at hs
      cases result with
      | error e => exact hs
      | ok out => exact hs.trans (ih m')

/-! ## Steps -/

theorem onChanAcceptCell_get (r : Router) (cell : Cell) (id : MessageId) :
    (onChanAcceptCell A load r cell).channels.get id =
      match (handshakePairs A load cell).bind (fun kvs => if gotKey kvs then
        some (readArr kvs "channel_id" (fit 16 []), readArr kvs "channel_key" (fit 32 [])) else none) with
      | none => r.channels.get id
      | some (channelId, channelKey) =>
        if channelId = id then
          (r.channels.get id).map (fun ci => { ci with channelKey := channelKey, state := .opened })
        else r.channels.get id := by
  unfold onChanAcceptCell handshakePairs
  cases hdec : cellDecode A cell handshakeKey with
  | error e => rfl
  | ok dc =>
    dsimp only
    cases hl : load dc.garlicData with
    | none => rfl
    | some item =>
      cases item with
      | map kvs =>
        by_cases hk : gotKey kvs
        · simp only [hk, if_true, Option.bind_some, onChanAccept, hl]
          refine Eq.trans ?_ (get_rewrite r.channels (readArr kvs "channel_id" (fit 16 [])) id
            (fun ci => { ci with channelKey := readArr kvs "channel_key" (fit 32 []), state := .opened }) (fun _ => rfl))
          cases r.channels.get (readArr kvs "channel_id" (fit 16 [])) with
          | none => rfl
          | some ci => rfl
        · simp [hk]
      | _ => rfl

theorem onDatagram_cases {r r' : Router} {out : Output} {peerAddr : String} {data : Bytes}
    (h : onDatagram A load r peerAddr data = .ok (r', out)) :
    (data.length ≠ 557 ∧ r' = r ∧ out = {}) ∨
    (data.length = 557 ∧ (⟨byteAt 1 (fit 557 data).toList⟩ : CellType) = .chanOpen ∧
      onChanOpenCell A load r peerAddr (fit 557 data) = (r', out)) ∨
    (data.length = 557 ∧ (⟨byteAt 1 (fit 557 data).toList⟩ : CellType) = .chanAccept ∧
      onChanAcceptCell A load r (fit 557 data) = r' ∧ out = {}) ∨
    (data.length = 557 ∧ (⟨byteAt 1 (fit 557 data).toList⟩ : CellType) ≠ .chanOpen ∧
      (⟨byteAt 1 (fit 557 data).toList⟩ : CellType) ≠ .chanAccept ∧
      ((∃ entry, r.guards.lookup (cellSessionTok (fit 557 data)) = some entry ∧
          relayCell r entry (fit 557 data) = .ok (r', out)) ∨
        (∃ frames, r.guards.lookup (cellSessionTok (fit 557 data)) = none ∧
          onCell A load r.channels (fit 557 data) = .ok frames ∧ r' = r ∧ out = { frames }))) := by
  unfold onDatagram at h
  by_cases hlen : data.length ≠ 557
  · rw [if_pos hlen] at h
    obtain ⟨rfl, rfl⟩ := Prod.mk.inj (Except.ok.inj h)
    exact Or.inl ⟨hlen, rfl, rfl⟩
  rw [if_neg hlen] at h
  dsimp only at h
  refine Or.inr ?_
  have hlen' : data.length = 557 := not_not.mp hlen
  by_cases hopen : (⟨byteAt 1 (fit 557 data).toList⟩ : CellType) = .chanOpen
  · rw [if_pos hopen] at h
    exact Or.inl ⟨hlen', hopen, Except.ok.inj h⟩
  rw [if_neg hopen] at h
  refine Or.inr ?_
  by_cases hacc : (⟨byteAt 1 (fit 557 data).toList⟩ : CellType) = .chanAccept
  · rw [if_pos hacc] at h
    obtain ⟨hr, hout⟩ := Prod.mk.inj (Except.ok.inj h)
    exact Or.inl ⟨hlen', hacc, hr, hout.symm⟩
  rw [if_neg hacc] at h
  refine Or.inr ⟨hlen', hopen, hacc, ?_⟩
  cases hg : r.guards.lookup (cellSessionTok (fit 557 data)) with
  | some entry =>
    rw [hg] at h
    exact Or.inl ⟨entry, rfl, h⟩
  | none =>
    rw [hg] at h
    dsimp only at h
    cases hc : onCell A load r.channels (fit 557 data) with
    | error e =>
      rw [hc] at h
      cases h
    | ok frames =>
      rw [hc] at h
      obtain ⟨rfl, rfl⟩ := Prod.mk.inj (Except.ok.inj h)
      exact Or.inr ⟨frames, rfl, rfl, rfl, rfl⟩

theorem onChanOpenCell_output (r : Router) (peerAddr : String) (cell : Cell) :
    (onChanOpenCell A load r peerAddr cell).2.frames = [] ∧ (onChanOpenCell A load r peerAddr cell).2.sent = [] := by
  unfold onChanOpenCell
  cases handshakePairs A load cell with
  | none => exact ⟨rfl, rfl⟩
  | some kvs => exact ⟨rfl, rfl⟩

theorem relayCell_channels {r r' : Router} {entry : GuardEntry} {cell : Cell} {out : Output}
    (h : relayCell r entry cell = .ok (r', out)) : r'.channels = r.channels ∧ out.frames = [] := by
  unfold relayCell at h
  cases ht : transportSend entry.forwardAddr cell.toList with
  | error e =>
    rw [ht] at h
    cases h
  | ok sent =>
    rw [ht] at h
    obtain ⟨rfl, rfl⟩ := Prod.mk.inj (Except.ok.inj h)
    exact ⟨rfl, rfl⟩

/-- A datagram that the router survives changes a channel only through a handshake cell. -/
theorem onDatagram_entry {r r' : Router} {out : Output} {peerAddr : String} {data : Bytes}
    (h : onDatagram A load r peerAddr data = .ok (r', out)) (id : MessageId) :
    r'.channels.get id = afterDatagram A load id (r.channels.get id) peerAddr data := by
  unfold afterDatagram handshakeOf
  obtain ⟨hlen, rfl, _⟩ | ⟨hlen, htype, hcell⟩ | ⟨hlen, htype, rfl, _⟩ | ⟨hlen, hopen, hacc, hdata⟩ := onDatagram_cases h
  · rw [if_pos hlen]
  · have hr : _ = r' := congrArg Prod.fst hcell
    rw [if_neg (not_not.mpr hlen), if_pos htype, ← hr]
    unfold onChanOpenCell
    cases handshakePairs A load (fit 557 data) with
    | none => rfl
    | some kvs =>
      dsimp only [Option.map, registerIncoming]
      rw [get_put_eq]
      dsimp only
      by_cases hid : (readChanOpen kvs).channelId = id
      · rw [if_pos hid, if_pos hid, hid]
      · rw [if_neg hid, if_neg hid]
  · have hne : (⟨byteAt 1 (fit 557 data).toList⟩ : CellType) ≠ .chanOpen := by
      rw [htype]
      decide
    rw [if_neg (not_not.mpr hlen), if_neg hne, if_pos htype, onChanAcceptCell_get]
    cases handshakePairs A load (fit 557 data) with
    | none => rfl
    | some kvs =>
      by_cases hk : gotKey kvs
      · simp [hk]
      · simp [hk]
  · rw [if_neg (not_not.mpr hlen), if_neg hopen, if_neg hacc]
    obtain ⟨entry, _, hrelay⟩ | ⟨frames, _, _, rfl, _⟩ := hdata
    · rw [(relayCell_channels hrelay).1]
    · rfl

theorem dispatchIpc_channelOpen (A : Aes) (r : Router) (remotePubkey : String) (anonLevel : Option UInt64)
    (mode peerAddr : Option String) (newId : MessageId) (newKey : AesKey) :
    (dispatchIpc A r (.channelOpen remotePubkey anonLevel mode peerAddr newId newKey)).1 =
      { r with channels := openChannel r.channels remotePubkey (anonLevelOf (anonLevel.getD 2)) (modeOf (mode.getD "message"))
                 (peerAddr.getD "") newId newKey } ∧
    (dispatchIpc A r (.channelOpen remotePubkey anonLevel mode peerAddr newId newKey)).2.1.frames = [] := by
  unfold dispatchIpc
  cases peerAddr with
  | none => exact ⟨rfl, rfl⟩
  | some addr =>
    dsimp only
    cases sendChanOpen A newId (anonLevelOf (anonLevel.getD 0)) (modeOf (mode.getD "message")) addr with
    | error e => exact ⟨rfl, rfl⟩
    | ok sent => exact ⟨rfl, rfl⟩

theorem dispatchIpc_channelAccept (A : Aes) (r : Router) (channelId : MessageId) (newKey : AesKey) :
    (dispatchIpc A r (.channelAccept channelId newKey)).1 =
      { r with channels := (accept r.channels channelId newKey).1 } ∧
    (dispatchIpc A r (.channelAccept channelId newKey)).2.1.frames = [] := by
  unfold dispatchIpc
  dsimp only
  cases (accept r.channels channelId newKey).1.get channelId with
  | none => exact ⟨rfl, rfl⟩
  | some ci =>
    dsimp only
    by_cases hp : ci.peerAddr = ""
    · rw [if_pos hp]
      exact ⟨rfl, rfl⟩
    · rw [if_neg hp]
      cases sendChanAccept A channelId ((accept r.channels channelId newKey).2.getD (fit 32 [])) ci.peerAddr with
      | error e => exact ⟨rfl, rfl⟩
      | ok sent => exact ⟨rfl, rfl⟩

theorem dispatchIpc_frameSend (A : Aes) (r : Router) (channelId : MessageId) (nonce : AesNonce) (payload : Bytes) :
    (dispatchIpc A r (.frameSend channelId nonce payload)).1 =
      { r with channels := (send A r.tunnels r.channels channelId nonce payload).1 } ∧
    (dispatchIpc A r (.frameSend channelId nonce payload)).2.1.frames = [] := by
  unfold dispatchIpc
  dsimp only
  cases send A r.tunnels r.channels channelId nonce payload with
  | mk m result =>
    cases result with
    | error e => exact ⟨rfl, rfl⟩
    | ok out => exact ⟨rfl, rfl⟩

theorem dispatchIpc_frames (A : Aes) (r : Router) (call : Call) : (dispatchIpc A r call).2.1.frames = [] := by
  cases call with
  | channelOpen => exact (dispatchIpc_channelOpen A r _ _ _ _ _ _).2
  | channelAccept => exact (dispatchIpc_channelAccept A r _ _).2
  | frameSend => exact (dispatchIpc_frameSend A r _ _ _).2
  | _ => rfl

theorem dispatchIpc_entry (A : Aes) (r : Router) (call : Call) (id : MessageId) :
    AfterCall id (r.channels.get id) ((dispatchIpc A r call).1.channels.get id) call := by
  cases call with
  | channelOpen remotePubkey anonLevel mode peerAddr newId newKey =>
    rw [(dispatchIpc_channelOpen A r _ _ _ _ _ _).1]
    unfold AfterCall
    dsimp only [openChannel]
    rw [get_put_eq]
    by_cases h : newId = id
    · rw [if_pos h, if_pos h, h]
    · rw [if_neg h, if_neg h]
  | channelAccept channelId newKey =>
    rw [(dispatchIpc_channelAccept A r _ _).1]
    exact get_accept r.channels channelId id newKey
  | channelReject channelId => exact get_erase_eq _ _ _
  | channelUpgrade channelId mode csk => exact get_upgrade _ _ _ _ _
  | channelClose channelId => exact get_erase_eq _ _ _
  | channelList => rfl
  | frameSend channelId nonce payload =>
    rw [(dispatchIpc_frameSend A r _ _ _).1]
    exact sent_send A r.tunnels r.channels channelId id nonce payload
  | frameSendBatch channelId frames => exact sent_sendBatch A r.tunnels channelId id frames r.channels

/-- What any step does to the entry of any channel. -/
theorem step_entry {r r' : Router} {e : Event} {out : Output} (h : step A load r e = .ok (r', out)) (id : MessageId) :
    EntryStep A load id (r.channels.get id) (r'.channels.get id) e := by
  cases e with
  | datagram peerAddr data => exact onDatagram_entry h id
  | ipc call =>
    have hr : _ = r' := congrArg Prod.fst (Except.ok.inj h)
    rw [← hr]
    exact dispatchIpc_entry A r call id

/-! ## Guards -/

/-- No guard has been recruited: the code that would register one is not called by the router. -/
structure Router.Wf (r : Router) : Prop where
  noGuards : NoGuards r.channels
  guards : r.guards = ∅

theorem Router.wf_initial : Router.initial.Wf :=
  ⟨(fun _ _ h => nomatch h), rfl⟩

def Unguarded (entry : Option ChannelInfo) : Prop :=
  ∀ ci, entry = some ci → ci.myInboundGuard = none ∧ ci.remoteInboundGuard = none

theorem Unguarded.map {entry : Option ChannelInfo} (h : Unguarded entry) {f : ChannelInfo → ChannelInfo}
    (hf : ∀ ci, (f ci).myInboundGuard = ci.myInboundGuard ∧ (f ci).remoteInboundGuard = ci.remoteInboundGuard) :
    Unguarded (entry.map f) := by
  intro ci hci
  obtain ⟨ci', hci', rfl⟩ := Option.map_eq_some_iff.mp hci
  rw [(hf ci').1, (hf ci').2]
  exact h ci' hci'

theorem Unguarded.ite {c : Prop} [Decidable c] {a b : Option ChannelInfo} (ha : Unguarded a) (hb : Unguarded b) :
    Unguarded (if c then a else b) := by
  by_cases hc : c
  · rw [if_pos hc]
    exact ha
  · rw [if_neg hc]
    exact hb

theorem Unguarded.sent {cid id : MessageId} {old new : Option ChannelInfo} (h : Unguarded old) (hs : Sent cid id old new) :
    Unguarded new := by
  unfold Sent at hs
  by_cases hid : cid = id
  · rw [if_pos hid] at hs
    obtain ⟨n, rfl⟩ := hs
    exact h.map (fun _ => ⟨rfl, rfl⟩)
  · rw [if_neg hid] at hs
    rw [hs]
    exact h

theorem Unguarded.step {id : MessageId} {old new : Option ChannelInfo} {e : Event} (h : Unguarded old)
    (hs : EntryStep A load id old new e) : Unguarded new := by
  have hfresh : ∀ ci : ChannelInfo, ci.myInboundGuard = none → ci.remoteInboundGuard = none → Unguarded (some ci) := by
    rintro ci h1 h2 _ ⟨rfl⟩
    exact ⟨h1, h2⟩
  have hnone : Unguarded none := fun _ hci => by cases hci
  cases e with
  | datagram peerAddr data =>
    change new = afterDatagram A load id old peerAddr data at hs
    rw [hs]
    unfold afterDatagram
    cases handshakeOf A load data with
    | none => exact h
    | some hk =>
      cases hk with
      | chanOpen o => exact Unguarded.ite (hfresh _ rfl rfl) h
      | chanAccept channelId channelKey =>
        apply Unguarded.ite _ h
        exact h.map (fun _ => ⟨rfl, rfl⟩)
  | ipc call =>
    change AfterCall id old new call at hs
    cases call with
    | channelOpen remotePubkey anonLevel mode peerAddr newId newKey =>
      rw [show new = _ from hs]
      exact Unguarded.ite (hfresh _ rfl rfl) h
    | channelAccept channelId newKey =>
      rw [show new = _ from hs]
      apply Unguarded.ite _ h
      exact h.map (fun _ => ⟨rfl, rfl⟩)
    | channelReject channelId =>
      rw [show new = _ from hs]
      exact Unguarded.ite hnone h
    | channelUpgrade channelId mode csk =>
      rw [show new = _ from hs]
      apply Unguarded.ite _ h
      exact h.map (fun _ => ⟨rfl, rfl⟩)
    | channelClose channelId =>
      rw [show new = _ from hs]
      exact Unguarded.ite hnone h
    | channelList =>
      rw [show new = _ from hs]
      exact h
    | frameSend channelId nonce payload => exact h.sent hs
    | frameSendBatch channelId frames => exact h.sent hs

theorem onDatagram_guards {r r' : Router} {out : Output} {peerAddr : String} {data : Bytes} (hr : r.guards = ∅)
    (h : onDatagram A load r peerAddr data = .ok (r', out)) : r'.guards = ∅ := by
  obtain ⟨_, rfl, _⟩ | ⟨_, _, hcell⟩ | ⟨_, _, rfl, _⟩ | ⟨_, _, _, hdata⟩ := onDatagram_cases h
  · exact hr
  · have hr' : _ = r' := congrArg Prod.fst hcell
    rw [← hr']
    unfold onChanOpenCell
    cases handshakePairs A load (fit 557 data) with
    | none => exact hr
    | some kvs => exact hr
  · unfold onChanAcceptCell
    split
    · exact hr
    · split
      · split_ifs
        · exact hr
        · exact hr
      · exact hr
  · obtain ⟨entry, hl, _⟩ | ⟨_, _, _, rfl, _⟩ := hdata
    · rw [hr] at hl
      cases hl
    · exact hr

theorem dispatchIpc_guards (A : Aes) (r : Router) (call : Call) : (dispatchIpc A r call).1.guards = r.guards := by
  cases call with
  | channelOpen => rw [(dispatchIpc_channelOpen A r _ _ _ _ _ _).1]
  | channelAccept => rw [(dispatchIpc_channelAccept A r _ _).1]
  | frameSend => rw [(dispatchIpc_frameSend A r _ _ _).1]
  | _ => rfl

theorem Router.Wf.step {r r' : Router} {e : Event} {out : Output} (hwf : r.Wf)
    (h : AnonRouter.step A load r e = .ok (r', out)) : r'.Wf := by
  constructor
  · intro id
    have hold : Unguarded (r.channels.get id) := hwf.noGuards id
    exact hold.step (step_entry h id)
  · cases e with
    | datagram peerAddr data => exact onDatagram_guards hwf.guards h
    | ipc call =>
      have hr : _ = r' := congrArg Prod.fst (Except.ok.inj h)
      rw [← hr, dispatchIpc_guards]
      exact hwf.guards

theorem Router.wf_of_reachable {r : Router} (h : Reachable (Steps A load) Router.initial r) : r.Wf := by
  refine h.invariant Router.Wf Router.wf_initial ?_
  rintro r e r' hwf ⟨out, hs⟩
  exact hwf.step hs

/-! ## Frames -/

theorem onCell_channel {m : Channels} (hm : NoGuards m) {cell : Cell} {frames : List (MessageId × Bytes)}
    (h : onCell A load m cell = .ok frames) {id : MessageId} {frame : Bytes} (hf : (id, frame) ∈ frames) :
    ∃ ci, m.get id = some ci ∧ ci.anonLevel = .direct ∧ ci.state = .opened := by
  unfold onCell at h
  cases hfind : m.list.find? (ownsCell (cellSessionTok cell)) with
  | none =>
    rw [hfind] at h
    obtain rfl := Except.ok.inj h
    cases hf
  | some ci =>
    rw [hfind] at h
    dsimp only at h
    cases hdec : cellDecode A cell ci.channelKey with
    | error e =>
      rw [hdec] at h
      cases h
    | ok dc =>
      rw [hdec] at h
      obtain rfl := Except.ok.inj h
      obtain ⟨clove, _, hclove⟩ := List.mem_filterMap.mp hf
      have hid : id = ci.channelId := by
        unfold openClove at hclove
        split_ifs at hclove
        obtain ⟨plain, _, heq⟩ := Option.map_eq_some_iff.mp hclove
        exact (Prod.mk.inj heq).1.symm
      have howner := find_ownsCell hm (cellSessionTok cell)
      rw [hfind] at howner
      obtain ⟨hget, hlevel⟩ := Option.filter_eq_some_iff.mp howner.symm
      refine ⟨ci, ?_, ?_⟩
      · rw [hid, Channels.channelId_of_get hget]
        exact hget
      · simpa using hlevel

theorem step_frames {r r' : Router} {e : Event} {out : Output} (hwf : r.Wf) (h : step A load r e = .ok (r', out))
    {id : MessageId} {frame : Bytes} (hf : (id, frame) ∈ out.frames) :
    ∃ ci, r.channels.get id = some ci ∧ ci.anonLevel = .direct ∧ ci.state = .opened := by
  cases e with
  | ipc call =>
    have hout : (dispatchIpc A r call).2.1 = out := congrArg Prod.snd (Except.ok.inj h)
    rw [← hout, dispatchIpc_frames] at hf
    cases hf
  | datagram peerAddr data =>
    obtain ⟨_, _, rfl⟩ | ⟨_, _, hcell⟩ | ⟨_, _, _, rfl⟩ | ⟨_, _, _, hdata⟩ := onDatagram_cases h
    · cases hf
    · have hout : _ = out := congrArg Prod.snd hcell
      rw [← hout, (onChanOpenCell_output r peerAddr _).1] at hf
      cases hf
    · cases hf
    · obtain ⟨entry, _, hrelay⟩ | ⟨frames, _, hc, _, rfl⟩ := hdata
      · rw [(relayCell_channels hrelay).2] at hf
        cases hf
      · exact onCell_channel hwf.noGuards hc hf

end Entries

end ScatterWeb.AnonRouter
