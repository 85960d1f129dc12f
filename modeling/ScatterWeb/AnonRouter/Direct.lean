import ScatterWeb.AnonRouter.Handshake

/-! # Where datagrams go

No code registers a guard or a tunnel, so nothing is ever relayed: a datagram that comes in makes none go out, and one that goes out
goes straight to the address that was given when its channel was last opened, by a local process or in a `CHAN_OPEN` cell. Payloads
go out only on channels of level 0. On the others, of which level 2 is the default of `channel.open`, they go nowhere, and
`frame.send` reports that they were sent. -/
namespace ScatterWeb.AnonRouter
open Crypto Lib Lib.Cbor
set_option autoImplicit false

section Openings
variable (A : Aes) (load : Bytes → Option Item)

/-- The event opens the channel, to this address and on this level. -/
def Opens (id : MessageId) (addr : String) (level : AnonLevel) : Event → Prop
  | .datagram peerAddr data => ∃ o, handshakeOf A load data = some (.chanOpen o) ∧ o.channelId = id ∧ peerAddr = addr ∧ o.anonLevel = level
  | .ipc (.channelOpen _ anonLevel _ peerAddr newId _) => newId = id ∧ peerAddr.getD "" = addr ∧ anonLevelOf (anonLevel.getD 2) = level
  | .ipc _ => False

/-- The event does not open the channel. -/
def NotOpens (id : MessageId) (e : Event) : Prop := ∀ addr level, ¬Opens A load id addr level e

/-- The last opening of the channel was to this address and on this level. -/
def LastOpened (id : MessageId) (addr : String) (level : AnonLevel) (es : List Event) : Prop := Since (Opens A load id addr level) (NotOpens A load id) es

variable {A load} {id : MessageId} {old new : Option ChannelInfo} {e : Event}

theorem Opens.unique {addr addr' : String} {level level' : AnonLevel} (h : Opens A load id addr level e) (h' : Opens A load id addr' level' e) :
    addr = addr' ∧ level = level' := by
  cases e with
  | datagram peerAddr data =>
    obtain ⟨o, ho, _, haddr, hlevel⟩ := h
    obtain ⟨o', ho', _, haddr', hlevel'⟩ := h'
    obtain rfl : o = o' := Handshake.chanOpen.inj (Option.some.inj (ho.symm.trans ho'))
    exact ⟨haddr.symm.trans haddr', hlevel.symm.trans hlevel'⟩
  | ipc call =>
    cases call with
    | channelOpen remotePubkey anonLevel mode peerAddr newId newKey => exact ⟨h.2.1.symm.trans h'.2.1, h.2.2.symm.trans h'.2.2⟩
    | _ => exact h.elim

theorem LastOpened.unique {addr addr' : String} {level level' : AnonLevel} {es : List Event} (h : LastOpened A load id addr level es)
    (h' : LastOpened A load id addr' level' es) : addr = addr' ∧ level = level' := by
  induction es using List.reverseRecOn with
  | nil => exact absurd h not_since_nil
  | append_singleton es e ih =>
    obtain hopens | ⟨hnot, hrest⟩ := since_snoc.mp h
    · obtain hopens' | ⟨hnot', _⟩ := since_snoc.mp h'
      · exact hopens.unique hopens'
      · exact absurd hopens (hnot' addr level)
    · obtain hopens' | ⟨_, hrest'⟩ := since_snoc.mp h'
      · exact absurd hopens' (hnot addr' level')
      · exact ih hrest hrest'

/-- An entry has the address and the level of the opening, or of the entry before. -/
def KeptOrOpened (A : Aes) (load : Bytes → Option Item) (id : MessageId) (old new : Option ChannelInfo) (e : Event) : Prop :=
  ∀ ci', new = some ci' → Opens A load id ci'.peerAddr ci'.anonLevel e ∨
    (NotOpens A load id e ∧ ∃ ci, old = some ci ∧ ci.peerAddr = ci'.peerAddr ∧ ci.anonLevel = ci'.anonLevel)

theorem KeptOrOpened.map (hnot : NotOpens A load id e) {f : ChannelInfo → ChannelInfo}
    (hf : ∀ ci, (f ci).peerAddr = ci.peerAddr ∧ (f ci).anonLevel = ci.anonLevel) : KeptOrOpened A load id old (old.map f) e := by
  intro ci' hci'
  obtain ⟨ci, hci, rfl⟩ := Option.map_eq_some_iff.mp hci'
  exact .inr ⟨hnot, ci, hci, (hf ci).1.symm, (hf ci).2.symm⟩

theorem KeptOrOpened.same (hnot : NotOpens A load id e) : KeptOrOpened A load id old old e :=
  fun ci hci => .inr ⟨hnot, ci, hci, rfl, rfl⟩

theorem KeptOrOpened.ite {c : Prop} [Decidable c] {a b : Option ChannelInfo} (ha : c → KeptOrOpened A load id old a e)
    (hb : ¬c → KeptOrOpened A load id old b e) : KeptOrOpened A load id old (if c then a else b) e := by
  by_cases hc : c
  · rw [if_pos hc]
    exact ha hc
  · rw [if_neg hc]
    exact hb hc

theorem KeptOrOpened.none : KeptOrOpened A load id old none e := fun _ hci => nomatch hci

theorem KeptOrOpened.sent {cid : MessageId} (hnot : NotOpens A load id e) (hs : Sent cid id old new) : KeptOrOpened A load id old new e := by
  unfold Sent at hs
  by_cases hid : cid = id
  · rw [if_pos hid] at hs
    obtain ⟨n, rfl⟩ := hs
    exact .map hnot (fun _ => ⟨rfl, rfl⟩)
  · rw [if_neg hid] at hs
    rw [hs]
    exact .same hnot

theorem keptOrOpened_step (hs : EntryStep A load id old new e) : KeptOrOpened A load id old new e := by
  cases e with
  | datagram peerAddr data =>
    change new = afterDatagram A load id old peerAddr data at hs
    rw [hs]
    unfold afterDatagram
    cases hk : handshakeOf A load data with
    | none =>
      refine .same ?_
      rintro addr level ⟨o, ho, _⟩
      cases hk.symm.trans ho
    | some hand =>
      cases hand with
      | chanOpen o =>
        refine .ite ?_ ?_
        · rintro hid ci' ⟨rfl⟩
          exact .inl ⟨o, hk, hid, rfl, rfl⟩
        · intro hid
          refine .same ?_
          rintro addr level ⟨o', ho', hid', _⟩
          cases hk.symm.trans ho'
          exact hid hid'
      | chanAccept channelId channelKey =>
        have hnot : NotOpens A load id (.datagram peerAddr data) := by
          rintro addr level ⟨o, ho, _⟩
          cases hk.symm.trans ho
        exact .ite (fun _ => .map hnot (fun _ => ⟨rfl, rfl⟩)) (fun _ => .same hnot)
  | ipc call =>
    change AfterCall id old new call at hs
    cases call with
    | channelOpen remotePubkey anonLevel mode peerAddr newId newKey =>
      rw [show new = _ from hs]
      refine .ite ?_ ?_
      · rintro hid ci' ⟨rfl⟩
        exact .inl ⟨hid, rfl, rfl⟩
      · intro hid
        exact .same (fun _ _ hopens => hid hopens.1)
    | channelAccept channelId newKey =>
      have hnot : NotOpens A load id (.ipc (.channelAccept channelId newKey)) := fun _ _ h => h
      rw [show new = _ from hs]
      exact .ite (fun _ => .map hnot (fun _ => ⟨rfl, rfl⟩)) (fun _ => .same hnot)
    | channelReject channelId =>
      rw [show new = _ from hs]
      exact .ite (fun _ => .none) (fun _ => .same (fun _ _ h => h))
    | channelUpgrade channelId mode csk =>
      have hnot : NotOpens A load id (.ipc (.channelUpgrade channelId mode csk)) := fun _ _ h => h
      rw [show new = _ from hs]
      exact .ite (fun _ => .map hnot (fun _ => ⟨rfl, rfl⟩)) (fun _ => .same hnot)
    | channelClose channelId =>
      rw [show new = _ from hs]
      exact .ite (fun _ => .none) (fun _ => .same (fun _ _ h => h))
    | channelList =>
      rw [show new = _ from hs]
      exact .same (fun _ _ h => h)
    | frameSend channelId nonce payload => exact .sent (fun _ _ h => h) hs
    | frameSendBatch channelId frames => exact .sent (fun _ _ h => h) hs

/-- The address and the level of a channel are those of its last opening. -/
theorem lastOpened_of_run {es : List Event} {r : Router} (hrun : Run (Steps A load) Router.initial es r) {id : MessageId} {ci : ChannelInfo}
    (hget : r.channels.get id = some ci) : LastOpened A load id ci.peerAddr ci.anonLevel es := by
  induction hrun generalizing ci with
  | nil => cases hget
  | snoc _ hs ih =>
    obtain ⟨out, hs⟩ := hs
    obtain hopens | ⟨hnot, ci₀, hold, haddr, hlevel⟩ := keptOrOpened_step (step_entry hs id) ci hget
    · exact since_snoc.mpr (.inl hopens)
    · have hbefore := ih hold
      rw [haddr, hlevel] at hbefore
      exact since_snoc.mpr (.inr ⟨hnot, hbefore⟩)

end Openings

/-! ## What goes out -/

section Sending
variable {A : Aes} {load : Bytes → Option Item} {r r' : Router} {e : Event} {out : Output} {d : Datagram}

/-- A cell for the address. -/
def CellTo (addr : String) (d : Datagram) : Prop := d.addr = addr ∧ d.data.length = 557

theorem cellTo_of_transportSend {addr : String} {cell : Cell} {sent : List Datagram} (h : transportSend addr cell.toList = .ok sent) (hd : d ∈ sent) :
    CellTo addr d := by
  unfold transportSend at h
  cases hp : parseAddr addr with
  | error e =>
    rw [hp] at h
    cases h
  | ok p =>
    rw [hp] at h
    obtain rfl := Except.ok.inj h
    rw [List.mem_singleton.mp hd]
    exact ⟨rfl, cell.toList_length⟩

theorem cellTo_of_sendHandshake {cellType : CellType} {buf : Bytes} {addr : String} {sent : List Datagram}
    (h : sendHandshake A cellType buf addr = .ok sent) (hd : d ∈ sent) : CellTo addr d := by
  unfold sendHandshake at h
  split_ifs at h
  · obtain rfl := Except.ok.inj h
    cases hd
  · dsimp only at h
    cases hb : cellBuild A { cellType, garlicLen := UInt16.ofNat buf.length } handshakeKey buf with
    | error e =>
      rw [hb] at h
      cases h
    | ok cell =>
      rw [hb] at h
      dsimp only at h
      cases ht : transportSend addr cell.toList with
      | error e =>
        rw [ht] at h
        cases h
      | ok out =>
        rw [ht] at h
        obtain rfl := Except.ok.inj h
        exact cellTo_of_transportSend ht hd

/-- Without a guard a cell goes straight to the peer, if the channel is of level 0 and has an address. -/
theorem dispatchCell_of_unguarded {tunnels : Tunnels} {ci : ChannelInfo} {cell : Cell} (hguard : ci.remoteInboundGuard = none) :
    dispatchCell tunnels ci cell = if ci.anonLevel = .direct ∧ ci.peerAddr ≠ "" then transportSend ci.peerAddr cell.toList else .ok [] := by
  unfold dispatchCell
  rw [hguard]

/-- What `send` puts out is a cell for the address of the channel, which is of level 0. -/
theorem cellTo_of_send {tunnels : Tunnels} {m m' : Channels} (hm : NoGuards m) {id : MessageId} {nonce : AesNonce} {payload : Bytes} {ok : Bool}
    {sent : List Datagram} (h : send A tunnels m id nonce payload = (m', .ok (ok, sent))) (hd : d ∈ sent) :
    ∃ ci, m.get id = some ci ∧ ci.state = .opened ∧ ci.anonLevel = .direct ∧ CellTo ci.peerAddr d := by
  by_cases hopen : ∃ ci, m.get id = some ci ∧ ci.state = .opened
  · obtain ⟨ci, hget, hstate⟩ := hopen
    rw [send_of_opened A tunnels hget hstate, dispatchCell_of_unguarded (hm id ci hget).2] at h
    have hres := (Prod.mk.inj h).2
    split_ifs at hres with hdirect
    · cases ht : transportSend ci.peerAddr (sendCell A ci id nonce payload).toList with
      | error e =>
        rw [ht] at hres
        cases hres
      | ok out =>
        rw [ht] at hres
        obtain ⟨_, rfl⟩ := Prod.mk.inj (Except.ok.inj hres)
        exact ⟨ci, hget, hstate, hdirect.1, cellTo_of_transportSend ht hd⟩
    · obtain ⟨_, rfl⟩ := Prod.mk.inj (Except.ok.inj hres)
      cases hd
  · rw [send_of_not_opened A tunnels (fun ci hget hstate => hopen ⟨ci, hget, hstate⟩)] at h
    obtain ⟨_, rfl⟩ := Prod.mk.inj (Except.ok.inj (Prod.mk.inj h).2)
    cases hd

theorem noGuards_of_sent {m m' : Channels} (hm : NoGuards m) {cid : MessageId} (h : ∀ id, Sent cid id (m.get id) (m'.get id)) : NoGuards m' := by
  intro id
  have hold : Unguarded (m.get id) := hm id
  exact hold.sent (h id)

theorem get_of_sent {old new : Option ChannelInfo} {id : MessageId} (h : Sent id id old new) {ci' : ChannelInfo} (hci' : new = some ci') :
    ∃ ci, old = some ci ∧ ci.peerAddr = ci'.peerAddr ∧ ci.anonLevel = ci'.anonLevel := by
  unfold Sent at h
  rw [if_pos rfl] at h
  obtain ⟨n, rfl⟩ := h
  obtain ⟨ci, hci, rfl⟩ := Option.map_eq_some_iff.mp hci'
  exact ⟨ci, hci, rfl, rfl⟩

theorem cellTo_of_sendBatch {tunnels : Tunnels} {id : MessageId} {frames : List (AesNonce × Bytes)} {m : Channels} (hm : NoGuards m)
    (hd : d ∈ (sendBatch A tunnels id m frames).2.1) :
    ∃ ci, m.get id = some ci ∧ ci.anonLevel = .direct ∧ CellTo ci.peerAddr d := by
  induction frames generalizing m with
  | nil => cases hd
  | cons frame frames ih =>
    obtain ⟨nonce, payload⟩ := frame
    have hsent : ∀ id', Sent id id' (m.get id') ((send A tunnels m id nonce payload).1.get id') :=
      fun id' => sent_send A tunnels m id id' nonce payload
    unfold sendBatch at hd
    cases hsend : send A tunnels m id nonce payload with
    | mk m' result =>
      rw [hsend] at hd hsent
      cases result with
      | error e => cases hd
      | ok res =>
        obtain ⟨ok, now⟩ := res
        obtain hnow | hlater := List.mem_append.mp hd
        · obtain ⟨ci, hget, _, hlevel, hto⟩ := cellTo_of_send hm hsend hnow
          exact ⟨ci, hget, hlevel, hto⟩
        · obtain ⟨ci', hget', hlevel', hto⟩ := ih (noGuards_of_sent hm hsent) hlater
          obtain ⟨ci, hget, haddr, hlevel⟩ := get_of_sent (hsent id) hget'
          exact ⟨ci, hget, hlevel.trans hlevel', haddr ▸ hto⟩

/-- A datagram that comes in makes none go out. -/
theorem sent_of_datagram (hwf : r.Wf) {peerAddr : String} {data : Bytes} (h : onDatagram A load r peerAddr data = .ok (r', out)) : out.sent = [] := by
  obtain ⟨_, _, rfl⟩ | ⟨_, _, hcell⟩ | ⟨_, _, _, rfl⟩ | ⟨_, _, _, hdata⟩ := onDatagram_cases h
  · rfl
  · have hout : _ = out := congrArg Prod.snd hcell
    rw [← hout]
    unfold onChanOpenCell
    cases handshakePairs A load (fit 557 data) <;> rfl
  · rfl
  · obtain ⟨entry, hlook, _⟩ | ⟨_, _, _, _, rfl⟩ := hdata
    · rw [hwf.guards] at hlook
      cases hlook
    · rfl

def AcceptsCall (id : MessageId) (e : Event) : Prop := ∃ newKey, e = .ipc (.channelAccept id newKey)

/-- A call that hands over a payload for the channel. -/
def Carries (id : MessageId) (e : Event) : Prop :=
  (∃ nonce payload, e = .ipc (.frameSend id nonce payload)) ∨ ∃ frames, e = .ipc (.frameSendBatch id frames)

/-- Why a datagram goes out: its channel is being opened or accepted, or carries a payload. -/
inductive Cause (A : Aes) (load : Bytes → Option Item) (r : Router) (e : Event) (d : Datagram) : Prop
  | opens {call : Call} {id : MessageId} {level : AnonLevel} (hcall : e = .ipc call) (hopens : Opens A load id d.addr level e)
  | accepts {id : MessageId} {ci : ChannelInfo} (he : AcceptsCall id e) (hget : r.channels.get id = some ci) (haddr : ci.peerAddr = d.addr)
  | carries {id : MessageId} {ci : ChannelInfo} (he : Carries id e) (hget : r.channels.get id = some ci) (haddr : ci.peerAddr = d.addr)
      (hlevel : ci.anonLevel = .direct)

variable (load) in
theorem cause_of_call (hwf : r.Wf) {call : Call} (hd : d ∈ (dispatchIpc A r call).2.1.sent) :
    d.data.length = 557 ∧ Cause A load r (.ipc call) d := by
  cases call with
  | channelOpen remotePubkey anonLevel mode peerAddr newId newKey =>
    unfold dispatchIpc at hd
    cases peerAddr with
    | none => cases hd
    | some addr =>
      dsimp only at hd
      cases hs : sendChanOpen A newId (anonLevelOf (anonLevel.getD 0)) (modeOf (mode.getD "message")) addr with
      | error e =>
        rw [hs] at hd
        cases hd
      | ok sent =>
        rw [hs] at hd
        obtain ⟨haddr, hlen⟩ := cellTo_of_sendHandshake hs hd
        exact ⟨hlen, .opens rfl ⟨rfl, haddr.symm, rfl⟩⟩
  | channelAccept channelId newKey =>
    have hentry := get_accept r.channels channelId channelId newKey
    unfold dispatchIpc at hd
    dsimp only at hd
    cases hget : (accept r.channels channelId newKey).1.get channelId with
    | none =>
      rw [hget] at hd
      cases hd
    | some ci =>
      rw [hget] at hd hentry
      dsimp only at hd
      split_ifs at hd
      · cases hd
      · cases hs : sendChanAccept A channelId ((accept r.channels channelId newKey).2.getD (fit 32 [])) ci.peerAddr with
        | error e =>
          rw [hs] at hd
          cases hd
        | ok sent =>
          rw [hs] at hd
          obtain ⟨haddr, hlen⟩ := cellTo_of_sendHandshake hs hd
          rw [if_pos rfl] at hentry
          obtain ⟨ci₀, hget₀, rfl⟩ := Option.map_eq_some_iff.mp hentry.symm
          exact ⟨hlen, .accepts ⟨newKey, rfl⟩ hget₀ haddr.symm⟩
  | frameSend channelId nonce payload =>
    unfold dispatchIpc at hd
    dsimp only at hd
    cases hs : send A r.tunnels r.channels channelId nonce payload with
    | mk m result =>
      rw [hs] at hd
      cases result with
      | error e => cases hd
      | ok res =>
        obtain ⟨ok, sent⟩ := res
        obtain ⟨ci, hget, _, hlevel, haddr, hlen⟩ := cellTo_of_send hwf.noGuards hs hd
        exact ⟨hlen, .carries (.inl ⟨nonce, payload, rfl⟩) hget haddr.symm hlevel⟩
  | frameSendBatch channelId frames =>
    obtain ⟨ci, hget, hlevel, haddr, hlen⟩ := cellTo_of_sendBatch hwf.noGuards hd
    exact ⟨hlen, .carries (.inr ⟨frames, rfl⟩) hget haddr.symm hlevel⟩
  | _ => cases hd

/-- Every datagram that goes out in a run is one cell, and goes straight to an address: that of the channel that is being opened, or the
one that was given when its channel was last opened. A payload goes out only if that was on level 0; and no datagram that comes
in makes another one go out. -/
theorem datagrams_go_straight {es : List Event} (hrun : Run (Steps A load) Router.initial es r) (hstep : step A load r e = .ok (r', out)) (hd : d ∈ out.sent) :
    d.data.length = 557 ∧ ((∃ call id level, e = .ipc call ∧ Opens A load id d.addr level e) ∨
      (∃ id level, AcceptsCall id e ∧ LastOpened A load id d.addr level es) ∨ ∃ id, Carries id e ∧ LastOpened A load id d.addr .direct es) := by
  have hwf := Router.wf_of_reachable ⟨es, hrun⟩
  cases e with
  | datagram peerAddr data =>
    rw [sent_of_datagram hwf hstep] at hd
    cases hd
  | ipc call =>
    have hout : (dispatchIpc A r call).2.1 = out := congrArg Prod.snd (Except.ok.inj hstep)
    rw [← hout] at hd
    obtain ⟨hlen, hcause⟩ := cause_of_call load hwf hd
    refine ⟨hlen, ?_⟩
    cases hcause with
    | opens hcall hopens => exact .inl ⟨_, _, _, hcall, hopens⟩
    | @accepts id ci he hget haddr =>
      have hlast := lastOpened_of_run hrun hget
      rw [haddr] at hlast
      exact .inr (.inl ⟨id, ci.anonLevel, he, hlast⟩)
    | @carries id ci he hget haddr hlevel =>
      have hlast := lastOpened_of_run hrun hget
      rw [haddr, hlevel] at hlast
      exact .inr (.inr ⟨id, he, hlast⟩)

/-- A payload on an open channel of level 0 whose address can be parsed. -/
theorem dispatchIpc_frameSend_direct {id : MessageId} {ci : ChannelInfo} (hget : r.channels.get id = some ci) (hopen : ci.state = .opened)
    (hguard : ci.remoteInboundGuard = none) (hdirect : ci.anonLevel = .direct ∧ ci.peerAddr ≠ "") {host : String × UInt16}
    (hhost : parseAddr ci.peerAddr = .ok host) (nonce : AesNonce) (payload : Bytes) :
    (dispatchIpc A r (.frameSend id nonce payload)).2 = ({ sent := [⟨ci.peerAddr, (sendCell A ci id nonce payload).toList⟩] }, .ok (.sent id true)) := by
  unfold dispatchIpc
  dsimp only
  rw [send_of_opened A r.tunnels hget hopen, dispatchCell_of_unguarded hguard, if_pos hdirect]
  unfold transportSend
  rw [hhost]
  rfl

/-- What goes out on a channel that was accepted goes to where the `CHAN_OPEN` came from. -/
theorem datagrams_go_straight_accepted :
    ∃ r d, Run (Steps checksumAes Cbor.load) Router.initial (acceptorEvents checksumAes (fit 16 [7]) (fit 32 [1]) "10.0.0.9:1") r ∧
      (dispatchIpc checksumAes r (.frameSend (fit 16 [7]) (fit 12 []) [1])).2.1.sent = [d] ∧
      ∃ id, LastOpened checksumAes Cbor.load id d.addr .direct (acceptorEvents checksumAes (fit 16 [7]) (fit 32 [1]) "10.0.0.9:1") := by
  obtain ⟨r, hrun, hget⟩ := run_acceptor checksumAes_correct load_loads (fit 16 [7]) (fit 32 [1]) "10.0.0.9:1"
  have hhost : parseAddr "10.0.0.9:1" = .ok ("10.0.0.9", 1) := rfl
  have hne : "10.0.0.9:1" ≠ "" := by decide
  obtain ⟨d, hsent⟩ : ∃ d, (dispatchIpc checksumAes r (.frameSend (fit 16 [7]) (fit 12 []) [1])).2.1.sent = [d] :=
    ⟨_, congrArg (fun o => o.1.sent) (dispatchIpc_frameSend_direct hget rfl rfl ⟨rfl, hne⟩ hhost (fit 12 []) [1])⟩
  have hmem : d ∈ (dispatchIpc checksumAes r (.frameSend (fit 16 [7]) (fit 12 []) [1])).2.1.sent := by
    rw [hsent]
    exact List.mem_cons_self
  refine ⟨r, d, hrun, hsent, ?_⟩
  obtain ⟨_, ⟨_, _, _, _, hopens⟩ | ⟨_, _, ⟨_, hcall⟩, _⟩ | ⟨id, _, hlast⟩⟩ :=
    datagrams_go_straight (e := .ipc (.frameSend (fit 16 [7]) (fit 12 []) [1])) hrun rfl hmem
  · exact hopens.elim
  · cases hcall
  · exact ⟨id, hlast⟩

/-- A `frame.send` on an open channel that does not throw reports success, and has sent nothing exactly if the channel was last opened on
another level than 0 or without an address. -/
theorem success_without_sending_iff {es : List Event} (hrun : Run (Steps A load) Router.initial es r) {id : MessageId} {ci : ChannelInfo}
    (hget : r.channels.get id = some ci) (hopen : ci.state = .opened) (nonce : AesNonce) (payload : Bytes) {reply : Reply}
    (hreply : (dispatchIpc A r (.frameSend id nonce payload)).2.2 = .ok reply) :
    reply = .sent id true ∧ ((dispatchIpc A r (.frameSend id nonce payload)).2.1.sent = [] ↔
      ∃ addr level, LastOpened A load id addr level es ∧ (level ≠ .direct ∨ addr = "")) := by
  have hwf := Router.wf_of_reachable ⟨es, hrun⟩
  have hlast := lastOpened_of_run hrun hget
  have hright : (∃ addr level, LastOpened A load id addr level es ∧ (level ≠ .direct ∨ addr = "")) ↔ ¬(ci.anonLevel = .direct ∧ ci.peerAddr ≠ "") := by
    rw [not_and_or, not_ne_iff]
    constructor
    · rintro ⟨addr, level, hlast', h⟩
      obtain ⟨rfl, rfl⟩ := hlast.unique hlast'
      exact h
    · intro h
      exact ⟨ci.peerAddr, ci.anonLevel, hlast, h⟩
  rw [hright]
  by_cases hdirect : ci.anonLevel = .direct ∧ ci.peerAddr ≠ ""
  · cases hp : parseAddr ci.peerAddr with
    | error e =>
      unfold dispatchIpc at hreply
      dsimp only at hreply
      rw [send_of_opened A r.tunnels hget hopen, dispatchCell_of_unguarded (hwf.noGuards id ci hget).2, if_pos hdirect, transportSend, hp] at hreply
      cases hreply
    | ok host =>
      have hres := dispatchIpc_frameSend_direct (A := A) hget hopen (hwf.noGuards id ci hget).2 hdirect hp nonce payload
      rw [hres] at hreply ⊢
      exact ⟨(Except.ok.inj hreply).symm, fun h => absurd h (List.cons_ne_nil _ _), fun h => absurd hdirect h⟩
  · unfold dispatchIpc at hreply ⊢
    dsimp only at hreply ⊢
    rw [send_of_opened A r.tunnels hget hopen, dispatchCell_of_unguarded (hwf.noGuards id ci hget).2, if_neg hdirect] at hreply ⊢
    exact ⟨(Except.ok.inj hreply).symm, fun _ => hdirect, fun _ => rfl⟩

def anonymousId : MessageId := fit 16 [7]

/-- A channel that is opened without a level, and upgraded. -/
def anonymousEvents : List Event := [.ipc (.channelOpen "" none none (some "10.0.0.9:1") anonymousId (fit 32 [])), .ipc (.channelUpgrade anonymousId "message" (fit 32 [1]))]

/-- What is sent on it goes nowhere. -/
theorem success_without_sending_iff_anonymous : ∃ r, Run (Steps checksumAes Cbor.load) Router.initial anonymousEvents r ∧
    (dispatchIpc checksumAes r (.frameSend anonymousId (fit 12 []) [1])).2.2 = .ok (.sent anonymousId true) ∧
    (dispatchIpc checksumAes r (.frameSend anonymousId (fit 12 []) [1])).2.1.sent = [] := by
  let opened := (dispatchIpc checksumAes Router.initial (.channelOpen "" none none (some "10.0.0.9:1") anonymousId (fit 32 []))).1
  let r := (dispatchIpc checksumAes opened (.channelUpgrade anonymousId "message" (fit 32 [1]))).1
  have hrun : Run (Steps checksumAes Cbor.load) Router.initial anonymousEvents r := (Run.nil.snoc ⟨_, rfl⟩).snoc ⟨_, rfl⟩
  have hlast : LastOpened checksumAes Cbor.load anonymousId "10.0.0.9:1" ⟨2⟩ anonymousEvents := by
    refine ⟨[], _, _, rfl, ⟨rfl, rfl, rfl⟩, ?_⟩
    intro e he
    rw [List.mem_singleton.mp he]
    exact fun _ _ h => h
  have hreply : (dispatchIpc checksumAes r (.frameSend anonymousId (fit 12 []) [1])).2.2 = .ok (.sent anonymousId true) := rfl
  have hget : r.channels.get anonymousId = some _ := rfl
  refine ⟨r, hrun, hreply, ?_⟩
  exact (success_without_sending_iff hrun hget rfl (fit 12 []) [1] hreply).2.mpr ⟨_, _, hlast, .inl (by decide)⟩

end Sending

end ScatterWeb.AnonRouter
