import Mathlib.Data.List.Infix
import Mathlib.Logic.Function.Basic
import ScatterWeb.AnonRouter.Nonces

/-! # A direct channel as a stream

Two routers have a direct channel open under one key. Each passes payloads to `send`, and the network hands a datagram of either to
either, as often and in whatever order it likes. `channel.hpp` calls the channel an ordered stream, but the receiver looks at no
sequence number, and the token and the key are the same in both directions. So the frames at one end are a subsequence of what the
other sent as long as the network itself keeps the order; a datagram that comes twice, late, or back to its sender is a frame again. -/
namespace ScatterWeb.AnonRouter
open Crypto Lib Lib.Cbor
set_option autoImplicit false

def Side.peer : Side → Side
  | .initiator => .acceptor
  | .acceptor => .initiator

/-- The router has the direct channel open under `key`. -/
def OnChannel (id : MessageId) (key : AesKey) (r : Router) : Prop :=
  ∃ ci, r.channels.get id = some ci ∧ ci.state = .opened ∧ ci.anonLevel = .direct ∧ ci.channelKey = key

/-- The payloads that arrive at all. -/
def Carried (payload : Bytes) : Prop := 1 ≤ payload.length ∧ payload.length ≤ 435

instance (payload : Bytes) : Decidable (Carried payload) := inferInstanceAs (Decidable (_ ∧ _))

/-- Both ends, and for each of them: the payloads passed to `send` with the datagrams of each call, the frames passed to
`frame_cb`, and the number of the first call at the other end that no frame has come from so far, nor from a later one. -/
structure Stream where
  router : Side → Router
  sent : Side → List (Bytes × List Bytes)
  frames : Side → List Bytes
  mark : Side → ℕ

def Stream.start (router : Side → Router) : Stream := ⟨router, fun _ => [], fun _ => [], fun _ => 0⟩

inductive StreamEvent
  | send (side : Side) (nonce : AesNonce) (payload : Bytes)
  | deliver (side : Side) (peerAddr : String) (origin : Side) (call : ℕ)
  deriving DecidableEq

section Steps
variable (A : Aes) (load : Bytes → Option Item) (id : MessageId)

def sentData : Except RouterError (Bool × List Datagram) → List Bytes
  | .ok (_, out) => out.map Datagram.data
  | .error _ => []

def Stream.send (w : Stream) (side : Side) (nonce : AesNonce) (payload : Bytes) : Stream :=
  let r := w.router side
  let (channels, res) := AnonRouter.send A r.tunnels r.channels id nonce payload
  { w with
    router := Function.update w.router side { r with channels }
    sent := Function.update w.sent side (w.sent side ++ [(payload, sentData res)]) }

def framesOn (out : Output) : List Bytes := (out.frames.filter (fun f => decide (f.1 = id))).map Prod.snd

def Stream.deliver (w : Stream) (side origin : Side) (call : ℕ) (payload : Bytes) (r : Router) (out : Output) : Stream :=
  { w with
    router := Function.update w.router side r
    frames := Function.update w.frames side (w.frames side ++ framesOn id out)
    mark := Function.update w.mark side
      (if origin = side.peer ∧ Carried payload then max (w.mark side) (call + 1) else w.mark side) }

inductive StreamStep (w : Stream) : StreamEvent → Stream → Prop
  | send (side : Side) (nonce : AesNonce) (payload : Bytes) :
      StreamStep w (.send side nonce payload) (w.send A id side nonce payload)
  | deliver {side origin : Side} {peerAddr : String} {call : ℕ} {payload data : Bytes} {datagrams : List Bytes} {r : Router}
      {out : Output} (hsent : (w.sent origin)[call]? = some (payload, datagrams)) (hdata : data ∈ datagrams)
      (hstep : onDatagram A load (w.router side) peerAddr data = .ok (r, out)) :
      StreamStep w (.deliver side peerAddr origin call) (w.deliver id side origin call payload r out)

/-- The frames at one end are a subsequence of what the other sent. -/
def Intact (side : Side) (w : Stream) : Prop := (w.frames side).Sublist ((w.sent side.peer).map Prod.fst)

/-- What is delivered to `side` comes from the other end, and from a later call than all before it; unless nothing of it
arrives anyway. -/
def InOrder (side : Side) (w : Stream) : StreamEvent → Prop
  | .send _ _ _ => True
  | .deliver dest _ origin call => dest = side → ∀ payload datagrams, (w.sent origin)[call]? = some (payload, datagrams) →
      Carried payload → origin = side.peer ∧ w.mark side ≤ call

def InOrderStep (side : Side) (w : Stream) (e : StreamEvent) (w' : Stream) : Prop :=
  StreamStep A load id w e w' ∧ InOrder side w e

/-- The datagram carries the payload on the channel. -/
def CellOf (key : AesKey) (payload data : Bytes) : Prop :=
  ∃ ci nonce, ci.channelId = id ∧ ci.anonLevel = .direct ∧ ci.myInboundGuard = none ∧ ci.channelKey = key ∧
    data = (sendCell A ci id nonce payload).toList

/-- One end: its router, and what it has sent. -/
structure EndInv (key : AesKey) (r : Router) (sent : List (Bytes × List Bytes)) : Prop where
  wf : r.Wf
  onChannel : OnChannel id key r
  cells : ∀ call ∈ sent, ∀ data ∈ call.2, CellOf A id key call.1 data

def StreamInv (key : AesKey) (w : Stream) : Prop := ∀ side, EndInv A id key (w.router side) (w.sent side)

variable {A load id} {key : AesKey} {w w' : Stream}

/-! ## One step -/

theorem mem_sentData_send {r : Router} (hwf : r.Wf) {ci : ChannelInfo} (hget : r.channels.get id = some ci)
    (hopen : ci.state = .opened) (hdirect : ci.anonLevel = .direct) {nonce : AesNonce} {payload data : Bytes}
    (h : data ∈ sentData (send A r.tunnels r.channels id nonce payload).2) :
    data = (sendCell A ci id nonce payload).toList := by
  have hguard := (hwf.noGuards id ci hget).2
  rw [send_of_opened A r.tunnels hget hopen] at h
  dsimp only at h
  unfold dispatchCell at h
  by_cases haddr : ci.peerAddr = ""
  · rw [if_neg (fun hc => hc.2 haddr), hguard] at h
    cases h
  · rw [if_pos ⟨hdirect, haddr⟩] at h
    cases ht : transportSend ci.peerAddr (sendCell A ci id nonce payload).toList with
    | error e =>
      rw [ht] at h
      cases h
    | ok out =>
      rw [ht] at h
      obtain ⟨rfl, _⟩ := transportSend_ok ht
      exact List.mem_singleton.mp h

theorem EndInv.send {r : Router} {sent : List (Bytes × List Bytes)} (hinv : EndInv A id key r sent) (nonce : AesNonce)
    (payload : Bytes) : EndInv A id key { r with channels := (AnonRouter.send A r.tunnels r.channels id nonce payload).1 }
      (sent ++ [(payload, sentData (AnonRouter.send A r.tunnels r.channels id nonce payload).2)]) := by
  obtain ⟨ci, hget, hopen, hdirect, hkey⟩ := hinv.onChannel
  refine ⟨⟨?_, hinv.wf.guards⟩, ?_, ?_⟩
  · intro id'
    have hold : Unguarded (r.channels.get id') := hinv.wf.noGuards id'
    exact hold.sent (sent_send A r.tunnels r.channels id id' nonce payload)
  · have hput := get_put_eq r.channels { ci with sendSeq := ci.sendSeq + 1 } id
    rw [if_pos (Channels.channelId_of_get hget)] at hput
    refine ⟨{ ci with sendSeq := ci.sendSeq + 1 }, ?_, hopen, hdirect, hkey⟩
    rw [send_of_opened A r.tunnels hget hopen]
    exact hput
  · intro call hcall data hdata
    rcases List.mem_append.mp hcall with hold | hnew
    · exact hinv.cells call hold data hdata
    · rw [List.mem_singleton] at hnew
      subst hnew
      exact ⟨ci, nonce, Channels.channelId_of_get hget, hdirect, (hinv.wf.noGuards id ci hget).1, hkey,
        mem_sentData_send hinv.wf hget hopen hdirect hdata⟩

theorem streamInv_send (hinv : StreamInv A id key w) (side : Side) (nonce : AesNonce) (payload : Bytes) :
    StreamInv A id key (w.send A id side nonce payload) := by
  intro s
  unfold Stream.send
  dsimp only
  by_cases hs : s = side
  · subst hs
    rw [Function.update_self, Function.update_self]
    exact (hinv s).send nonce payload
  · rw [Function.update_of_ne hs, Function.update_of_ne hs]
    exact hinv s

/-- Every datagram of the channel is a frame at every end of it. -/
theorem onDatagram_cellOf (hA : A.Correct) (hload : Loads load) {r : Router} (hwf : r.Wf) (hon : OnChannel id key r)
    {payload data : Bytes} (hcell : CellOf A id key payload data) (peerAddr : String) :
    onDatagram A load r peerAddr data = .ok (r, { frames := if Carried payload then [(id, payload)] else [] }) := by
  obtain ⟨ci', hget, hopen, hlevel, hkey'⟩ := hon
  obtain ⟨ci, nonce, hid, hdirect, hguard, hkey, rfl⟩ := hcell
  have hcell := onCell_sendCell hA hload hwf.noGuards hid hdirect hguard hget hopen (hkey'.trans hkey.symm) nonce payload
  have htype : byteAt 1 (sendCell A ci id nonce payload).toList = CellType.data.toByte := cellType_sealCell A _ _ _
  rw [onDatagram_data hwf peerAddr htype hcell]
  by_cases hc : Carried payload
  · rw [if_pos ⟨hlevel, hc⟩, if_pos hc]
  · rw [if_neg (fun h => hc h.2), if_neg hc]

theorem framesOn_cellOf (payload : Bytes) :
    framesOn id { frames := if Carried payload then [(id, payload)] else [] } = if Carried payload then [payload] else [] := by
  unfold framesOn
  by_cases hc : Carried payload
  · simp [if_pos hc]
  · simp [if_neg hc]

theorem onDatagram_sent (hA : A.Correct) (hload : Loads load) (hinv : StreamInv A id key w) (side : Side) (peerAddr : String)
    {origin : Side} {call : ℕ} {payload data : Bytes} {datagrams : List Bytes}
    (hsent : (w.sent origin)[call]? = some (payload, datagrams)) (hdata : data ∈ datagrams) :
    onDatagram A load (w.router side) peerAddr data =
      .ok (w.router side, { frames := if Carried payload then [(id, payload)] else [] }) :=
  onDatagram_cellOf hA hload (hinv side).wf (hinv side).onChannel
    ((hinv origin).cells _ (List.mem_of_getElem? hsent) data hdata) peerAddr

/-- What a step can do: a call of `send`, or a delivery that changes no router. -/
theorem streamStep_cases (hA : A.Correct) (hload : Loads load) {e : StreamEvent} (hinv : StreamInv A id key w)
    (hstep : StreamStep A load id w e w') :
    (∃ side nonce payload, e = .send side nonce payload ∧ w' = w.send A id side nonce payload) ∨
    (∃ side peerAddr origin call payload datagrams, e = .deliver side peerAddr origin call ∧
      (w.sent origin)[call]? = some (payload, datagrams) ∧ w'.router = w.router ∧ w'.sent = w.sent ∧
      w'.frames = Function.update w.frames side (w.frames side ++ if Carried payload then [payload] else []) ∧
      w'.mark = Function.update w.mark side
        (if origin = side.peer ∧ Carried payload then max (w.mark side) (call + 1) else w.mark side)) := by
  cases hstep with
  | send side nonce payload => exact Or.inl ⟨side, nonce, payload, rfl, rfl⟩
  | @deliver side origin peerAddr call payload data datagrams r out hsent hdata hstep =>
    rw [onDatagram_sent hA hload hinv side peerAddr hsent hdata] at hstep
    obtain ⟨rfl, rfl⟩ := Prod.mk.inj (Except.ok.inj hstep)
    refine Or.inr ⟨side, peerAddr, origin, call, payload, datagrams, rfl, hsent, Function.update_eq_self side w.router, rfl, ?_, rfl⟩
    unfold Stream.deliver
    rw [framesOn_cellOf]

theorem streamInv_step (hA : A.Correct) (hload : Loads load) {e : StreamEvent} (hinv : StreamInv A id key w)
    (hstep : StreamStep A load id w e w') : StreamInv A id key w' := by
  obtain ⟨side, nonce, payload, rfl, rfl⟩ | ⟨side, peerAddr, origin, call, payload, datagrams, rfl, hsent, hrouter, hcalls, _, _⟩ :=
    streamStep_cases hA hload hinv hstep
  · exact streamInv_send hinv side nonce payload
  · intro s
    rw [hrouter, hcalls]
    exact hinv s

/-! ## Whole runs -/

/-- The frames so far come from the calls before the mark. -/
def Ordered (side : Side) (w : Stream) : Prop :=
  (w.frames side).Sublist (((w.sent side.peer).take (w.mark side)).map Prod.fst)

theorem Ordered.intact {side : Side} (h : Ordered side w) : Intact side w :=
  h.trans ((List.take_sublist _ _).map Prod.fst)

theorem ordered_send {side : Side} (h : Ordered side w) (s : Side) (nonce : AesNonce) (payload : Bytes) :
    Ordered side (w.send A id s nonce payload) := by
  have hgrows : (w.sent side.peer) <+: (w.send A id s nonce payload).sent side.peer := by
    unfold Stream.send
    dsimp only
    by_cases hs : side.peer = s
    · rw [hs, Function.update_self]
      exact List.prefix_append _ _
    · rw [Function.update_of_ne hs]
  exact h.trans ((hgrows.take (w.mark side)).sublist.map Prod.fst)

theorem ordered_step (hA : A.Correct) (hload : Loads load) {side : Side} {e : StreamEvent} (hinv : StreamInv A id key w)
    (h : Ordered side w) (hstep : InOrderStep A load id side w e w') : Ordered side w' := by
  obtain ⟨hstep, horder⟩ := hstep
  obtain ⟨s, nonce, payload, rfl, rfl⟩ |
    ⟨s, peerAddr, origin, call, payload, datagrams, rfl, hsent, hrouter, hcalls, hframes, hmark⟩ :=
      streamStep_cases hA hload hinv hstep
  · exact ordered_send h s nonce payload
  unfold Ordered
  rw [hcalls, hframes, hmark]
  by_cases hs : side = s
  · subst hs
    rw [Function.update_self, Function.update_self]
    by_cases hc : Carried payload
    · obtain ⟨rfl, hlate⟩ := horder rfl payload datagrams hsent hc
      have hmax : max (w.mark side) (call + 1) = call + 1 := by omega
      -- the frame comes from the first call that is not yet counted
      have htake : (w.sent side.peer).take (call + 1) = (w.sent side.peer).take call ++ [(payload, datagrams)] := by
        rw [List.take_add_one, hsent]
        rfl
      have hearlier : ((w.sent side.peer).take (w.mark side)).Sublist ((w.sent side.peer).take call) :=
        (List.take_prefix_take_left hlate).sublist
      rw [if_pos hc, if_pos ⟨rfl, hc⟩, hmax, htake, List.map_append]
      exact (h.trans (hearlier.map Prod.fst)).append (List.Sublist.refl _)
    · rw [if_neg hc, if_neg (fun hboth => hc hboth.2), List.append_nil]
      exact h
  · rw [Function.update_of_ne hs, Function.update_of_ne hs]
    exact h

theorem streamInv_start {router : Side → Router} (hreach : ∀ side, Reachable (Steps A load) Router.initial (router side))
    (hon : ∀ side, OnChannel id key (router side)) : StreamInv A id key (Stream.start router) :=
  fun side => ⟨Router.wf_of_reachable (hreach side), hon side, fun _ h => nomatch h⟩

/-- As long as what comes to one end comes in order, its frames are a subsequence of what the other sent. -/
theorem frames_intact_of_inOrder (hA : A.Correct) (hload : Loads load) {router : Side → Router}
    (hreach : ∀ side, Reachable (Steps A load) Router.initial (router side)) (hon : ∀ side, OnChannel id key (router side))
    {side : Side} (h : Reachable (InOrderStep A load id side) (Stream.start router) w) : Intact side w := by
  have hboth : StreamInv A id key w ∧ Ordered side w := by
    refine h.invariant (fun w => StreamInv A id key w ∧ Ordered side w) ?_ ?_
    · exact ⟨streamInv_start hreach hon, List.Sublist.slnil⟩
    · rintro w e w' ⟨hinv, hordered⟩ hstep
      exact ⟨streamInv_step hA hload hinv hstep.1, ordered_step hA hload hinv hordered hstep⟩
  exact hboth.2.intact

variable (A load) in
def StreamIntegrity : Prop :=
  ∀ (id : MessageId) (key : AesKey) (router : Side → Router),
    (∀ side, Reachable (Steps A load) Router.initial (router side)) → (∀ side, OnChannel id key (router side)) →
    ∀ (side : Side) (w : Stream), Reachable (StreamStep A load id) (Stream.start router) w → Intact side w

/-! ## One payload, delivered once and twice -/

theorem exists_deliver (hA : A.Correct) (hload : Loads load) (hinv : StreamInv A id key w) (side : Side) (peerAddr : String)
    {origin : Side} {call : ℕ} {payload data : Bytes} {datagrams : List Bytes}
    (hsent : (w.sent origin)[call]? = some (payload, datagrams)) (hdata : data ∈ datagrams) (hc : Carried payload) :
    ∃ w', StreamStep A load id w (.deliver side peerAddr origin call) w' ∧ w'.sent = w.sent ∧
      w'.frames side = w.frames side ++ [payload] := by
  refine ⟨_, StreamStep.deliver hsent hdata (onDatagram_sent hA hload hinv side peerAddr hsent hdata), rfl, ?_⟩
  unfold Stream.deliver
  dsimp only
  rw [Function.update_self, framesOn_cellOf, if_pos hc]

/-- Two routers after a handshake. -/
theorem exists_ends (hA : A.Correct) (hload : Loads load) (id : MessageId) (key : AesKey) : ∃ router : Side → Router,
    (∀ side, Reachable (Steps A load) Router.initial (router side)) ∧ (∀ side, OnChannel id key (router side)) ∧
      (router .acceptor).channels.get id = some (openInfo id key "10.0.0.1:9000") := by
  obtain ⟨a, ha, hgeta⟩ := reachable_initiator hA hload id (fit 32 []) key "10.0.0.2:9000" "10.0.0.2:9000"
  obtain ⟨b, hb, hgetb⟩ := reachable_acceptor hA hload id key "10.0.0.1:9000"
  refine ⟨fun | .initiator => a | .acceptor => b, ?_, ?_, hgetb⟩
  · intro side
    cases side with
    | initiator => exact ha
    | acceptor => exact hb
  · intro side
    cases side with
    | initiator => exact ⟨_, hgeta, rfl, rfl, rfl⟩
    | acceptor => exact ⟨_, hgetb, rfl, rfl, rfl⟩

theorem sent_send_start (A : Aes) {router : Side → Router}
    (hget : (router .acceptor).channels.get id = some (openInfo id key "10.0.0.1:9000")) (nonce : AesNonce) (payload : Bytes) :
    ∃ data, ((Stream.start router).send A id .acceptor nonce payload).sent .acceptor = [(payload, [data])] := by
  have hparse : parseAddr "10.0.0.1:9000" = .ok ("10.0.0.1", 9000) := rfl
  have haddr : "10.0.0.1:9000" ≠ "" := by decide
  have hsend := send_direct_ok (A := A) (t := (router .acceptor).tunnels) hget rfl rfl haddr hparse nonce payload
  refine ⟨(sendCell A (openInfo id key "10.0.0.1:9000") id nonce payload).toList, ?_⟩
  unfold Stream.send Stream.start
  dsimp only
  rw [Function.update_self, hsend]
  rfl

/-- The datagram of one call is delivered to the other end. -/
theorem exists_once (hA : A.Correct) (hload : Loads load) {router : Side → Router}
    (hreach : ∀ side, Reachable (Steps A load) Router.initial (router side)) (hon : ∀ side, OnChannel id key (router side))
    (hget : (router .acceptor).channels.get id = some (openInfo id key "10.0.0.1:9000")) {payload : Bytes} (hc : Carried payload) :
    ∃ w, Reachable (InOrderStep A load id .initiator) (Stream.start router) w ∧ w.frames .initiator = [payload] ∧
      ∃ data, w.sent .acceptor = [(payload, [data])] := by
  obtain ⟨data, hsent⟩ := sent_send_start A hget (fit 12 []) payload
  have hfirst : InOrderStep A load id .initiator (Stream.start router) (.send .acceptor (fit 12 []) payload)
      ((Stream.start router).send A id .acceptor (fit 12 []) payload) := ⟨StreamStep.send _ _ _, trivial⟩
  have hinv := streamInv_send (streamInv_start hreach hon) .acceptor (fit 12 []) payload
  have hcall : (((Stream.start router).send A id .acceptor (fit 12 []) payload).sent .acceptor)[0]? = some (payload, [data]) := by
    rw [hsent]
    rfl
  obtain ⟨w, hstep, hcalls, hframes⟩ := exists_deliver hA hload hinv .initiator "10.0.0.2:9000" hcall List.mem_cons_self hc
  refine ⟨w, ((Reachable.refl _ _).tail hfirst).tail ⟨hstep, ?_⟩, hframes, data, ?_⟩
  · rintro _ payload' datagrams' _ _
    exact ⟨rfl, Nat.le_refl _⟩
  · rw [hcalls, hsent]

/-- And once more. -/
theorem not_streamIntegrity (hA : A.Correct) (hload : Loads load) (id : MessageId) (key : AesKey) : ¬StreamIntegrity A load := by
  intro h
  obtain ⟨router, hreach, hon, hget⟩ := exists_ends hA hload id key
  have hc : Carried [42] := by decide
  obtain ⟨w, hw, hframes, data, hsent⟩ := exists_once hA hload hreach hon hget hc
  have hrun : Reachable (StreamStep A load id) (Stream.start router) w := hw.mono (fun _ _ _ hstep => hstep.1)
  have hinv : StreamInv A id key w :=
    hrun.invariant (StreamInv A id key) (streamInv_start hreach hon) (fun _ _ _ hi hs => streamInv_step hA hload hi hs)
  have hcall : (w.sent .acceptor)[0]? = some ([42], [data]) := by
    rw [hsent]
    rfl
  obtain ⟨w', hstep, hcalls, hframes'⟩ := exists_deliver hA hload hinv .initiator "10.0.0.2:9000" hcall List.mem_cons_self hc
  have hlen : (w'.frames .initiator).length ≤ ((w'.sent .acceptor).map Prod.fst).length :=
    (h id key router hreach hon .initiator w' (hrun.tail hstep)).length_le
  rw [hframes', hframes, hcalls, hsent] at hlen
  simp at hlen

end Steps

theorem frames_intact_of_inOrder_once :
    ∃ router w, Reachable (InOrderStep checksumAes load (fit 16 [7]) .initiator) (Stream.start router) w ∧
      w.frames .initiator = [[42]] ∧ Intact .initiator w := by
  obtain ⟨router, hreach, hon, hget⟩ := exists_ends checksumAes_correct load_loads (fit 16 [7]) (fit 32 [1])
  have hc : Carried [42] := by decide
  obtain ⟨w, hw, hframes, _⟩ := exists_once checksumAes_correct load_loads hreach hon hget hc
  exact ⟨router, w, hw, hframes, frames_intact_of_inOrder checksumAes_correct load_loads hreach hon hw⟩

theorem not_streamIntegrity_checksum : ¬StreamIntegrity checksumAes load :=
  not_streamIntegrity checksumAes_correct load_loads (fit 16 [7]) (fit 32 [1])

end ScatterWeb.AnonRouter
