import ScatterWeb.AnonRouter.Handshake

/-! # Agreement on the channel key

An initiator, an acceptor, and a network between them that may lose, repeat and reorder cells. Each
successful `channel.accept` draws a new key, and each `CHAN_ACCEPT` cell that arrives overwrites the initiator's key;
there is nothing in the cells to tell an old one from a new one. So the ends agree as long as the acceptor does not
accept again when the initiator is already open, and no `CHAN_ACCEPT` cell of an earlier call
arrives while the acceptor is open; the first step that is not of this kind ends the agreement. -/
namespace ScatterWeb.AnonRouter
open Crypto Lib Lib.Cbor
set_option autoImplicit false

/-! ## Two routers and a network -/

/-- The routers, and every cell that was ever sent to each of them. -/
structure World where
  initiator : Router
  acceptor : Router
  toInitiator : List Bytes
  toAcceptor : List Bytes
  /-- History: the keys that successful calls of `channel.accept` have drawn, the latest first. -/
  drawn : List AesKey

def World.start (a b : Router) : World := ⟨a, b, [], [], []⟩

inductive NetEvent
  | channelOpen (remotePubkey : String) (anonLevel : Option UInt64) (mode peerAddr : Option String) (tmp : AesKey)
  | channelAccept (newKey : AesKey)
  | toInitiator (data : Bytes)
  | toAcceptor (data : Bytes)

def sentTo (addr : String) (out : Output) : List Bytes := (out.sent.filter (fun d => decide (d.addr = addr))).map Datagram.data

section Networks
variable (A : Aes) (load : Bytes → Option Item) (addrA addrB : String) (id : MessageId)

/-- One step. A delivered cell stays in the network, since it may be delivered again; a lost one is never delivered. -/
inductive NetStep : World → NetEvent → World → Prop
  /-- `channel.open` at the initiator draws this id, which is new. -/
  | channelOpen {w : World} (remotePubkey : String) (anonLevel : Option UInt64) (mode peerAddr : Option String) (tmp : AesKey)
      (hnew : w.initiator.channels.get id = none) :
      NetStep w (.channelOpen remotePubkey anonLevel mode peerAddr tmp)
        { w with
          initiator := (dispatchIpc A w.initiator (.channelOpen remotePubkey anonLevel mode peerAddr id tmp)).1
          toAcceptor :=
            sentTo addrB (dispatchIpc A w.initiator (.channelOpen remotePubkey anonLevel mode peerAddr id tmp)).2.1 ++ w.toAcceptor }
  | channelAccept {w : World} (newKey : AesKey) :
      NetStep w (.channelAccept newKey)
        { w with
          acceptor := (dispatchIpc A w.acceptor (.channelAccept id newKey)).1
          toInitiator := sentTo addrA (dispatchIpc A w.acceptor (.channelAccept id newKey)).2.1 ++ w.toInitiator
          drawn := if (w.acceptor.channels.get id).isSome then newKey :: w.drawn else w.drawn }
  | toInitiator {w : World} {data : Bytes} {a : Router} {out : Output} (hsent : data ∈ w.toInitiator)
      (hrecv : onDatagram A load w.initiator addrB data = .ok (a, out)) :
      NetStep w (.toInitiator data) { w with initiator := a, toAcceptor := sentTo addrB out ++ w.toAcceptor }
  | toAcceptor {w : World} {data : Bytes} {b : Router} {out : Output} (hsent : data ∈ w.toAcceptor)
      (hrecv : onDatagram A load w.acceptor addrA data = .ok (b, out)) :
      NetStep w (.toAcceptor data) { w with acceptor := b, toInitiator := sentTo addrA out ++ w.toInitiator }

def HasOpen (r : Router) : Prop := ∃ ci, r.channels.get id = some ci ∧ ci.state = .opened

/-- When both ends have the channel open, they have the same key. -/
def Agreement (w : World) : Prop :=
  ∀ ca cb, w.initiator.channels.get id = some ca → w.acceptor.channels.get id = some cb → ca.state = .opened →
    cb.state = .opened → ca.channelKey = cb.channelKey

/-- The acceptor does not accept once the initiator is open, and while the acceptor is open the initiator gets no
`CHAN_ACCEPT` cell but that of the latest acceptance. -/
def Timely (w : World) : NetEvent → Prop
  | .channelAccept _ => (w.acceptor.channels.get id).isSome → ¬HasOpen id w.initiator
  | .toInitiator data =>
    HasOpen id w.acceptor → ∀ key, handshakeOf A load data = some (.chanAccept id key) → w.drawn.head? = some key
  | _ => True

def TimelyStep (w : World) (e : NetEvent) (w' : World) : Prop :=
  Timely A load id w e ∧ NetStep A load addrA addrB id w e w'

/-- The invariant of every run. -/
structure NetInv (w : World) : Prop where
  toAcceptor : ∀ data ∈ w.toAcceptor, ∃ anon mode, data = (chanOpenCell A id anon mode).toList
  toInitiator : ∀ data ∈ w.toInitiator, ∃ key ∈ w.drawn, data = (chanAcceptCell A id key).toList
  /-- An open acceptor has the key that was drawn last. -/
  acceptor : ∀ cb, w.acceptor.channels.get id = some cb → cb.state = .opened → w.drawn.head? = some cb.channelKey
  initiator : ∀ ca, w.initiator.channels.get id = some ca → ca.state = .opened → ca.channelKey ∈ w.drawn
  /-- Nothing happens before `channel.open`. -/
  unopened : w.initiator.channels.get id = none →
    w.toAcceptor = [] ∧ w.toInitiator = [] ∧ w.acceptor.channels.get id = none

variable {A load addrA addrB id}

theorem mem_sentTo {addr : String} {out : Output} {data : Bytes} (h : data ∈ sentTo addr out) :
    ∃ d ∈ out.sent, d.data = data := by
  obtain ⟨d, hd, rfl⟩ := List.mem_map.mp h
  exact ⟨d, (List.mem_filter.mp hd).1, rfl⟩

theorem sentTo_nil {out : Output} (h : out.sent = []) (addr : String) : sentTo addr out = [] := by
  unfold sentTo
  rw [h]
  rfl

/-! ## What the steps do to the channel -/

theorem entry_chanOpenCell (hA : A.Correct) (hload : Loads load) {r r' : Router} {out : Output} {peerAddr : String}
    {anon : AnonLevel} {mode : ChannelMode}
    (h : onDatagram A load r peerAddr (chanOpenCell A id anon mode).toList = .ok (r', out)) :
    (∃ ci, r'.channels.get id = some ci ∧ ci.state = .opening) ∧ out.sent = [] := by
  have hhk := handshakeOf_chanOpenCell hA hload id anon mode
  refine ⟨?_, (onDatagram_handshake_output hhk h).2⟩
  rw [onDatagram_entry h, afterDatagram_chanOpenCell hA hload]
  exact ⟨_, rfl, rfl⟩

theorem entry_chanAcceptCell (hA : A.Correct) (hload : Loads load) {r r' : Router} {out : Output} {peerAddr : String}
    {key : AesKey} (h : onDatagram A load r peerAddr (chanAcceptCell A id key).toList = .ok (r', out)) :
    r'.channels.get id = (r.channels.get id).map (fun ci => { ci with channelKey := key, state := .opened }) ∧
      out.sent = [] := by
  have hhk := handshakeOf_chanAcceptCell hA hload id key
  refine ⟨?_, (onDatagram_handshake_output hhk h).2⟩
  rw [onDatagram_entry h, afterDatagram_chanAcceptCell hA hload]

/-! ## The invariant -/

theorem netInv_start (A : Aes) {a b : Router} (ha : a.channels.get id = none) (hb : b.channels.get id = none) :
    NetInv A id (World.start a b) where
  toAcceptor := fun _ h => nomatch h
  toInitiator := fun _ h => nomatch h
  acceptor := by
    intro cb hcb
    rw [show b.channels.get id = some cb from hcb] at hb
    cases hb
  initiator := by
    intro ca hca
    rw [show a.channels.get id = some ca from hca] at ha
    cases ha
  unopened := fun _ => ⟨rfl, rfl, hb⟩

variable {w : World} {a b : Router} {sent : List Bytes}

/-- The initiator has opened the channel. -/
theorem NetInv.opening (h : NetInv A id w) {ci : ChannelInfo} (hci : a.channels.get id = some ci) (hstate : ci.state = .opening)
    (hsent : ∀ data ∈ sent, ∃ anon mode, data = (chanOpenCell A id anon mode).toList) :
    NetInv A id { w with initiator := a, toAcceptor := sent ++ w.toAcceptor } where
  toAcceptor := by
    intro data hdata
    rcases List.mem_append.mp hdata with hnew | hold
    · exact hsent data hnew
    · exact h.toAcceptor data hold
  toInitiator := h.toInitiator
  acceptor := h.acceptor
  initiator := by
    intro ca hca hopen
    obtain rfl := Option.some.inj (hci.symm.trans hca)
    rw [hstate] at hopen
    cases hopen
  unopened := by
    intro hnone
    rw [show a.channels.get id = none from hnone] at hci
    cases hci

/-- The acceptor has accepted with the key `newKey`. -/
theorem NetInv.accepting (h : NetInv A id w) {ci cb : ChannelInfo} {newKey : AesKey} (hacc : w.acceptor.channels.get id = some ci)
    (hcb : b.channels.get id = some cb) (hkey : cb.channelKey = newKey) (hsent : ∀ data ∈ sent, data = (chanAcceptCell A id newKey).toList) :
    NetInv A id { w with acceptor := b, toInitiator := sent ++ w.toInitiator, drawn := newKey :: w.drawn } where
  toAcceptor := h.toAcceptor
  toInitiator := by
    intro data hdata
    rcases List.mem_append.mp hdata with hnew | hold
    · exact ⟨newKey, List.mem_cons_self, hsent data hnew⟩
    · obtain ⟨key, hdrawn, heq⟩ := h.toInitiator data hold
      exact ⟨key, List.mem_cons_of_mem _ hdrawn, heq⟩
  acceptor := by
    intro cb' hcb' _
    obtain rfl := Option.some.inj (hcb.symm.trans hcb')
    rw [← hkey]
    rfl
  initiator := by
    intro ca hca hopen
    exact List.mem_cons_of_mem _ (h.initiator ca hca hopen)
  unopened := by
    intro hnone
    rw [(h.unopened hnone).2.2] at hacc
    cases hacc

/-- The acceptor does not know the channel. -/
theorem NetInv.unknown (h : NetInv A id w) (hb : b.channels.get id = none) : NetInv A id { w with acceptor := b } where
  toAcceptor := h.toAcceptor
  toInitiator := h.toInitiator
  acceptor := by
    intro cb hcb
    rw [show b.channels.get id = some cb from hcb] at hb
    cases hb
  initiator := h.initiator
  unopened := by
    intro hnone
    exact ⟨(h.unopened hnone).1, (h.unopened hnone).2.1, hb⟩

/-- The initiator has taken over a key that was drawn. -/
theorem NetInv.accepted (h : NetInv A id w) {key : AesKey} (hkey : key ∈ w.drawn)
    (hentry : a.channels.get id = (w.initiator.channels.get id).map (fun ci => { ci with channelKey := key, state := .opened })) :
    NetInv A id { w with initiator := a } where
  toAcceptor := h.toAcceptor
  toInitiator := h.toInitiator
  acceptor := h.acceptor
  initiator := by
    intro ca hca _
    rw [show a.channels.get id = some ca from hca] at hentry
    obtain ⟨ci, _, rfl⟩ := Option.map_eq_some_iff.mp hentry.symm
    exact hkey
  unopened := by
    intro hnone
    rw [show a.channels.get id = none from hnone] at hentry
    exact h.unopened (Option.map_eq_none_iff.mp hentry.symm)

/-- The acceptor has got a `CHAN_OPEN` cell. -/
theorem NetInv.opened (h : NetInv A id w) {ci : ChannelInfo} {data : Bytes} (hdata : data ∈ w.toAcceptor) (hci : b.channels.get id = some ci)
    (hstate : ci.state = .opening) : NetInv A id { w with acceptor := b } where
  toAcceptor := h.toAcceptor
  toInitiator := h.toInitiator
  acceptor := by
    intro cb hcb hopen
    obtain rfl := Option.some.inj (hci.symm.trans hcb)
    rw [hstate] at hopen
    cases hopen
  initiator := h.initiator
  unopened := by
    intro hnone
    rw [(h.unopened hnone).1] at hdata
    cases hdata

theorem sentTo_channelOpen {remotePubkey : String} {anonLevel : Option UInt64} {mode peerAddr : Option String} {tmp : AesKey} {addr : String}
    {data : Bytes} (h : data ∈ sentTo addr (dispatchIpc A a (.channelOpen remotePubkey anonLevel mode peerAddr id tmp)).2.1) :
    ∃ anon mode, data = (chanOpenCell A id anon mode).toList := by
  obtain ⟨d, hd, rfl⟩ := mem_sentTo h
  obtain ⟨_, _, _, _, rfl⟩ := mem_sent_channelOpen hd
  exact ⟨_, _, rfl⟩

theorem sentTo_channelAccept {newKey : AesKey} {addr : String} {data : Bytes}
    (h : data ∈ sentTo addr (dispatchIpc A b (.channelAccept id newKey)).2.1) :
    data = (chanAcceptCell A id newKey).toList ∧ (b.channels.get id).isSome := by
  obtain ⟨d, hd, rfl⟩ := mem_sentTo h
  obtain ⟨ci, _, hci, _, _, rfl⟩ := mem_sent_channelAccept hd
  rw [hci]
  exact ⟨rfl, rfl⟩

theorem NetInv.channelAccept (h : NetInv A id w) (newKey : AesKey) (addr : String) :
    NetInv A id { w with
      acceptor := (dispatchIpc A w.acceptor (.channelAccept id newKey)).1
      toInitiator := sentTo addr (dispatchIpc A w.acceptor (.channelAccept id newKey)).2.1 ++ w.toInitiator
      drawn := if (w.acceptor.channels.get id).isSome then newKey :: w.drawn else w.drawn } := by
  have hentry := entry_channelAccept A w.acceptor id newKey
  cases hacc : w.acceptor.channels.get id with
  | none =>
    have hsent : sentTo addr (dispatchIpc A w.acceptor (.channelAccept id newKey)).2.1 = [] := by
      rw [List.eq_nil_iff_forall_not_mem]
      intro data hdata
      have hsome := (sentTo_channelAccept hdata).2
      rw [hacc] at hsome
      cases hsome
    rw [hacc] at hentry
    rw [hsent]
    exact h.unknown hentry
  | some ci =>
    rw [hacc] at hentry
    exact h.accepting hacc hentry rfl (fun data hdata => (sentTo_channelAccept hdata).1)

theorem NetInv.step (hA : A.Correct) (hload : Loads load) {w' : World} {e : NetEvent} (h : NetInv A id w)
    (hs : NetStep A load addrA addrB id w e w') : NetInv A id w' := by
  cases hs with
  | channelOpen remotePubkey anonLevel mode peerAddr tmp hnew =>
    have hci := entry_channelOpen A w.initiator remotePubkey anonLevel mode peerAddr id tmp
    exact h.opening hci rfl (fun data hdata => sentTo_channelOpen hdata)
  | channelAccept newKey => exact h.channelAccept newKey addrA
  | toInitiator hsent hrecv =>
    obtain ⟨key, hkey, rfl⟩ := h.toInitiator _ hsent
    obtain ⟨hentry, hout⟩ := entry_chanAcceptCell hA hload hrecv
    rw [sentTo_nil hout]
    exact h.accepted hkey hentry
  | toAcceptor hsent hrecv =>
    obtain ⟨anon, mode, rfl⟩ := h.toAcceptor _ hsent
    obtain ⟨⟨ci, hci, hstate⟩, hout⟩ := entry_chanOpenCell hA hload hrecv
    rw [sentTo_nil hout]
    exact h.opened hsent hci hstate

/-! ## Agreement -/

theorem agreement_of_timely (hA : A.Correct) (hload : Loads load) {w w' : World} {e : NetEvent} (hinv : NetInv A id w)
    (ht : Timely A load id w e) (hs : NetStep A load addrA addrB id w e w') : Agreement id w' := by
  intro ca cb hca hcb hopenA hopenB
  cases hs with
  | channelOpen remotePubkey anonLevel mode peerAddr tmp hnew =>
    have hci := entry_channelOpen A w.initiator remotePubkey anonLevel mode peerAddr id tmp
    obtain rfl := Option.some.inj (hci.symm.trans hca)
    cases hopenA
  | channelAccept newKey =>
    have hentry := entry_channelAccept A w.acceptor id newKey
    rw [show _ = some cb from hcb] at hentry
    obtain ⟨ci, hci, _⟩ := Option.map_eq_some_iff.mp hentry.symm
    refine absurd ⟨ca, hca, hopenA⟩ (ht ?_)
    rw [hci]
    rfl
  | toInitiator hsent hrecv =>
    obtain ⟨key, _, rfl⟩ := hinv.toInitiator _ hsent
    have hentry := (entry_chanAcceptCell hA hload hrecv).1
    rw [show _ = some ca from hca] at hentry
    obtain ⟨ci, _, rfl⟩ := Option.map_eq_some_iff.mp hentry.symm
    have hlatest := ht ⟨cb, hcb, hopenB⟩ key (handshakeOf_chanAcceptCell hA hload id key)
    rw [hinv.acceptor cb hcb hopenB] at hlatest
    exact (Option.some.inj hlatest).symm
  | toAcceptor hsent hrecv =>
    obtain ⟨anon, mode, rfl⟩ := hinv.toAcceptor _ hsent
    obtain ⟨⟨ci, hci, hstate⟩, _⟩ := entry_chanOpenCell hA hload hrecv
    obtain rfl := Option.some.inj (hci.symm.trans hcb)
    rw [hstate] at hopenB
    cases hopenB

theorem not_agreement_of_not_timely (hA : A.Correct) (hload : Loads load) {w w' : World} {e : NetEvent}
    (hinv : NetInv A id w) (hfresh : ∀ key, e = .channelAccept key → key ∉ w.drawn) (ht : ¬Timely A load id w e)
    (hs : NetStep A load addrA addrB id w e w') : ¬Agreement id w' := by
  intro hagree
  cases hs with
  | channelOpen remotePubkey anonLevel mode peerAddr tmp hnew => exact ht trivial
  | channelAccept newKey =>
    obtain ⟨hsome, hopen⟩ := Classical.not_imp.mp ht
    obtain ⟨ca, hca, hopenA⟩ := not_not.mp hopen
    obtain ⟨ci, hci⟩ := Option.isSome_iff_exists.mp hsome
    have hentry := entry_channelAccept A w.acceptor id newKey
    rw [hci, Option.map_some] at hentry
    have hkey : ca.channelKey = newKey := hagree ca _ hca hentry hopenA rfl
    have hdrawn := hinv.initiator ca hca hopenA
    rw [hkey] at hdrawn
    exact hfresh newKey rfl hdrawn
  | toInitiator hsent hrecv =>
    obtain ⟨key, _, rfl⟩ := hinv.toInitiator _ hsent
    obtain ⟨⟨cb, hcb, hopenB⟩, hlate⟩ := Classical.not_imp.mp ht
    refine hlate ?_
    intro key' hkey'
    rw [handshakeOf_chanAcceptCell hA hload] at hkey'
    cases hkey'
    have hentry := (entry_chanAcceptCell hA hload hrecv).1
    cases hca : w.initiator.channels.get id with
    | none =>
      rw [(hinv.unopened hca).2.1] at hsent
      cases hsent
    | some ci =>
      rw [hca, Option.map_some] at hentry
      have hkey : key = cb.channelKey := hagree _ cb hentry hcb rfl hopenB
      rw [hkey]
      exact hinv.acceptor cb hcb hopenB
  | toAcceptor hsent hrecv => exact ht trivial

/-- In every run whose steps are timely the ends agree in every state. In any run at all they agree after a step exactly
when the step is timely, provided that keys are not drawn twice. -/
theorem channel_keys_agree (hA : A.Correct) (hload : Loads load) {a b : Router} (ha : a.channels.get id = none)
    (hb : b.channels.get id = none) :
    (∀ w, Reachable (TimelyStep A load addrA addrB id) (World.start a b) w → Agreement id w) ∧
    (∀ w e w', Reachable (NetStep A load addrA addrB id) (World.start a b) w → NetStep A load addrA addrB id w e w' →
      (∀ key, e = .channelAccept key → key ∉ w.drawn) → (Agreement id w' ↔ Timely A load id w e)) := by
  have hinv0 := netInv_start A ha hb
  constructor
  · intro w hw
    have hagree0 : Agreement id (World.start a b) := by
      intro ca cb hca
      rw [show a.channels.get id = some ca from hca] at ha
      cases ha
    refine (hw.invariant (fun w => NetInv A id w ∧ Agreement id w) ⟨hinv0, hagree0⟩ ?_).2
    rintro w e w' ⟨hinv, _⟩ ⟨ht, hs⟩
    exact ⟨hinv.step hA hload hs, agreement_of_timely hA hload hinv ht hs⟩
  · intro w e w' hw hs hfresh
    have hinv : NetInv A id w := hw.invariant (NetInv A id) hinv0 (fun _ _ _ h hs => h.step hA hload hs)
    constructor
    · intro hagree
      by_contra ht
      exact not_agreement_of_not_timely hA hload hinv hfresh ht hs hagree
    · intro ht
      exact agreement_of_timely hA hload hinv ht hs

def KeyAgreement (A : Aes) (load : Bytes → Option Item) : Prop :=
  ∀ (addrA addrB : String) (id : MessageId) (a b : Router), a.channels.get id = none → b.channels.get id = none →
    ∀ w, Reachable (NetStep A load addrA addrB id) (World.start a b) w → Agreement id w

theorem reachable_handshake (hA : A.Correct) (hload : Loads load) (id : MessageId) (key : AesKey) :
    ∃ w, Reachable (TimelyStep A load "10.0.0.1:9000" "10.0.0.2:9000" id) (World.start Router.initial Router.initial) w ∧
      (∃ ca, w.initiator.channels.get id = some ca ∧ ca.state = .opened ∧ ca.channelKey = key) ∧
      ∃ cb, w.acceptor.channels.get id = some cb ∧ cb.state = .opened ∧ cb.channelKey = key := by
  obtain ⟨b₁, out₁, a₂, out₂, hsent₁, hrecv₁, hb₁, hsent₃, hrecv₂, ha₂⟩ := handshake_inOrder hA hload id key
  have ha₁ := entry_channelOpen A Router.initial "" (some 0) none (some "10.0.0.2:9000") id (fit 32 [])
  unfold openCall at hsent₁ hrecv₂
  -- `channel.open`; what it does is known by now, and is not to be unfolded again
  have hopen : TimelyStep A load "10.0.0.1:9000" "10.0.0.2:9000" id (World.start Router.initial Router.initial)
      (.channelOpen "" (some 0) none (some "10.0.0.2:9000") (fit 32 [])) _ :=
    ⟨trivial, .channelOpen "" (some 0) none (some "10.0.0.2:9000") (fit 32 []) rfl⟩
  simp only [World.start] at hopen
  generalize dispatchIpc A Router.initial (.channelOpen "" (some 0) none (some "10.0.0.2:9000") id (fit 32 [])) = opening
    at hsent₁ hrecv₂ ha₁ hopen
  let w₁ : World := ⟨opening.1, Router.initial, [], sentTo "10.0.0.2:9000" opening.2.1 ++ [], []⟩
  have hstep₁ : TimelyStep A load "10.0.0.1:9000" "10.0.0.2:9000" id (World.start Router.initial Router.initial)
      (.channelOpen "" (some 0) none (some "10.0.0.2:9000") (fit 32 [])) w₁ := hopen
  -- its cell arrives
  have hmem₁ : (chanOpenCell A id .direct .message).toList ∈ w₁.toAcceptor := by
    change _ ∈ sentTo "10.0.0.2:9000" opening.2.1 ++ []
    rw [sentTo, hsent₁]
    exact List.mem_cons_self ..
  let w₂ : World := ⟨opening.1, b₁, sentTo "10.0.0.1:9000" out₁ ++ [], w₁.toAcceptor, []⟩
  have hstep₂ : TimelyStep A load "10.0.0.1:9000" "10.0.0.2:9000" id w₁
      (.toAcceptor (chanOpenCell A id .direct .message).toList) w₂ := ⟨trivial, .toAcceptor hmem₁ hrecv₁⟩
  -- `channel.accept`
  let accepting := dispatchIpc A b₁ (.channelAccept id key)
  let w₃ : World := ⟨opening.1, accepting.1, sentTo "10.0.0.1:9000" accepting.2.1 ++ w₂.toInitiator, w₁.toAcceptor,
    if (b₁.channels.get id).isSome then [key] else []⟩
  have hstep₃ : TimelyStep A load "10.0.0.1:9000" "10.0.0.2:9000" id w₂ (.channelAccept key) w₃ := by
    refine ⟨?_, .channelAccept key⟩
    rintro _ ⟨ci, hci, hopen⟩
    obtain rfl := Option.some.inj (ha₁.symm.trans hci)
    cases hopen
  have hb₂ := entry_channelAccept A b₁ id key
  rw [hb₁, Option.map_some] at hb₂
  -- its cell arrives
  have hmem₃ : (chanAcceptCell A id key).toList ∈ w₃.toInitiator := by
    change _ ∈ sentTo "10.0.0.1:9000" accepting.2.1 ++ w₂.toInitiator
    rw [sentTo, hsent₃]
    exact List.mem_cons_self ..
  let w₄ : World := { w₃ with initiator := a₂, toAcceptor := sentTo "10.0.0.2:9000" out₂ ++ w₁.toAcceptor }
  have hstep₄ : TimelyStep A load "10.0.0.1:9000" "10.0.0.2:9000" id w₃
      (.toInitiator (chanAcceptCell A id key).toList) w₄ := by
    refine ⟨?_, .toInitiator hmem₃ hrecv₂⟩
    intro _ key' hkey'
    rw [handshakeOf_chanAcceptCell hA hload] at hkey'
    cases hkey'
    change (if (b₁.channels.get id).isSome then [key] else []).head? = some key
    rw [hb₁]
    rfl
  exact ⟨w₄, ((((Reachable.refl _ _).tail hstep₁).tail hstep₂).tail hstep₃).tail hstep₄, ⟨_, ha₂, rfl, rfl⟩, ⟨_, hb₂, rfl, rfl⟩⟩

/-- A second `channel.accept`, whose `CHAN_ACCEPT` cell is still on its way. -/
theorem not_keyAgreement (hA : A.Correct) (hload : Loads load) (id : MessageId) {key key' : AesKey} (hne : key ≠ key') :
    ¬KeyAgreement A load := by
  intro h
  obtain ⟨w, hw, ⟨ca, hca, hopenA, hkeyA⟩, ⟨cb, hcb, _, _⟩⟩ := reachable_handshake hA hload id key
  have hw' := (hw.mono (fun _ _ _ hs => hs.2)).tail (NetStep.channelAccept key')
  have hentry := entry_channelAccept A w.acceptor id key'
  rw [hcb, Option.map_some] at hentry
  have hkey : ca.channelKey = key' := h _ _ id _ _ rfl rfl _ hw' ca _ hca hentry hopenA rfl
  exact hne (hkeyA.symm.trans hkey)

end Networks

theorem channel_keys_agree_inOrder :
    ∃ w, Reachable (TimelyStep checksumAes load "10.0.0.1:9000" "10.0.0.2:9000" (fit 16 [7]))
        (World.start Router.initial Router.initial) w ∧
      HasOpen (fit 16 [7]) w.initiator ∧ HasOpen (fit 16 [7]) w.acceptor ∧ Agreement (fit 16 [7]) w := by
  obtain ⟨w, hw, ⟨ca, hca, hopenA, _⟩, ⟨cb, hcb, hopenB, _⟩⟩ :=
    reachable_handshake checksumAes_correct load_loads (fit 16 [7]) (fit 32 [1])
  exact ⟨w, hw, ⟨ca, hca, hopenA⟩, ⟨cb, hcb, hopenB⟩,
    (channel_keys_agree checksumAes_correct load_loads rfl rfl).1 w hw⟩

theorem not_keyAgreement_checksum : ¬KeyAgreement checksumAes load :=
  not_keyAgreement checksumAes_correct load_loads (fit 16 [7]) (show fit 32 [1] ≠ fit 32 [2] by decide)

end ScatterWeb.AnonRouter
