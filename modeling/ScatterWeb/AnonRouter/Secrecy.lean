import ScatterWeb.AnonRouter.Handshake

/-! # What the handshake tells an observer

Handshake cells are encrypted under a key of zeros; the source calls them not secret. The `CHAN_ACCEPT` cell carries the channel
key, so whoever sees it on the wire can read the key as the initiator does. -/
namespace ScatterWeb.AnonRouter
open Crypto Lib Lib.Cbor
set_option autoImplicit false

section Observer
variable (A : Aes) (load : Bytes → Option Item)

/-- The key of a `CHAN_ACCEPT` cell. Nothing but the public handshake key is used. -/
def acceptedKey (data : Bytes) : Option AesKey :=
  match handshakeOf A load data with
  | some (.chanAccept _ channelKey) => some channelKey
  | _ => none

def eavesdrop (datagrams : List Bytes) : Option AesKey := datagrams.findSome? (acceptedKey A load)

/-- What is seen of a handshake on channel `id`, for which the acceptor drew `key`: the datagrams of `send_chan_open`
and `send_chan_accept`, in any order, and each of them possibly more than once. -/
inductive Observed (id : MessageId) (key : AesKey) : List Bytes → Router → Prop
  | mk {a b b₁ : Router} {out : Output} {d d' : Datagram} {seen : List Bytes} (remotePubkey : String) (anonLevel : Option UInt64)
      (mode : Option String) (addrA addrB : String) (tmp : AesKey)
      (hopen : d ∈ (dispatchIpc A a (.channelOpen remotePubkey anonLevel mode (some addrB) id tmp)).2.1.sent)
      (hopened : onDatagram A load b addrA d.data = .ok (b₁, out))
      (haccept : d' ∈ (dispatchIpc A b₁ (.channelAccept id key)).2.1.sent)
      (hmem : d'.data ∈ seen) (honly : ∀ data ∈ seen, data = d.data ∨ data = d'.data) :
      Observed id key seen (dispatchIpc A b₁ (.channelAccept id key)).1

/-- No function of the datagrams gives the key. -/
def HandshakeSecret : Prop :=
  ¬∃ f : List Bytes → Option AesKey, ∀ id key seen b, Observed A load id key seen b → f seen = some key

variable {A load}

theorem acceptedKey_chanOpenCell (hA : A.Correct) (hload : Loads load) (id : MessageId) (anon : AnonLevel) (mode : ChannelMode) :
    acceptedKey A load (chanOpenCell A id anon mode).toList = none := by
  unfold acceptedKey
  rw [handshakeOf_chanOpenCell hA hload]

theorem acceptedKey_chanAcceptCell (hA : A.Correct) (hload : Loads load) (id : MessageId) (key : AesKey) :
    acceptedKey A load (chanAcceptCell A id key).toList = some key := by
  unfold acceptedKey
  rw [handshakeOf_chanAcceptCell hA hload]

/-- Among datagrams that give `key` or nothing, the first that gives something gives `key`. -/
theorem eavesdrop_eq {seen : List Bytes} {key : AesKey} {data : Bytes} (hmem : data ∈ seen)
    (hkey : acceptedKey A load data = some key)
    (honly : ∀ data' ∈ seen, acceptedKey A load data' = none ∨ acceptedKey A load data' = some key) :
    eavesdrop A load seen = some key := by
  unfold eavesdrop
  cases hfind : seen.findSome? (acceptedKey A load) with
  | none =>
    rw [List.findSome?_eq_none_iff] at hfind
    rw [hfind data hmem] at hkey
    cases hkey
  | some key' =>
    obtain ⟨data', hdata', hsome⟩ := List.exists_of_findSome?_eq_some hfind
    rcases honly data' hdata' with hnone | hsame
    · rw [hnone] at hsome
      cases hsome
    · exact hsome.symm.trans hsame

theorem Observed.eavesdrop (hA : A.Correct) (hload : Loads load) {id : MessageId} {key : AesKey} {seen : List Bytes} {b : Router}
    (h : Observed A load id key seen b) : AnonRouter.eavesdrop A load seen = some key := by
  obtain @⟨a, b, b₁, out, d, d', seen, remotePubkey, anonLevel, mode, addrA, addrB, tmp, hopen, hopened, haccept, hmem, honly⟩ := h
  obtain ⟨_, _, _, _, rfl⟩ := mem_sent_channelOpen hopen
  obtain ⟨_, _, _, _, _, rfl⟩ := mem_sent_channelAccept haccept
  have hkey := acceptedKey_chanAcceptCell hA hload id key
  refine eavesdrop_eq hmem hkey ?_
  intro data hdata
  rcases honly data hdata with rfl | rfl
  · exact Or.inl (acceptedKey_chanOpenCell hA hload id _ _)
  · exact Or.inr hkey

theorem Observed.entry {id : MessageId} {key : AesKey} {seen : List Bytes} {b : Router} (h : Observed A load id key seen b) :
    ∃ ci, b.channels.get id = some ci ∧ ci.state = .opened ∧ ci.channelKey = key := by
  obtain @⟨a, b, b₁, out, d, d', seen, remotePubkey, anonLevel, mode, addrA, addrB, tmp, hopen, hopened, haccept, hmem, honly⟩ := h
  obtain ⟨ci, _, hci, _, _, _⟩ := mem_sent_channelAccept haccept
  have hentry := entry_channelAccept A b₁ id key
  rw [hci] at hentry
  exact ⟨_, hentry, rfl, rfl⟩

/-- The handshake cells are public: from them anyone computes the key under which the channel is then open. -/
theorem handshake_key_public (hA : A.Correct) (hload : Loads load) {id : MessageId} {key : AesKey} {seen : List Bytes} {b : Router}
    (h : Observed A load id key seen b) :
    eavesdrop A load seen = some key ∧ ∃ ci, b.channels.get id = some ci ∧ ci.state = .opened ∧ ci.channelKey = key :=
  ⟨h.eavesdrop hA hload, h.entry⟩

/-- The datagrams of a handshake, in order. -/
def handshakeDatagrams (A : Aes) (id : MessageId) (key : AesKey) : List Bytes :=
  [(chanOpenCell A id .direct .message).toList, (chanAcceptCell A id key).toList]

theorem exists_observed (hA : A.Correct) (hload : Loads load) (id : MessageId) (key : AesKey) :
    ∃ b, Observed A load id key (handshakeDatagrams A id key) b := by
  obtain ⟨b₁, out₁, a₂, out₂, hopen, hopened, _, haccept, _, _⟩ := handshake_inOrder hA hload id key
  have hopen' : ⟨"10.0.0.2:9000", (chanOpenCell A id .direct .message).toList⟩ ∈
      (dispatchIpc A Router.initial (openCall id)).2.1.sent := by
    rw [hopen]
    exact List.mem_cons_self
  have haccept' : ⟨"10.0.0.1:9000", (chanAcceptCell A id key).toList⟩ ∈
      (dispatchIpc A b₁ (.channelAccept id key)).2.1.sent := by
    rw [haccept]
    exact List.mem_cons_self
  refine ⟨_, Observed.mk "" (some 0) none "10.0.0.1:9000" "10.0.0.2:9000" (fit 32 []) hopen' hopened haccept' ?_ ?_⟩
  · exact List.mem_cons_of_mem _ List.mem_cons_self
  · intro data hdata
    rcases List.mem_cons.mp hdata with rfl | hdata
    · exact Or.inl rfl
    · exact Or.inr (List.mem_singleton.mp hdata)

theorem not_handshakeSecret (hA : A.Correct) (hload : Loads load) : ¬HandshakeSecret A load := by
  intro h
  exact h ⟨eavesdrop A load, fun _ _ _ _ hobs => hobs.eavesdrop hA hload⟩

end Observer

theorem handshake_key_public_inOrder :
    ∃ b, Observed checksumAes load (fit 16 [7]) (fit 32 [1]) (handshakeDatagrams checksumAes (fit 16 [7]) (fit 32 [1])) b ∧
      eavesdrop checksumAes load (handshakeDatagrams checksumAes (fit 16 [7]) (fit 32 [1])) = some (fit 32 [1]) := by
  obtain ⟨b, hobs⟩ := exists_observed checksumAes_correct load_loads (fit 16 [7]) (fit 32 [1])
  exact ⟨b, hobs, (handshake_key_public checksumAes_correct load_loads hobs).1⟩

theorem not_handshakeSecret_checksum : ¬HandshakeSecret checksumAes load :=
  not_handshakeSecret checksumAes_correct load_loads

end ScatterWeb.AnonRouter
