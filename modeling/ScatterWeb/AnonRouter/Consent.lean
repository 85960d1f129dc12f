import ScatterWeb.AnonRouter.Transfer

/-! # What handshake cells do to channels

A `CHAN_OPEN` cell replaces the entry of the channel it names, and a `CHAN_ACCEPT` cell sets its key and opens it, in
whatever state the channel is and whoever sent the cell. So an open channel stays as it is under exactly those
datagrams that leave it alone, and an incoming channel waits for `channel.accept` only as long as nobody sends a
`CHAN_ACCEPT` cell for it (or upgrades it). -/
namespace ScatterWeb.AnonRouter
open Crypto Lib Lib.Cbor
set_option autoImplicit false

section Established
variable (A : Aes) (load : Bytes → Option Item)

/-! ## Established channels -/

def Unchanged (ci : ChannelInfo) (entry : Option ChannelInfo) : Prop :=
  ∃ ci', entry = some ci' ∧ ci'.channelKey = ci.channelKey ∧ ci'.peerAddr = ci.peerAddr ∧ ci'.state = ci.state ∧
    ci'.anonLevel = ci.anonLevel ∧ ci'.sendSeq = ci.sendSeq

/-- The datagram is no `CHAN_OPEN` cell for the channel, and no `CHAN_ACCEPT` cell that brings it another key. -/
def Harmless (ci : ChannelInfo) (data : Bytes) : Prop :=
  match handshakeOf A load data with
  | some (.chanOpen o) => o.channelId ≠ ci.channelId
  | some (.chanAccept channelId channelKey) => channelId = ci.channelId → channelKey = ci.channelKey
  | none => True

variable {A load}

theorem Unchanged.refl (ci : ChannelInfo) : Unchanged ci (some ci) := ⟨ci, rfl, rfl, rfl, rfl, rfl, rfl⟩

theorem unchanged_afterDatagram_iff {ci : ChannelInfo} (hopen : ci.state = .opened) {entry : Option ChannelInfo}
    (h : Unchanged ci entry) (peerAddr : String) (data : Bytes) :
    Unchanged ci (afterDatagram A load ci.channelId entry peerAddr data) ↔ Harmless A load ci data := by
  obtain ⟨ci', rfl, hkey, haddr, hstate, hlevel, hseq⟩ := h
  unfold afterDatagram Harmless
  cases handshakeOf A load data with
  | none => exact iff_of_true ⟨ci', rfl, hkey, haddr, hstate, hlevel, hseq⟩ trivial
  | some hk =>
    cases hk with
    | chanOpen o =>
      dsimp only
      by_cases hid : o.channelId = ci.channelId
      · rw [if_pos hid]
        -- a registration is never open
        refine iff_of_false ?_ (not_not.mpr hid)
        rintro ⟨_, ⟨rfl⟩, _, _, hst, _⟩
        rw [hopen] at hst
        cases hst
      · rw [if_neg hid]
        exact iff_of_true ⟨ci', rfl, hkey, haddr, hstate, hlevel, hseq⟩ hid
    | chanAccept channelId channelKey =>
      dsimp only
      by_cases hid : channelId = ci.channelId
      · rw [if_pos hid]
        constructor
        · rintro ⟨_, ⟨rfl⟩, hk, _⟩ _
          exact hk
        · intro hk
          exact ⟨_, rfl, hk hid, haddr, hopen.symm, hlevel, hseq⟩
      · rw [if_neg hid]
        exact iff_of_true ⟨ci', rfl, hkey, haddr, hstate, hlevel, hseq⟩ (fun h => absurd h hid)

theorem receive_cons_ok {r r' : Router} {peerAddr : String} {data : Bytes} {ds : List (String × Bytes)}
    {frames : List (MessageId × Bytes)} (h : receive A load r ((peerAddr, data) :: ds) = .ok (r', frames)) :
    ∃ r₁ out rest, onDatagram A load r peerAddr data = .ok (r₁, out) ∧ receive A load r₁ ds = .ok (r', rest) := by
  unfold receive at h
  cases hd : onDatagram A load r peerAddr data with
  | error e =>
    rw [hd] at h
    cases h
  | ok res =>
    obtain ⟨r₁, out⟩ := res
    rw [hd] at h
    dsimp only at h
    cases hr : receive A load r₁ ds with
    | error e =>
      rw [hr] at h
      cases h
    | ok res =>
      rw [hr] at h
      obtain ⟨rfl, rfl⟩ := Prod.mk.inj (Except.ok.inj h)
      exact ⟨r₁, out, res.2, rfl, hr⟩

theorem receive_cons_of_ok {r r₁ r' : Router} {peerAddr : String} {data : Bytes} {ds : List (String × Bytes)} {out : Output}
    {rest : List (MessageId × Bytes)} (hd : onDatagram A load r peerAddr data = .ok (r₁, out))
    (hr : receive A load r₁ ds = .ok (r', rest)) :
    receive A load r ((peerAddr, data) :: ds) = .ok (r', out.frames ++ rest) := by
  unfold receive
  rw [hd]
  dsimp only
  rw [hr]
  rfl

theorem receive_one {r r₁ : Router} {peerAddr : String} {data : Bytes} {out : Output}
    (hd : onDatagram A load r peerAddr data = .ok (r₁, out)) :
    receive A load r [(peerAddr, data)] = .ok (r₁, out.frames) := by
  have hnil : receive A load r₁ [] = .ok (r₁, []) := rfl
  have h := receive_cons_of_ok hd hnil
  rwa [List.append_nil] at h

theorem unchanged_throughout_iff {ci : ChannelInfo} (hopen : ci.state = .opened) {r r' : Router}
    (h : Unchanged ci (r.channels.get ci.channelId)) {ds : List (String × Bytes)} {frames : List (MessageId × Bytes)}
    (hrun : receive A load r ds = .ok (r', frames)) :
    (∀ ds₁ r₁ frames₁, ds₁ <+: ds → receive A load r ds₁ = .ok (r₁, frames₁) →
        Unchanged ci (r₁.channels.get ci.channelId)) ↔
      ∀ d ∈ ds, Harmless A load ci d.2 := by
  induction ds generalizing r frames with
  | nil =>
    refine iff_of_true ?_ (fun _ h => nomatch h)
    intro ds₁ r₁ frames₁ hpre hrun₁
    rw [List.prefix_nil.mp hpre] at hrun₁
    rw [← (Prod.mk.inj (Except.ok.inj hrun₁)).1]
    exact h
  | cons d ds ih =>
    obtain ⟨peerAddr, data⟩ := d
    obtain ⟨r₂, out, rest, hd, hrest⟩ := receive_cons_ok hrun
    have hstep : Unchanged ci (r₂.channels.get ci.channelId) ↔ Harmless A load ci data := by
      rw [onDatagram_entry hd]
      exact unchanged_afterDatagram_iff hopen h peerAddr data
    constructor
    · intro hall
      have hone : Unchanged ci (r₂.channels.get ci.channelId) := by
        refine hall [(peerAddr, data)] r₂ out.frames ?_ (receive_one hd)
        exact ⟨ds, rfl⟩
      have htail := (ih hone hrest).mp (by
        intro ds₁ r₁ frames₁ hpre hrun₁
        exact hall _ r₁ _ (List.cons_prefix_cons.mpr ⟨rfl, hpre⟩) (receive_cons_of_ok hd hrun₁))
      intro d' hd'
      rcases List.mem_cons.mp hd' with rfl | hd'
      · exact hstep.mp hone
      · exact htail d' hd'
    · intro hall
      have hone := hstep.mpr (hall _ (List.mem_cons_self ..))
      have htail := (ih hone hrest).mpr (fun d' hd' => hall d' (List.mem_cons_of_mem _ hd'))
      intro ds₁ r₁ frames₁ hpre hrun₁
      cases ds₁ with
      | nil =>
        rw [← (Prod.mk.inj (Except.ok.inj hrun₁)).1]
        exact h
      | cons d₁ ds₁ =>
        obtain ⟨rfl, hpre'⟩ := List.cons_prefix_cons.mp hpre
        obtain ⟨r₃, out₃, rest₃, hd₃, hrest₃⟩ := receive_cons_ok hrun₁
        rw [hd] at hd₃
        obtain ⟨rfl, rfl⟩ := Prod.mk.inj (Except.ok.inj hd₃)
        exact htail ds₁ r₁ rest₃ hpre' hrest₃

/-- An open channel is unchanged throughout a sequence of received datagrams exactly when each of them is harmless. -/
theorem established_unchanged_iff {r r' : Router} {id : MessageId} {ci : ChannelInfo} (hget : r.channels.get id = some ci)
    (hopen : ci.state = .opened) {ds : List (String × Bytes)} {frames : List (MessageId × Bytes)}
    (hrun : receive A load r ds = .ok (r', frames)) :
    (∀ ds₁ r₁ frames₁, ds₁ <+: ds → receive A load r ds₁ = .ok (r₁, frames₁) → Unchanged ci (r₁.channels.get id)) ↔
      ∀ d ∈ ds, Harmless A load ci d.2 := by
  have hid := Channels.channelId_of_get hget
  subst hid
  refine unchanged_throughout_iff hopen ?_ hrun
  rw [hget]
  exact Unchanged.refl ci

def HandshakeImmune (A : Aes) (load : Bytes → Option Item) : Prop :=
  ∀ r : Router, Reachable (Steps A load) Router.initial r → ∀ id ci, r.channels.get id = some ci → ci.state = .opened →
    ∀ ds r' frames, receive A load r ds = .ok (r', frames) → Unchanged ci (r'.channels.get id)

/-- A `CHAN_OPEN` cell from anyone sets an open channel back. -/
theorem not_handshakeImmune (hA : A.Correct) (hload : Loads load) (id : MessageId) (key : AesKey) :
    ¬HandshakeImmune A load := by
  intro h
  obtain ⟨r, hr, hget⟩ := reachable_initiator hA hload id (fit 32 []) key "10.0.0.2:9000" "10.0.0.2:9000"
  have hhk := handshakeOf_chanOpenCell hA hload id .direct .message
  obtain ⟨r', out, hstep⟩ := onDatagram_of_handshake hhk r "10.0.0.9:1"
  have hun := h r hr _ _ hget rfl _ _ _ (receive_one hstep)
  rw [onDatagram_entry hstep, hget] at hun
  have hharm : Harmless A load (openInfo id key "10.0.0.2:9000") (chanOpenCell A id .direct .message).toList :=
    (unchanged_afterDatagram_iff rfl (Unchanged.refl _) _ _).mp hun
  unfold Harmless at hharm
  rw [hhk] at hharm
  exact hharm rfl

end Established

theorem established_unchanged_iff_otherChannel :
    ∃ r r', Reachable (Steps checksumAes load) Router.initial r ∧
      r.channels.get (fit 16 [7]) = some (openInfo (fit 16 [7]) (fit 32 [1]) "10.0.0.2:9000") ∧
      receive checksumAes load r [("10.0.0.9:1", (chanOpenCell checksumAes (fit 16 [8]) .direct .message).toList)] =
        .ok (r', []) ∧
      Unchanged (openInfo (fit 16 [7]) (fit 32 [1]) "10.0.0.2:9000") (r'.channels.get (fit 16 [7])) := by
  obtain ⟨r, hr, hget⟩ := reachable_initiator checksumAes_correct load_loads (fit 16 [7]) (fit 32 []) (fit 32 [1])
    "10.0.0.2:9000" "10.0.0.2:9000"
  have hhk := handshakeOf_chanOpenCell checksumAes_correct load_loads (fit 16 [8]) .direct .message
  obtain ⟨r', out, hstep⟩ := onDatagram_of_handshake hhk r "10.0.0.9:1"
  have hframes := (onDatagram_handshake_output hhk hstep).1
  have hrun := receive_one hstep
  rw [hframes] at hrun
  refine ⟨r, r', hr, hget, hrun, ?_⟩
  refine (established_unchanged_iff hget rfl hrun).mpr ?_ _ _ _ List.prefix_rfl hrun
  intro d hd
  rw [List.mem_singleton.mp hd]
  unfold Harmless
  rw [hhk]
  decide

theorem not_handshakeImmune_checksum : ¬HandshakeImmune checksumAes load :=
  not_handshakeImmune checksumAes_correct load_loads (fit 16 [7]) (fit 32 [1])

section LocalConsent
variable (A : Aes) (load : Bytes → Option Item)

/-! ## Local consent -/

def Registers (id : MessageId) : Event → Prop
  | .datagram _ data => ∃ o, handshakeOf A load data = some (.chanOpen o) ∧ o.channelId = id
  | .ipc _ => False

/-- The event opens the channel, registered or not, without `channel.accept`. -/
def ForcesOpen (id : MessageId) : Event → Prop
  | .datagram _ data => ∃ key, handshakeOf A load data = some (.chanAccept id key)
  | .ipc (.channelUpgrade channelId _ _) => channelId = id
  | .ipc _ => False

variable {A load}

def OpensLocally (id : MessageId) : Event → Prop
  | .ipc (.channelOpen _ _ _ _ newId _) => newId = id
  | _ => False

def AcceptsLocally (id : MessageId) : Event → Prop
  | .ipc (.channelAccept channelId _) => channelId = id
  | _ => False

def ClosesLocally (id : MessageId) : Event → Prop
  | .ipc (.channelClose channelId) => channelId = id
  | .ipc (.channelReject channelId) => channelId = id
  | _ => False

variable (A load)

/-- The channel was registered by a `CHAN_OPEN` cell, and `channel.accept` has not been called for it since. (A
`channel.open` that draws the same id would make it another channel.) -/
def Unaccepted (id : MessageId) : List Event → Prop :=
  Since (Registers A load id) (fun e => ¬OpensLocally id e ∧ ¬AcceptsLocally id e)

/-- The same of a channel that has not been closed or rejected either. -/
def Awaiting (id : MessageId) : List Event → Prop :=
  Since (Registers A load id) (fun e => (¬OpensLocally id e ∧ ¬AcceptsLocally id e) ∧ ¬ClosesLocally id e)

def Unforced (es : List Event) : Prop :=
  ∀ before e after, es = before ++ e :: after → ∀ id, Awaiting A load id before → ¬ForcesOpen A load id e

variable {A load}

theorem Unforced.of_snoc {es : List Event} {e : Event} (h : Unforced A load (es ++ [e])) :
    Unforced A load es ∧ ∀ id, Awaiting A load id es → ¬ForcesOpen A load id e := by
  constructor
  · intro before e' after heq
    refine h before e' (after ++ [e]) ?_
    rw [heq, List.append_assoc, List.cons_append]
  · exact h es e [] rfl

theorem unforced_nil : Unforced A load [] := by
  intro before e after h
  cases before <;> cases h

theorem Unforced.snoc {es : List Event} {e : Event} (h : Unforced A load es)
    (he : ∀ id, Awaiting A load id es → ¬ForcesOpen A load id e) : Unforced A load (es ++ [e]) := by
  intro before e' after heq
  rcases List.eq_nil_or_concat after with rfl | ⟨after, last, rfl⟩
  · obtain ⟨rfl, he'⟩ := List.append_inj' heq rfl
    cases he'
    exact he
  · rw [List.concat_eq_append, ← List.cons_append, ← List.append_assoc] at heq
    obtain ⟨rfl, _⟩ := List.append_inj' heq rfl
    exact h before e' after rfl

def NotOpen (entry : Option ChannelInfo) : Prop := ∀ ci, entry = some ci → ci.state ≠ .opened

theorem NotOpen.ite {c : Prop} [Decidable c] {a b : Option ChannelInfo} (ha : c → NotOpen a) (hb : ¬c → NotOpen b) :
    NotOpen (if c then a else b) := by
  by_cases hc : c
  · rw [if_pos hc]
    exact ha hc
  · rw [if_neg hc]
    exact hb hc

theorem notOpen_none : NotOpen none := fun _ h => nomatch h

theorem notOpen_of_opening {ci : ChannelInfo} (h : ci.state = .opening) : NotOpen (some ci) := by
  rintro _ ⟨rfl⟩
  rw [h]
  decide

theorem NotOpen.sent {cid id : MessageId} {old new : Option ChannelInfo} (h : NotOpen old) (hs : Sent cid id old new) :
    NotOpen new := by
  unfold Sent at hs
  by_cases hid : cid = id
  · rw [if_pos hid] at hs
    obtain ⟨n, rfl⟩ := hs
    intro ci hci
    obtain ⟨ci', hci', rfl⟩ := Option.map_eq_some_iff.mp hci
    exact h ci' hci'
  · rw [if_neg hid] at hs
    rw [hs]
    exact h

theorem NotOpen.step {id : MessageId} {old new : Option ChannelInfo} {e : Event} (h : NotOpen old)
    (hs : EntryStep A load id old new e) (hacc : ¬AcceptsLocally id e) (hforce : ¬ForcesOpen A load id e) : NotOpen new := by
  cases e with
  | datagram peerAddr data =>
    rw [show new = afterDatagram A load id old peerAddr data from hs]
    unfold afterDatagram
    cases hhk : handshakeOf A load data with
    | none => exact h
    | some hk =>
      cases hk with
      | chanOpen o => exact NotOpen.ite (fun _ => notOpen_of_opening rfl) (fun _ => h)
      | chanAccept channelId channelKey =>
        refine NotOpen.ite (fun hid => absurd ?_ hforce) (fun _ => h)
        subst hid
        exact ⟨channelKey, hhk⟩
  | ipc call =>
    cases call with
    | channelOpen remotePubkey anonLevel mode peerAddr newId newKey =>
      rw [show new = _ from hs]
      exact NotOpen.ite (fun _ => notOpen_of_opening rfl) (fun _ => h)
    | channelAccept channelId newKey =>
      rw [show new = _ from hs]
      exact NotOpen.ite (fun hid => absurd hid hacc) (fun _ => h)
    | channelReject channelId =>
      rw [show new = _ from hs]
      exact NotOpen.ite (fun _ => notOpen_none) (fun _ => h)
    | channelUpgrade channelId mode csk =>
      rw [show new = _ from hs]
      exact NotOpen.ite (fun hid => absurd hid hforce) (fun _ => h)
    | channelClose channelId =>
      rw [show new = _ from hs]
      exact NotOpen.ite (fun _ => notOpen_none) (fun _ => h)
    | channelList =>
      rw [show new = _ from hs]
      exact h
    | frameSend channelId nonce payload => exact h.sent hs
    | frameSendBatch channelId frames => exact h.sent hs

theorem none_sent {cid id : MessageId} {new : Option ChannelInfo} (hs : Sent cid id none new) : new = none := by
  unfold Sent at hs
  by_cases hid : cid = id
  · rw [if_pos hid] at hs
    obtain ⟨n, rfl⟩ := hs
    rfl
  · rwa [if_neg hid] at hs

theorem entry_none_step {id : MessageId} {new : Option ChannelInfo} {e : Event} (hs : EntryStep A load id none new e)
    (hreg : ¬Registers A load id e) (hopen : ¬OpensLocally id e) : new = none := by
  have hnone : ∀ c : Prop, [Decidable c] → (if c then none else none : Option ChannelInfo) = none := by
    intro c _
    rw [ite_self]
  cases e with
  | datagram peerAddr data =>
    rw [show new = afterDatagram A load id none peerAddr data from hs]
    unfold afterDatagram
    cases hhk : handshakeOf A load data with
    | none => rfl
    | some hk =>
      cases hk with
      | chanOpen o => exact if_neg (fun hid => hreg ⟨o, hhk, hid⟩)
      | chanAccept channelId channelKey => exact hnone _
  | ipc call =>
    cases call with
    | channelOpen remotePubkey anonLevel mode peerAddr newId newKey => exact hs.trans (if_neg hopen)
    | channelAccept channelId newKey => exact hs.trans (hnone _)
    | channelReject channelId => exact hs.trans (hnone _)
    | channelUpgrade channelId mode csk => exact hs.trans (hnone _)
    | channelClose channelId => exact hs.trans (hnone _)
    | channelList => exact hs
    | frameSend channelId nonce payload => exact none_sent hs
    | frameSendBatch channelId frames => exact none_sent hs

theorem entry_closed_step {id : MessageId} {old new : Option ChannelInfo} {e : Event} (hs : EntryStep A load id old new e)
    (hclose : ClosesLocally id e) : new = none := by
  cases e with
  | datagram peerAddr data => exact hclose.elim
  | ipc call =>
    cases call with
    | channelReject channelId => exact hs.trans (if_pos hclose)
    | channelClose channelId => exact hs.trans (if_pos hclose)
    | _ => exact hclose.elim

theorem registered_entry {id : MessageId} {old new : Option ChannelInfo} {e : Event} (hs : EntryStep A load id old new e)
    (hreg : Registers A load id e) : NotOpen new := by
  cases e with
  | datagram peerAddr data =>
    obtain ⟨o, hhk, hid⟩ := hreg
    rw [show new = afterDatagram A load id old peerAddr data from hs]
    unfold afterDatagram
    rw [hhk]
    dsimp only
    rw [if_pos hid]
    exact notOpen_of_opening rfl
  | ipc call => exact hreg.elim

/-- A channel that was never accepted is not open, and if it is there at all, it still waits. -/
theorem unaccepted_entry {es : List Event} {r : Router} (hrun : Run (Steps A load) Router.initial es r)
    (hun : Unforced A load es) (id : MessageId) (h : Unaccepted A load id es) :
    NotOpen (r.channels.get id) ∧ (r.channels.get id ≠ none → Awaiting A load id es) := by
  induction hrun with
  | nil => exact absurd h not_since_nil
  | @snoc es r r' e _ hstep ih =>
    obtain ⟨out, hstep⟩ := hstep
    have hentry := step_entry hstep id
    obtain ⟨hun, hforce⟩ := hun.of_snoc
    by_cases hreg : Registers A load id e
    · exact ⟨registered_entry hentry hreg, fun _ => since_snoc.mpr (Or.inl hreg)⟩
    obtain ⟨⟨hopen, hacc⟩, hbefore⟩ := (since_snoc.mp h).resolve_left hreg
    obtain ⟨hnot, hwait⟩ := ih hun hbefore
    by_cases hgone : r.channels.get id = none
    · rw [hgone] at hentry
      have hnew := entry_none_step hentry hreg hopen
      rw [hnew]
      exact ⟨notOpen_none, fun hne => absurd rfl hne⟩
    · refine ⟨hnot.step hentry hacc (hforce id (hwait hgone)), ?_⟩
      intro hne
      exact since_snoc.mpr (Or.inr ⟨⟨⟨hopen, hacc⟩, fun hclose => hne (entry_closed_step hentry hclose)⟩, hwait hgone⟩)

/-- In a run in which no channel is forced open while it waits, frames come in on an incoming channel only after
`channel.accept`. -/
theorem frames_after_accept {es : List Event} {r r' : Router} {e : Event} {out : Output}
    (hrun : Run (Steps A load) Router.initial es r) (hun : Unforced A load es) (hstep : step A load r e = .ok (r', out))
    {id : MessageId} {frame : Bytes} (hframe : (id, frame) ∈ out.frames) : ¬Unaccepted A load id es := by
  intro h
  have hwf := Router.wf_of_reachable ⟨es, hrun⟩
  obtain ⟨ci, hget, _, hopen⟩ := step_frames hwf hstep hframe
  exact (unaccepted_entry hrun hun id h).1 ci hget hopen

def LocalConsent (A : Aes) (load : Bytes → Option Item) : Prop :=
  ∀ es r r' e out id frame, Run (Steps A load) Router.initial es r → step A load r e = .ok (r', out) →
    (id, frame) ∈ out.frames → ¬Unaccepted A load id es

theorem step_sendCell (hA : A.Correct) (hload : Loads load) {r : Router} (hwf : r.Wf) {id : MessageId} {key : AesKey}
    {peerAddr : String} (hget : r.channels.get id = some (openInfo id key peerAddr)) (sender : String) :
    step A load r (.datagram sender (sendCell A (openInfo id key peerAddr) id (fit 12 []) [42]).toList) =
      .ok (r, { frames := [(id, [42])] }) := by
  have hid : (openInfo id key peerAddr).channelId = id := rfl
  have hcell := onCell_sendCell hA hload hwf.noGuards hid rfl rfl hget rfl rfl (fit 12 []) [42]
  rw [if_pos ⟨rfl, by decide, by decide⟩] at hcell
  exact onDatagram_data hwf sender (cellType_sealCell A _ _ _) hcell

/-- A stranger who sends `CHAN_OPEN`, `CHAN_ACCEPT` and a data cell is heard. -/
theorem not_localConsent (hA : A.Correct) (hload : Loads load) (id : MessageId) (key : AesKey) : ¬LocalConsent A load := by
  intro h
  have hopen := handshakeOf_chanOpenCell hA hload id .direct .message
  have hacc := handshakeOf_chanAcceptCell hA hload id key
  obtain ⟨r₁, hstep₁, hget₁⟩ := step_of_handshake (r := Router.initial) hopen "10.0.0.9:1" id
  obtain ⟨r₂, hstep₂, hget₂⟩ := step_of_handshake (r := r₁) hacc "10.0.0.9:1" id
  have hrun := (Run.nil.snoc hstep₁).snoc hstep₂
  have hget : r₂.channels.get id = some (openInfo id key "10.0.0.9:1") := by
    rw [hget₂, hget₁, afterDatagram_chanAcceptCell hA hload, afterDatagram_chanOpenCell hA hload]
    rfl
  have hwf := Router.wf_of_reachable ⟨_, hrun⟩
  have hdata := step_sendCell hA hload hwf hget "10.0.0.9:1"
  refine h _ r₂ r₂ _ _ id [42] hrun hdata (List.mem_singleton.mpr rfl) ?_
  refine ⟨[], _, [_], rfl, ⟨_, hopen, rfl⟩, ?_⟩
  intro e he
  rw [List.mem_singleton.mp he]
  exact ⟨fun h => h, fun h => h⟩

theorem unforced_acceptor (A : Aes) (load : Bytes → Option Item) (id : MessageId) (key : AesKey) (peerAddr : String) :
    Unforced A load (acceptorEvents A id key peerAddr) :=
  (unforced_nil.snoc (fun _ h => absurd h not_since_nil)).snoc (fun _ _ h => h)

end LocalConsent

theorem frames_after_accept_accepted :
    ∃ r, Run (Steps checksumAes load) Router.initial (acceptorEvents checksumAes (fit 16 [7]) (fit 32 [1]) "10.0.0.9:1") r ∧
      ¬Unaccepted checksumAes load (fit 16 [7]) (acceptorEvents checksumAes (fit 16 [7]) (fit 32 [1]) "10.0.0.9:1") ∧
      step checksumAes load r (.datagram "10.0.0.9:1"
        (sendCell checksumAes (openInfo (fit 16 [7]) (fit 32 [1]) "10.0.0.9:1") (fit 16 [7]) (fit 12 []) [42]).toList) =
        .ok (r, { frames := [(fit 16 [7], [42])] }) := by
  obtain ⟨r, hrun, hget⟩ := run_acceptor checksumAes_correct load_loads (fit 16 [7]) (fit 32 [1]) "10.0.0.9:1"
  have hun := unforced_acceptor checksumAes load (fit 16 [7]) (fit 32 [1]) "10.0.0.9:1"
  have hstep := step_sendCell checksumAes_correct load_loads (Router.wf_of_reachable ⟨_, hrun⟩) hget "10.0.0.9:1"
  exact ⟨r, hrun, frames_after_accept hrun hun hstep (List.mem_singleton.mpr rfl), hstep⟩

theorem not_localConsent_checksum : ¬LocalConsent checksumAes load :=
  not_localConsent checksumAes_correct load_loads (fit 16 [7]) (fit 32 [1])

end ScatterWeb.AnonRouter
