import ScatterWeb.Client.Receive

/-! # Clients that behave alike

Whether a state comes from the cache or from the table makes no difference to what a client does, so two clients are compared by
the states that their sessions load. Alike clients do the same with every delivery frame. The second part says what a frame
cannot change at all: the contacts, and the certificates if its own is known or if it encloses none. -/
namespace ScatterWeb.Client
open Crypto Lib Lib.Cbor Ratchet Mailbox
set_option autoImplicit false

/-! ## Client states that behave alike -/

/-- The same keystore, and the same states to be loaded. -/
structure SessionsAlike (load : Bytes → Option Item) (s s' : Session Keys) : Prop where
  keystore : s'.keystore = s.keystore
  loads : LoadsAlike load s s'

structure Alike (load : Bytes → Option Item) (c c' : ClientState) : Prop where
  store : c'.store = c.store
  contacts : c'.contacts = c.contacts
  certs : c'.certs = c.certs
  session : SessionsAlike load c.session c'.session

section Alike
variable (P : Primitives wire) {load : Bytes → Option Item} (sha3 : Bytes → ByteArr 32)

theorem SessionsAlike.refl (s : Session Keys) : SessionsAlike load s s := ⟨rfl, fun _ _ => rfl⟩

theorem SessionsAlike.trans {s s' s'' : Session Keys} (h : SessionsAlike load s s') (h' : SessionsAlike load s' s'') :
    SessionsAlike load s s'' :=
  ⟨h'.keystore.trans h.keystore, fun convId hid => (h'.loads convId hid).trans (h.loads convId hid)⟩

theorem Alike.refl (c : ClientState) : Alike load c c := ⟨rfl, rfl, rfl, .refl c.session⟩

theorem Alike.trans {c c' c'' : ClientState} (h : Alike load c c') (h' : Alike load c' c'') : Alike load c c'' :=
  ⟨h'.store.trans h.store, h'.contacts.trans h.contacts, h'.certs.trans h.certs, h.session.trans h'.session⟩

theorem keystore_apply_congr {s s' : Session Keys} (h : s'.keystore = s.keystore) (convId : Bytes) (eff : Effect) :
    (Effect.apply s' convId eff).keystore = (Effect.apply s convId eff).keystore := by
  cases eff with
  | nothing => exact h
  | cached st => exact h
  | written st => exact congrArg (fun ks => setRatchetState ks convId (serialize st)) h

theorem SessionsAlike.apply {s s' : Session Keys} (h : SessionsAlike load s s') {convId : Bytes} (hid : 0 ∉ convId) (eff : Effect) :
    SessionsAlike load (Effect.apply s convId eff) (Effect.apply s' convId eff) :=
  ⟨keystore_apply_congr h.keystore convId eff, h.loads.apply hid eff⟩

theorem zero_notMem_dmConvId (myHex senderHex : Bytes) : 0 ∉ dmConvId sha3 myHex senderHex :=
  zero_notMem_bytesToHex _

theorem decrypt_eq (s : Session Keys) (convId : Bytes) (msg : Message wire) : decrypt P load s convId msg =
    (Effect.apply s convId (act P (loadState load s convId).2 (.decrypt convId msg)).1,
      (act P (loadState load s convId).2 (.decrypt convId msg)).2) := perform_eq P load s (.decrypt convId msg)

theorem SessionsAlike.decrypt {s s' : Session Keys} (h : SessionsAlike load s s') {convId : Bytes} (hid : 0 ∉ convId)
    (msg : Message wire) : SessionsAlike load (decrypt P load s convId msg).1 (decrypt P load s' convId msg).1 ∧
      (decrypt P load s' convId msg).2 = (decrypt P load s convId msg).2 := by
  rw [decrypt_eq, decrypt_eq, h.loads convId hid]
  exact ⟨h.apply hid _, rfl⟩

theorem SessionsAlike.getKeyA {s s' : Session Keys} (h : SessionsAlike load s s') : getKeyA s' = getKeyA s := by
  unfold Client.getKeyA
  rw [h.keystore]

/-- What the receiver takes from the reply of the ratchet. -/
def openedAs (convId : Bytes) : Except ManagerError Reply → Option (Bytes × Bytes)
  | .ok (.plaintext plain) => some (convId, plain)
  | _ => none

theorem openRatchetEnvelope_eq (s : Session Keys) (junk : Uninit) (senderHex envelope : Bytes) {pub : Bytes} {msg : Message wire}
    (hpub : Client.getKeyA s = some pub) (hmsg : decryptRatchetEnvelope load junk envelope = .ok msg) :
    openRatchetEnvelope P load sha3 s junk senderHex envelope =
      ((Client.decrypt P load s (dmConvId sha3 (bytesToHex (sha3 pub).toList) senderHex) msg).1,
        openedAs (dmConvId sha3 (bytesToHex (sha3 pub).toList) senderHex)
          (Client.decrypt P load s (dmConvId sha3 (bytesToHex (sha3 pub).toList) senderHex) msg).2) := by
  unfold openRatchetEnvelope
  rw [hpub, hmsg]
  dsimp only
  generalize Client.decrypt P load s (dmConvId sha3 (bytesToHex (sha3 pub).toList) senderHex) msg = result
  obtain ⟨s', reply⟩ := result
  cases reply with
  | error e => rfl
  | ok r => cases r <;> rfl

theorem openRatchetEnvelope_of_keyless {s : Session Keys} (junk : Uninit) (senderHex envelope : Bytes) (h : Client.getKeyA s = none) :
    openRatchetEnvelope P load sha3 s junk senderHex envelope = (s, none) := by
  unfold openRatchetEnvelope
  rw [h]

theorem openRatchetEnvelope_of_invalid (s : Session Keys) {junk : Uninit} (senderHex : Bytes) {envelope : Bytes} {e : EnvelopeError}
    (h : decryptRatchetEnvelope load junk envelope = .error e) :
    openRatchetEnvelope P load sha3 s junk senderHex envelope = (s, none) := by
  unfold openRatchetEnvelope
  rw [h]
  cases Client.getKeyA s with
  | none => rfl
  | some pub => rfl

theorem SessionsAlike.openRatchetEnvelope {s s' : Session Keys} (h : SessionsAlike load s s') (junk : Uninit)
    (senderHex envelope : Bytes) :
    SessionsAlike load (openRatchetEnvelope P load sha3 s junk senderHex envelope).1
      (openRatchetEnvelope P load sha3 s' junk senderHex envelope).1 ∧
      (openRatchetEnvelope P load sha3 s' junk senderHex envelope).2 = (openRatchetEnvelope P load sha3 s junk senderHex envelope).2 := by
  have hkeyA := h.getKeyA
  cases hpub : Client.getKeyA s with
  | none =>
    rw [openRatchetEnvelope_of_keyless P sha3 junk senderHex envelope hpub,
      openRatchetEnvelope_of_keyless P sha3 junk senderHex envelope (hkeyA.trans hpub)]
    exact ⟨h, rfl⟩
  | some pub =>
    cases hmsg : decryptRatchetEnvelope load junk envelope with
    | error e =>
      rw [openRatchetEnvelope_of_invalid P sha3 s senderHex hmsg, openRatchetEnvelope_of_invalid P sha3 s' senderHex hmsg]
      exact ⟨h, rfl⟩
    | ok msg =>
      obtain ⟨halike, hreply⟩ := h.decrypt P (zero_notMem_dmConvId sha3 (bytesToHex (sha3 pub).toList) senderHex) msg
      rw [openRatchetEnvelope_eq P sha3 s junk senderHex envelope hpub hmsg,
        openRatchetEnvelope_eq P sha3 s' junk senderHex envelope (hkeyA.trans hpub) hmsg]
      exact ⟨halike, congrArg (openedAs _) hreply⟩

theorem SessionsAlike.openSenderKeyEnvelope {s s' : Session Keys} (h : SessionsAlike load s s') (junk : Uninit)
    (senderHex envelope : Bytes) :
    openSenderKeyEnvelope P load s' junk senderHex envelope = openSenderKeyEnvelope P load s junk senderHex envelope := by
  unfold Client.openSenderKeyEnvelope decryptSenderKeyEnvelope getSenderKey
  rw [h.keystore]

theorem SessionsAlike.openEnvelope {s s' : Session Keys} (h : SessionsAlike load s s') (junk : Uninit) (frame : DeliveryFrame) :
    SessionsAlike load (openEnvelope P load sha3 s junk frame).1 (openEnvelope P load sha3 s' junk frame).1 ∧
      (openEnvelope P load sha3 s' junk frame).2 = (openEnvelope P load sha3 s junk frame).2 := by
  unfold Client.openEnvelope
  split_ifs with hratchet hsender
  · exact h.openRatchetEnvelope P sha3 junk (bytesToHex frame.senderId) frame.encryptedEnvelope
  · exact ⟨h, h.openSenderKeyEnvelope P junk (bytesToHex frame.senderId) frame.encryptedEnvelope⟩
  · exact ⟨h, rfl⟩

/-- The same events and the same acknowledgement, and states that are alike again. -/
structure SameOutcome (load : Bytes → Option Item) (r r' : Received) : Prop where
  state : Alike load r.state r'.state
  pushes : r'.pushes = r.pushes
  acked : r'.acked = r.acked
  crashed : r'.crashed = r.crashed

theorem Alike.dispatchOpened {c c' : ClientState} (h : Alike load c c') (frame : DeliveryFrame) (p : Presentation)
    (convId appFrame : Bytes) :
    SameOutcome load (dispatchOpened load c frame p convId appFrame) (dispatchOpened load c' frame p convId appFrame) := by
  unfold Client.dispatchOpened
  rw [h.store]
  cases load appFrame with
  | none => exact ⟨h, rfl, rfl, rfl⟩
  | some item =>
    dsimp only
    cases receiveAppFrame load ⟨convId, frame.senderId, p.frame, p.nowMs, p.junk.behindField⟩ appFrame c.store with
    | error e => exact ⟨h, rfl, rfl, rfl⟩
    | ok r => exact ⟨⟨rfl, h.contacts, h.certs, h.session⟩, rfl, rfl, rfl⟩

theorem Alike.processFromContact {c c' : ClientState} (h : Alike load c c') (frame : DeliveryFrame) (p : Presentation) :
    SameOutcome load (processFromContact P load sha3 c frame p) (processFromContact P load sha3 c' frame p) := by
  obtain ⟨hsession, hopened⟩ := h.session.openEnvelope P sha3 p.junk frame
  have hcert : resolveCert c' frame p.nowS = resolveCert c frame p.nowS := by
    unfold resolveCert getCert
    rw [h.certs]
  unfold Client.processFromContact
  rw [hcert]
  cases resolveCert c frame p.nowS with
  | none => exact ⟨h, rfl, rfl, rfl⟩
  | some certs =>
    dsimp only
    generalize Client.openEnvelope P load sha3 c.session p.junk frame = result at hsession hopened
    generalize Client.openEnvelope P load sha3 c'.session p.junk frame = result' at hsession hopened
    obtain ⟨s, opened⟩ := result
    obtain ⟨s', opened'⟩ := result'
    have hopened : opened' = opened := hopened
    subst hopened
    cases opened' with
    | none => exact ⟨⟨h.store, h.contacts, rfl, hsession⟩, rfl, rfl, rfl⟩
    | some pair =>
      have halike : Alike load { c with certs := certs, session := s } { c' with certs := certs, session := s' } :=
        ⟨h.store, h.contacts, rfl, hsession⟩
      exact halike.dispatchOpened frame p pair.1 pair.2

theorem Alike.processDeliveryFrame {c c' : ClientState} (h : Alike load c c') (p : Presentation) :
    SameOutcome load (processDeliveryFrame P load sha3 c p) (processDeliveryFrame P load sha3 c' p) := by
  unfold Client.processDeliveryFrame
  cases decodeDeliveryFrame load p.junk p.frame with
  | error e =>
    cases e with
    | invalid => exact ⟨h, rfl, rfl, rfl⟩
    | nullKey => exact ⟨h, rfl, rfl, rfl⟩
  | ok frame =>
    have hcontact : getContact c' (bytesToHex frame.senderId) = getContact c (bytesToHex frame.senderId) := by
      unfold getContact
      rw [h.contacts]
    dsimp only
    rw [hcontact]
    cases getContact c (bytesToHex frame.senderId) with
    | none => exact ⟨h, rfl, rfl, rfl⟩
    | some contact => exact h.processFromContact P sha3 frame p

end Alike

/-! ## What a presentation leaves alone -/

section Unchanged
variable {P : Primitives wire} {load : Bytes → Option Item} {sha3 : Bytes → ByteArr 32} {c : ClientState}

theorem dispatchOpened_rest (load : Bytes → Option Item) (c : ClientState) (frame : DeliveryFrame) (p : Presentation) (convId appFrame : Bytes) :
    (dispatchOpened load c frame p convId appFrame).state.contacts = c.contacts ∧
      (dispatchOpened load c frame p convId appFrame).state.certs = c.certs ∧
      (dispatchOpened load c frame p convId appFrame).state.session = c.session := by
  unfold dispatchOpened
  cases load appFrame with
  | none => exact ⟨rfl, rfl, rfl⟩
  | some item =>
    dsimp only
    cases receiveAppFrame load ⟨convId, frame.senderId, p.frame, p.nowMs, p.junk.behindField⟩ appFrame c.store with
    | error e => exact ⟨rfl, rfl, rfl⟩
    | ok r => exact ⟨rfl, rfl, rfl⟩

theorem processFromContact_rest (frame : DeliveryFrame) (p : Presentation) :
    (processFromContact P load sha3 c frame p).state.contacts = c.contacts ∧
      (processFromContact P load sha3 c frame p).state.certs = (resolveCert c frame p.nowS).getD c.certs := by
  unfold processFromContact
  cases resolveCert c frame p.nowS with
  | none => exact ⟨rfl, rfl⟩
  | some certs =>
    dsimp only
    generalize openEnvelope P load sha3 c.session p.junk frame = result
    obtain ⟨s, opened⟩ := result
    cases opened with
    | none => exact ⟨rfl, rfl⟩
    | some pair =>
      obtain ⟨hcontacts, hcerts, _⟩ := dispatchOpened_rest load { c with certs := certs, session := s } frame p
        pair.1 pair.2
      exact ⟨hcontacts, hcerts⟩

/-- The certificate of the frame is known, or it does not enclose one. -/
def CertSettled (c : ClientState) (frame : DeliveryFrame) : Prop :=
  getCert c frame.certFingerprint ≠ none ∨ frame.senderOutboxCert = []

theorem CertSettled.resolveCert {frame : DeliveryFrame} (h : CertSettled c frame) (nowS : Int64) :
    (resolveCert c frame nowS).getD c.certs = c.certs := by
  unfold Client.resolveCert
  cases hknown : getCert c frame.certFingerprint with
  | some k => rfl
  | none =>
    rcases h with hsome | hnone
    · exact absurd hknown hsome
    · dsimp only
      rw [if_pos hnone]
      rfl

theorem processDeliveryFrame_of_unknown {p : Presentation} {frame : DeliveryFrame}
    (hframe : decodeDeliveryFrame load p.junk p.frame = .ok frame) (hcontact : getContact c (bytesToHex frame.senderId) = none) :
    processDeliveryFrame P load sha3 c p = { state := c } := by
  unfold processDeliveryFrame
  rw [hframe]
  dsimp only
  rw [hcontact]

theorem processDeliveryFrame_of_contact {p : Presentation} {frame : DeliveryFrame}
    (hframe : decodeDeliveryFrame load p.junk p.frame = .ok frame) (hcontact : getContact c (bytesToHex frame.senderId) ≠ none) :
    processDeliveryFrame P load sha3 c p = processFromContact P load sha3 c frame p := by
  obtain ⟨contact, hcontact⟩ := Option.ne_none_iff_exists'.mp hcontact
  unfold processDeliveryFrame
  rw [hframe]
  dsimp only
  rw [hcontact]

/-- Of a call: nothing changes, or the frame is a contact's. -/
theorem processDeliveryFrame_cases (P : Primitives wire) (load : Bytes → Option Item) (sha3 : Bytes → ByteArr 32) (c : ClientState) (p : Presentation) :
    (processDeliveryFrame P load sha3 c p).state = c ∨
      ∃ frame, decodeDeliveryFrame load p.junk p.frame = .ok frame ∧ getContact c (bytesToHex frame.senderId) ≠ none ∧
        processDeliveryFrame P load sha3 c p = processFromContact P load sha3 c frame p := by
  cases hframe : decodeDeliveryFrame load p.junk p.frame with
  | error e =>
    unfold processDeliveryFrame
    rw [hframe]
    cases e with
    | invalid => exact .inl rfl
    | nullKey => exact .inl rfl
  | ok frame =>
    by_cases hcontact : getContact c (bytesToHex frame.senderId) = none
    · rw [processDeliveryFrame_of_unknown hframe hcontact]
      exact .inl rfl
    · exact .inr ⟨frame, rfl, hcontact, processDeliveryFrame_of_contact hframe hcontact⟩

theorem processDeliveryFrame_contacts (p : Presentation) : (processDeliveryFrame P load sha3 c p).state.contacts = c.contacts := by
  obtain hsame | ⟨frame, _, _, heq⟩ := processDeliveryFrame_cases P load sha3 c p
  · rw [hsame]
  · rw [heq]
    exact (processFromContact_rest frame p).1

end Unchanged

end ScatterWeb.Client
