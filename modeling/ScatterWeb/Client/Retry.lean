import ScatterWeb.Client.Alike
import ScatterWeb.Client.Dispatch

/-! # Presenting a message again

A message is presented until `inbox.ack` succeeds. A presentation that comes again leaves everything as it was when its
ratchet message is of an epoch that is over, or when its app frame has already had its effect; then the run is the one in
which every message is processed once. Otherwise the ratchet takes the key of the next message for it, and the next message is
lost. The memory behind the keys of a frame is not the same at every presentation, so what is decoded need not be the same. -/
namespace ScatterWeb.Client
open Crypto Lib Lib.Cbor Ratchet Mailbox
set_option autoImplicit false

/-! ## Presentations without effect -/

/-- The store already is as the app frame wants it. -/
def AlreadyApplied (db : Store) (o : Order) : Prop :=
  (∀ m ∈ db.messages, ¬o.Changes m) ∧ ∀ id, o = .insert id → ∃ m ∈ db.messages, m.id = id

section Spent
variable (P : Primitives wire) (load : Bytes → Option Item) (sha3 : Bytes → ByteArr 32)

/-- The message does not get to the ratchet, or the ratchet turns it away before anything is changed. -/
def RatchetRefuses (s : Session Keys) (junk : Uninit) (senderHex envelope : Bytes) : Prop :=
  ∀ pub msg st, getKeyA s = some pub → decryptRatchetEnvelope load junk envelope = .ok msg →
    (loadState load s (dmConvId sha3 (bytesToHex (sha3 pub).toList) senderHex)).2 = .ok st →
      st.skippedKeys.lookup (skipKey msg.header.epoch msg.header.msgNum) = none ∧ Rejected st msg

/-- Nothing is left to be done for a frame of a contact: its certificate is settled, and its ratchet message is refused or its app
frame has been applied. -/
structure SpentFrame (c : ClientState) (p : Presentation) (frame : DeliveryFrame) : Prop where
  cert : CertSettled c frame
  ratchet : frame.envelopeType = ascii "ratchet" →
    RatchetRefuses load sha3 c.session p.junk (bytesToHex frame.senderId) frame.encryptedEnvelope
  senderKey : frame.envelopeType = ascii "sender_key" → ∀ convId appFrame kvs,
    openSenderKeyEnvelope P load c.session p.junk (bytesToHex frame.senderId) frame.encryptedEnvelope = some (convId, appFrame) →
    load appFrame = some (.map kvs) → AlreadyApplied c.store (orderOf (cborGetFieldStr kvs "type") kvs)

/-- The presentation does not crash the process, and leaves nothing to be done. -/
structure Spent (c : ClientState) (p : Presentation) : Prop where
  keyed : decodeDeliveryFrame load p.junk p.frame ≠ .error .nullKey
  frame : ∀ frame, decodeDeliveryFrame load p.junk p.frame = .ok frame → getContact c (bytesToHex frame.senderId) ≠ none →
    SpentFrame P load sha3 c p frame

variable {P load sha3} {c : ClientState}

/-- Loading a state puts it into the cache, and that is all. -/
theorem SessionsAlike.put {s : Session Keys} {convId : Bytes} (hid : 0 ∉ convId) {st : Ratchet.State wire}
    (hst : (loadState load s convId).2 = .ok st) : SessionsAlike load s (s.put convId st) := by
  refine ⟨rfl, ?_⟩
  intro convId' hid'
  have happly : s.put convId st = Effect.apply s convId (.cached st) := rfl
  rw [happly]
  by_cases hne : convId' = convId
  · subst hne
    rw [loadState_apply_self (Or.inr rfl), hst]
  · exact loadState_apply_of_ne hid hid' hne (.cached st)

theorem RatchetRefuses.openRatchetEnvelope {s : Session Keys} {junk : Uninit} {senderHex envelope : Bytes}
    (h : RatchetRefuses load sha3 s junk senderHex envelope) :
    SessionsAlike load s (openRatchetEnvelope P load sha3 s junk senderHex envelope).1 ∧
      (openRatchetEnvelope P load sha3 s junk senderHex envelope).2 = none := by
  cases hpub : getKeyA s with
  | none =>
    rw [openRatchetEnvelope_of_keyless P sha3 junk senderHex envelope hpub]
    exact ⟨.refl s, rfl⟩
  | some pub =>
    cases hmsg : decryptRatchetEnvelope load junk envelope with
    | error e =>
      rw [openRatchetEnvelope_of_invalid P sha3 s senderHex hmsg]
      exact ⟨.refl s, rfl⟩
    | ok msg =>
      have hid := zero_notMem_dmConvId sha3 (bytesToHex (sha3 pub).toList) senderHex
      rw [openRatchetEnvelope_eq P sha3 s junk senderHex envelope hpub hmsg, decrypt_eq]
      cases hst : (loadState load s (dmConvId sha3 (bytesToHex (sha3 pub).toList) senderHex)).2 with
      | error e => exact ⟨.refl s, rfl⟩
      | ok st =>
        obtain ⟨hslot, hrejected⟩ := h pub msg st hpub hmsg hst
        obtain ⟨e, hrun⟩ := decrypt_rejected (P := P) hslot hrejected
        unfold act
        dsimp only
        rw [hrun]
        exact ⟨.put hid hst, rfl⟩

end Spent

/-! ## Runs -/

/-- A message of the inbox, by its id and its frame. -/
def Presentation.key (p : Presentation) : Bytes × Bytes := (p.messageId, p.frame)

/-- What the client does until its process ends. -/
inductive ClientEvent
  | present (p : Presentation)
  /-- A call of the ratchet manager elsewhere in the client. -/
  | op (o : Op)
  /-- A write to the store elsewhere in the client. -/
  | edit (f : Store → Store)

/-- The client and the messages that it was presented. -/
structure Presented where
  client : ClientState
  seen : List (Bytes × Bytes) := []

open Presented

section Runs
variable (P : Primitives wire) (load : Bytes → Option Item) (sha3 : Bytes → ByteArr 32)

def nextClient (c : ClientState) : ClientEvent → ClientState
  | .present p => (processDeliveryFrame P load sha3 c p).state
  | .op o => { c with session := (perform P load c.session o).1 }
  | .edit f => { c with store := f c.store }

/-- The events for the user interface, and whether the message was decrypted and acknowledged. -/
def reply (c : ClientState) : ClientEvent → List (List Push × Bool)
  | .present p => [((processDeliveryFrame P load sha3 c p).pushes, (processDeliveryFrame P load sha3 c p).acked)]
  | _ => []

/-- A message that is presented again finds nothing left to be done. -/
def Harmless (m : Presented) : ClientEvent → Prop
  | .present p => p.key ∈ m.seen → Spent P load sha3 m.client p
  | .op o => 0 ∉ o.convId
  | .edit _ => True

variable {P load sha3} {c c' : ClientState}

/-- The step lemma: alike clients do the same. -/
theorem Alike.nextClient (P : Primitives wire) (sha3 : Bytes → ByteArr 32) (h : Alike load c c') {e : ClientEvent} (he : ∀ o, e = .op o → 0 ∉ o.convId) :
    Alike load (nextClient P load sha3 c e) (nextClient P load sha3 c' e) ∧ reply P load sha3 c' e = reply P load sha3 c e := by
  cases e with
  | present p =>
    have hsame := h.processDeliveryFrame P sha3 p
    refine ⟨hsame.state, ?_⟩
    simp only [reply, hsame.pushes, hsame.acked]
  | op o =>
    have hid := he o rfl
    refine ⟨⟨h.store, h.contacts, h.certs, ?_⟩, rfl⟩
    show SessionsAlike load (perform P load c.session o).1 (perform P load c'.session o).1
    rw [perform_eq, perform_eq, h.session.loads o.convId hid]
    exact h.session.apply hid _
  | edit f => exact ⟨⟨congrArg f h.store, h.contacts, h.certs, h.session⟩, rfl⟩

end Runs

/-! ## A message that is presented twice -/

/-- Keys that count how often they were derived, so that no two keys of a chain are the same. -/
def counting : Primitives wire where
  aes := checksumAes
  kem := paddingKem
  kdf ps :=
    match ps with
    | .key k :: _ => fit 32 [k.head + 1]
    | _ => fit 32 [0]

def aliceId : Bytes := (fit 32 [1]).toList

/-- An app frame of type `message` that carries its id as the receiver reads it. -/
def messagePairs (id : Bytes) : List (Item × Item) :=
  [(.text (ascii "type"), .text (ascii "message")), (.text (ascii "id"), .text id)]

def messageItem (id : Bytes) : Item := .map (messagePairs id)

/-- An envelope with all the fields of a message that has no KEM ciphertext. -/
def envelopeItem (msg : Message wire) : Item :=
  .map [(.text (ascii "epoch"), .uint (.a64 msg.header.epoch.toUInt64)), (.text (ascii "msg_num"), .uint (.a64 msg.header.msgNum.toUInt64)),
    (.text (ascii "sender_ratchet_pub"), .bytes msg.header.senderRatchetPub.toList), (.text (ascii "iv"), .bytes msg.nonce.toList),
    (.text (ascii "ciphertext"), .bytes msg.ciphertext), (.text (ascii "tag"), .bytes msg.tag.toList)]

/-- A delivery frame from Alice with all its fields. -/
def frameItem (envelopeType : String) (envelope : Bytes) : Item :=
  .map [(.text (ascii "sender_id"), .bytes aliceId), (.text (ascii "cert_fingerprint"), .bytes [3]),
    (.text (ascii "sender_outbox_auth_cert"), .bytes [4]), (.text (ascii "envelope_type"), .text (ascii envelopeType)),
    (.text (ascii "encrypted_envelope"), .bytes envelope)]

theorem decryptRatchetEnvelope_envelopeItem (junk : Uninit) {msg : Message wire} (hprev : msg.header.prevCount = 0)
    (hkem : msg.header.kemCt = none) : decryptRatchetEnvelope Cbor.load junk (encode (envelopeItem msg)) = .ok msg := by
  obtain ⟨⟨epoch, msgNum, prevCount, pub, kemCt⟩, nonce, ciphertext, tag⟩ := msg
  cases hprev
  cases hkem
  unfold decryptRatchetEnvelope
  rw [load_loads.load_encode]
  have hpub := copyInto_toList junk.senderRatchetPub pub
  have hnonce := copyInto_toList junk.nonce nonce
  have htag := copyInto_toList junk.tag tag
  simp [envelopeItem, ratchetMessage, cborGetFieldUint, cborGetFieldBytes, getField, hpub, hnonce, htag]

def deliveryFrom (envelopeType : String) (envelope : Bytes) : DeliveryFrame where
  messageId := []
  persistence := []
  senderId := aliceId
  certFingerprint := [3]
  senderOutboxCert := [4]
  envelopeType := ascii envelopeType
  encryptedEnvelope := envelope

theorem decodeDeliveryFrame_frameItem (envelopeType : String) (envelope : Bytes) :
    decodeDeliveryFrame Cbor.load zeroed (encode (frameItem envelopeType envelope)) = .ok (deliveryFrom envelopeType envelope) := by
  have hload := load_loads.load_encode (frameItem envelopeType envelope)
  unfold frameItem at hload
  rw [frameItem, decodeDeliveryFrame_of_plain endsKeys_zeroed hload (by simpa [plainKey] using by decide)]
  simp [frameOfTexts, deliveryFrom, lastField, lastWith]

def dmWithAlice : Bytes := dmConvId (fit 32) (bytesToHex (fit 32 [2]).toList) (bytesToHex aliceId)

/-- Bob waits for the next message with this ratchet state, and has stored the messages with these ids. -/
structure Awaits (c : ClientState) (st : Ratchet.State wire) (ids : List Bytes) : Prop where
  contact : getContact c (bytesToHex aliceId) ≠ none
  keyA : getKeyA c.session = some [2]
  loads : (loadState Cbor.load c.session dmWithAlice).2 = .ok st
  stored : c.store.messages.map StoredMessage.id = ids

theorem getKeyA_apply (s : Session Keys) (convId : Bytes) (eff : Effect) : getKeyA (Effect.apply s convId eff) = getKeyA s := by
  cases eff with
  | nothing => rfl
  | cached st => rfl
  | written st =>
    show (s.keystore.db.map (Database.setRatchetState convId (serialize st))).bind (fun db => db.rest.keyA) = s.keystore.db.bind (fun db => db.rest.keyA)
    cases s.keystore.db with
    | none => rfl
    | some db => rfl

theorem resolveCert_deliveryFrom (c : ClientState) (envelopeType : String) (envelope : Bytes) (nowS : Int64) :
    ∃ certs, resolveCert c (deliveryFrom envelopeType envelope) nowS = some certs := by
  unfold resolveCert
  cases getCert c (deliveryFrom envelopeType envelope).certFingerprint with
  | some k => exact ⟨_, rfl⟩
  | none => exact ⟨_, if_neg (List.cons_ne_nil _ _)⟩

theorem cborGetFieldStr_messagePairs (id : Bytes) : cborGetFieldStr (messagePairs id) "type" = ascii "message" ∧
    cborGetFieldStr (messagePairs id) "id" = id := by
  constructor
  · simp [messagePairs, cborGetFieldStr, getField]
  · simp [messagePairs, cborGetFieldStr, getField]

theorem orderOf_messagePairs {id : Bytes} (hid : id ≠ []) : orderOf (ascii "message") (messagePairs id) = .insert id := by
  have hkind : ∃ kind ∈ storedKinds, ascii kind = ascii "message" := ⟨"message", List.mem_cons_self, rfl⟩
  unfold orderOf
  rw [if_neg (by decide), if_neg (by decide), if_pos hkind, (cborGetFieldStr_messagePairs id).2, if_neg hid]

/-- A new message is stored. -/
theorem stored_dispatchOpened {c : ClientState} {id : Bytes} (hid : id ≠ []) (hnew : id ∉ c.store.messages.map StoredMessage.id)
    (frame : DeliveryFrame) {p : Presentation} (hframe : p.frame ≠ []) (convId : Bytes) :
    (dispatchOpened Cbor.load c frame p convId (encode (messageItem id))).state.store.messages.map StoredMessage.id =
      c.store.messages.map StoredMessage.id ++ [id] := by
  obtain ⟨htype, hmsgId⟩ := cborGetFieldStr_messagePairs id
  obtain ⟨pushes, hr, _⟩ := dispatchPairs_obeys (d := ⟨convId, frame.senderId, p.frame, p.nowMs, p.junk.behindField⟩) hframe (ascii "message")
    (messagePairs id) c.store
  have hnew' : ¬∃ m ∈ c.store.messages, m.id = id := by
    rintro ⟨m, hm, hmid⟩
    exact hnew (hmid ▸ List.mem_map_of_mem hm)
  have hrows : c.store.messages.filterMap (Order.insert id).revise = c.store.messages := List.filterMap_some
  rw [orderOf_messagePairs hid] at hr
  unfold dispatchOpened receiveAppFrame dispatchAppFrame
  rw [load_loads.load_encode, messageItem]
  dsimp only
  rw [htype, hr]
  dsimp only [Order.added, Store.obey]
  rw [if_neg hnew', hrows, List.map_append, List.map_singleton]
  exact congrArg (fun i => c.store.messages.map StoredMessage.id ++ [i]) hmsgId

def fromAlice (id : Bytes) (envelopeType : String) (envelope : Bytes) : Presentation :=
  ⟨id, encode (frameItem envelopeType envelope), zeroed, 0, 0⟩

theorem openEnvelope_fromAlice {s : Session Keys} {st : Ratchet.State wire} (hkeyA : getKeyA s = some [2])
    (hst : (loadState Cbor.load s dmWithAlice).2 = .ok st) (junk : Uninit) {msg : Message wire} (hprev : msg.header.prevCount = 0)
    (hkem : msg.header.kemCt = none) :
    openEnvelope counting Cbor.load (fit 32) s junk (deliveryFrom "ratchet" (encode (envelopeItem msg))) =
      (Effect.apply s dmWithAlice (act counting (.ok st) (.decrypt dmWithAlice msg)).1,
        openedAs dmWithAlice (act counting (.ok st) (.decrypt dmWithAlice msg)).2) := by
  have htype : (deliveryFrom "ratchet" (encode (envelopeItem msg))).envelopeType = ascii "ratchet" := rfl
  unfold openEnvelope
  rw [if_pos htype]
  have hopen := openRatchetEnvelope_eq counting (fit 32) s junk (bytesToHex aliceId) (encode (envelopeItem msg)) hkeyA
    (decryptRatchetEnvelope_envelopeItem junk hprev hkem)
  have hid : dmConvId (fit 32) (bytesToHex (fit 32 [2]).toList) (bytesToHex aliceId) = dmWithAlice := rfl
  rw [hid, decrypt_eq, hst] at hopen
  exact hopen

/-- A message that opens is stored, one that does not is gone; the ratchet has moved on in both cases. -/
theorem Awaits.present {c : ClientState} {st : Ratchet.State wire} {ids : List Bytes} (h : Awaits c st ids) {p : Presentation}
    {msg : Message wire} (hjunk : p.junk = zeroed) (hframe : p.frame = encode (frameItem "ratchet" (encode (envelopeItem msg))))
    (hprev : msg.header.prevCount = 0) (hkem : msg.header.kemCt = none) :
    (∀ id st', (Ratchet.decrypt counting msg).run st = .ok (encode (messageItem id)) st' → id ≠ [] → id ∉ ids →
      Awaits (nextClient counting Cbor.load (fit 32) c (.present p)) st' (ids ++ [id])) ∧
    ∀ e st', (Ratchet.decrypt counting msg).run st = .error e st' →
      Awaits (nextClient counting Cbor.load (fit 32) c (.present p)) st' ids := by
  have hdecode : decodeDeliveryFrame Cbor.load p.junk p.frame = .ok (deliveryFrom "ratchet" (encode (envelopeItem msg))) := by
    rw [hjunk, hframe]
    exact decodeDeliveryFrame_frameItem "ratchet" (encode (envelopeItem msg))
  have hnonempty : p.frame ≠ [] := by
    rw [hframe]
    exact encode_ne_nil _
  obtain ⟨certs, hcerts⟩ := resolveCert_deliveryFrom c "ratchet" (encode (envelopeItem msg)) p.nowS
  have hopen := openEnvelope_fromAlice h.keyA h.loads p.junk hprev hkem
  have hcontact : getContact c (bytesToHex (deliveryFrom "ratchet" (encode (envelopeItem msg))).senderId) ≠ none := h.contact
  have hnext : nextClient counting Cbor.load (fit 32) c (.present p) =
      (processFromContact counting Cbor.load (fit 32) c (deliveryFrom "ratchet" (encode (envelopeItem msg))) p).state :=
    congrArg Received.state (processDeliveryFrame_of_contact hdecode hcontact)
  unfold processFromContact at hnext
  rw [hcerts, hopen] at hnext
  constructor
  · intro id st' hrun hid hnew
    have hact : act counting (.ok st) (.decrypt dmWithAlice msg) = (.written st', .ok (.plaintext (encode (messageItem id)))) := by
      unfold act
      dsimp only
      rw [hrun]
    rw [hact] at hnext
    dsimp only [openedAs] at hnext
    have hstored := stored_dispatchOpened (c := { c with certs := certs, session := Effect.apply c.session dmWithAlice (.written st') })
      hid (h.stored.symm ▸ hnew) (deliveryFrom "ratchet" (encode (envelopeItem msg))) hnonempty dmWithAlice
    obtain ⟨hcontacts, _, hsession⟩ := dispatchOpened_rest Cbor.load
      { c with certs := certs, session := Effect.apply c.session dmWithAlice (.written st') }
      (deliveryFrom "ratchet" (encode (envelopeItem msg))) p dmWithAlice (encode (messageItem id))
    rw [← hnext] at hstored hcontacts hsession
    refine ⟨?_, ?_, ?_, ?_⟩
    · unfold getContact
      rw [hcontacts]
      exact h.contact
    · rw [hsession, getKeyA_apply]
      exact h.keyA
    · rw [hsession]
      exact loadState_apply_self (Or.inl rfl)
    · rw [hstored, h.stored]
  · intro e st' hrun
    have hact : act counting (.ok st) (.decrypt dmWithAlice msg) = (.cached st', .error (.ratchet e)) := by
      unfold act
      dsimp only
      rw [hrun]
    rw [hact] at hnext
    dsimp only [openedAs] at hnext
    rw [hnext]
    exact ⟨h.contact, (getKeyA_apply c.session dmWithAlice (.cached st')).trans h.keyA, loadState_apply_self (Or.inr rfl), h.stored⟩

end ScatterWeb.Client
