import ScatterWeb.Client.Receive

/-! # Encoders whose map is a pair short

`encode_delivery_frame` and `encrypt_sender_key_envelope` count the fields of their map by hand, and both count one too few.
`cbor_map_add` leaves a full map as it is and its result is not looked at, so the last field is lost: the envelope of a
delivery frame, the tag of a sender-key envelope. The readers take an empty value, or zeros, for what they do not find. -/
namespace ScatterWeb.Client
open Crypto Lib Lib.Cbor Mailbox
set_option autoImplicit false

/-! ## Delivery frames -/

/-- A delivery frame whose keys are compared by content comes back as it was exactly when its envelope is empty. -/
theorem delivery_frame_round_trip_iff {load : Bytes → Option Item} (hload : Loads load) {junk : Uninit} (hjunk : junk.EndsKeys)
    (f : DeliveryFrame) (hpersistence : 0 ∉ f.persistence) (htype : 0 ∉ f.envelopeType) :
    decodeDeliveryFrame load junk (encodeDeliveryFrame f) = .ok f ↔ f.encryptedEnvelope = [] := by
  rw [decodeDeliveryFrame_encodeDeliveryFrame hload hjunk, cStr_of_nulFree hpersistence, cStr_of_nulFree htype]
  constructor
  · intro h
    have henvelope := congrArg DeliveryFrame.encryptedEnvelope (Except.ok.inj h)
    exact henvelope.symm
  · intro h
    rw [← h]

/-- A frame as the Client builds it, with the certificate of its outbox. -/
def certifiedFrame : DeliveryFrame where
  messageId := [1]
  persistence := ascii "persistent"
  senderId := [2]
  certFingerprint := [3]
  senderOutboxCert := [4]
  envelopeType := ascii "ratchet"
  encryptedEnvelope := [5]

theorem delivery_frame_round_trip_iff_certifiedFrame :
    decodeDeliveryFrame load zeroed (encodeDeliveryFrame certifiedFrame) = .ok certifiedFrame ↔ certifiedFrame.encryptedEnvelope = [] :=
  delivery_frame_round_trip_iff load_loads endsKeys_zeroed certifiedFrame (by decide) (by decide)

def FramesComeBack (load : Bytes → Option Item) : Prop :=
  ∀ (junk : Uninit) (f : DeliveryFrame), junk.EndsKeys → 0 ∉ f.persistence → 0 ∉ f.envelopeType →
    decodeDeliveryFrame load junk (encodeDeliveryFrame f) = .ok f

theorem not_framesComeBack_certifiedFrame : ¬ FramesComeBack load := by
  intro h
  have hf := h zeroed certifiedFrame endsKeys_zeroed (by decide) (by decide)
  rw [decodeDeliveryFrame_encodeDeliveryFrame load_loads endsKeys_zeroed] at hf
  have henvelope := congrArg DeliveryFrame.encryptedEnvelope (Except.ok.inj hf)
  exact absurd henvelope (by decide)

/-! ## Sender-key envelopes -/

/-- The exceptions of the two functions; `what` is the text of each. -/
inductive SenderKeyError
  | locked
  | noSenderKeyForGroup (groupId : Bytes)
  | invalid
  | noSenderKey
  | generationMismatch
  | authFailed
  /-- `cbor_map_handle` of an item that is not a map: undefined. -/
  | notMap
  deriving DecidableEq

def SenderKeyError.what : SenderKeyError → Bytes
  | .locked => ascii "keystore locked"
  | .noSenderKeyForGroup groupId => ascii "no sender key for group " ++ groupId
  | .invalid => ascii "invalid sender_key envelope"
  | .noSenderKey => ascii "no sender key"
  | .generationMismatch => ascii "sender key generation mismatch"
  | .authFailed => ascii "AES-256-GCM authentication failed"
  | .notMap => []

section Envelopes
variable (P : Primitives wire) (load : Bytes → Option Item) (sha3 : Bytes → ByteArr 32)

def senderKeyEnvelope (groupId : Bytes) (myId : ByteArr 32) (generation : UInt32) (nonce : ByteArr 12) (enc : Bytes × ByteArr 16) : DefMap :=
  let root := DefMap.new 7
  let root := mapAddUint root "version" 1
  let root := mapAddStr root "envelope_type" (ascii "sender_key")
  let root := mapAddStr root "group_id" groupId
  let root := mapAddBytes root "sender_id" myId.toList
  let root := mapAddUint root "sender_key_generation" generation.toUInt64
  let root := mapAddBytes root "iv" nonce.toList
  let root := mapAddBytes root "ciphertext" enc.1
  mapAddBytes root "tag" enc.2.toList

/-- `nonce` is the draw of `aes_encrypt`. -/
def encryptSenderKeyEnvelope (s : Session Keys) (nonce : ByteArr 12) (groupId appFrame : Bytes) : Except SenderKeyError Bytes :=
  match getKeyA s with
  | none => .error .locked
  | some pub =>
    let myId := sha3 pub
    match getSenderKey s groupId (bytesToHex myId.toList) with
    | none => .error (.noSenderKeyForGroup groupId)
    | some sk => .ok (cborSer (senderKeyEnvelope groupId myId sk.generation nonce (P.aes.encrypt sk.symKey nonce appFrame [])))

/-- `decrypt_sender_key_envelope` from the bytes on, with its exceptions. -/
def decryptSenderKeyEnvelopeBytes (s : Session Keys) (junk : Uninit) (groupId senderHex envelope : Bytes) : Except SenderKeyError Bytes :=
  match load envelope with
  | none => .error .invalid
  | some (.map kvs) =>
    match getSenderKey s groupId senderHex with
    | none => .error .noSenderKey
    | some sk =>
      if sk.generation ≠ (cborGetFieldUint junk.behindField kvs "sender_key_generation").toUInt32 then .error .generationMismatch
      else
        let nonce := copyInto (List.Vector.replicate 12 0) (cborGetFieldBytes kvs "iv")
        let tag := copyInto (List.Vector.replicate 16 0) (cborGetFieldBytes kvs "tag")
        match P.aes.decrypt sk.symKey nonce (cborGetFieldBytes kvs "ciphertext") tag [] with
        | some plain => .ok plain
        | none => .error .authFailed
  | some _ => .error .notMap

end Envelopes

section Opening
variable {P : Primitives wire} {load : Bytes → Option Item} {sha3 : Bytes → ByteArr 32} {s r : Session Keys}
  {junk : Uninit} {nonce : ByteArr 12} {groupId senderHex appFrame envelope pub : Bytes} {sk sk' : SenderKey}

/-- The receive flow reads the map once and goes on from its pairs. -/
theorem decryptSenderKeyEnvelope_eq {kvs : List (Item × Item)} (h : load envelope = some (.map kvs)) :
    decryptSenderKeyEnvelope P s junk groupId senderHex kvs = (decryptSenderKeyEnvelopeBytes P load s junk groupId senderHex envelope).toOption := by
  unfold decryptSenderKeyEnvelope decryptSenderKeyEnvelopeBytes
  rw [h]
  dsimp only
  cases getSenderKey s groupId senderHex with
  | none => rfl
  | some sk =>
    dsimp only
    split_ifs
    · rfl
    · cases P.aes.decrypt sk.symKey (copyInto (List.Vector.replicate 12 0) (cborGetFieldBytes kvs "iv"))
        (cborGetFieldBytes kvs "ciphertext") (copyInto (List.Vector.replicate 16 0) (cborGetFieldBytes kvs "tag")) [] <;> rfl

theorem senderKeyEnvelope_pairs (groupId : Bytes) (myId : ByteArr 32) (generation : UInt32) (nonce : ByteArr 12) (enc : Bytes × ByteArr 16) :
    (senderKeyEnvelope groupId myId generation nonce enc).pairs =
    [(.text (ascii "version"), .uint (.a64 1)), (.text (ascii "envelope_type"), .text (cStr (ascii "sender_key"))),
      (.text (ascii "group_id"), .text (cStr groupId)), (.text (ascii "sender_id"), .bytes myId.toList),
      (.text (ascii "sender_key_generation"), .uint (.a64 generation.toUInt64)),
      (.text (ascii "iv"), .bytes nonce.toList), (.text (ascii "ciphertext"), .bytes enc.1)] := by
  simp [senderKeyEnvelope, mapAddUint, mapAddStr, mapAddBytes, DefMap.add_pairs]

def zeroTag : ByteArr 16 := List.Vector.replicate 16 0

/-- The generation is compared, and the ciphertext is opened with a tag of zeros. -/
theorem decrypt_senderKeyEnvelope (hload : Loads load) (myId : ByteArr 32) (generation : UInt32) (enc : Bytes × ByteArr 16)
    (hkey : getSenderKey r groupId senderHex = some sk') :
    decryptSenderKeyEnvelopeBytes P load r junk groupId senderHex (cborSer (senderKeyEnvelope groupId myId generation nonce enc)) =
      if sk'.generation ≠ generation then .error .generationMismatch
      else
        match P.aes.decrypt sk'.symKey nonce enc.1 zeroTag [] with
        | some plain => .ok plain
        | none => .error .authFailed := by
  have hmap : load (cborSer (senderKeyEnvelope groupId myId generation nonce enc)) =
      some (.map (senderKeyEnvelope groupId myId generation nonce enc).pairs) := hload.load_encode _
  have hpairs := senderKeyEnvelope_pairs groupId myId generation nonce enc
  have hgen : (cborGetFieldUint junk.behindField (senderKeyEnvelope groupId myId generation nonce enc).pairs "sender_key_generation").toUInt32 =
      generation := by
    rw [hpairs]
    simp [cborGetFieldUint, getField]
  have hiv : cborGetFieldBytes (senderKeyEnvelope groupId myId generation nonce enc).pairs "iv" = nonce.toList := by
    rw [hpairs]
    simp [cborGetFieldBytes, getField]
  have hct : cborGetFieldBytes (senderKeyEnvelope groupId myId generation nonce enc).pairs "ciphertext" = enc.1 := by
    rw [hpairs]
    simp [cborGetFieldBytes, getField]
  have htag : cborGetFieldBytes (senderKeyEnvelope groupId myId generation nonce enc).pairs "tag" = [] := by
    rw [hpairs]
    simp [cborGetFieldBytes, getField]
  unfold decryptSenderKeyEnvelopeBytes
  rw [hmap, hkey]
  dsimp only
  rw [hgen, hiv, hct, htag, copyInto_toList, copyInto_of_ne _ (by decide)]
  rfl

/-- What members of a group may expect: whoever holds the sender's record reads the app frame, and whoever holds a record of
another generation gets an exception. -/
def GroupReadable (P : Primitives wire) (load : Bytes → Option Item) (sha3 : Bytes → ByteArr 32) (s : Session Keys)
    (nonce : ByteArr 12) (groupId appFrame pub : Bytes) (sk : SenderKey) : Prop :=
  ∃ envelope, encryptSenderKeyEnvelope P sha3 s nonce groupId appFrame = .ok envelope ∧
    ∀ (r : Session Keys) (junk : Uninit) (sk' : SenderKey), getSenderKey r groupId (bytesToHex (sha3 pub).toList) = some sk' →
      (sk' = sk → decryptSenderKeyEnvelopeBytes P load r junk groupId (bytesToHex (sha3 pub).toList) envelope = .ok appFrame) ∧
      (sk'.generation ≠ sk.generation →
        ∃ e, decryptSenderKeyEnvelopeBytes P load r junk groupId (bytesToHex (sha3 pub).toList) envelope = .error e)

theorem encryptSenderKeyEnvelope_ok (hpub : getKeyA s = some pub)
    (hsk : getSenderKey s groupId (bytesToHex (sha3 pub).toList) = some sk) :
    encryptSenderKeyEnvelope P sha3 s nonce groupId appFrame =
      .ok (cborSer (senderKeyEnvelope groupId (sha3 pub) sk.generation nonce (P.aes.encrypt sk.symKey nonce appFrame []))) := by
  unfold encryptSenderKeyEnvelope
  rw [hpub]
  dsimp only
  rw [hsk]

theorem decrypt_encryptSenderKeyEnvelope (hload : Loads load) (hpub : getKeyA s = some pub)
    (hsk : getSenderKey s groupId (bytesToHex (sha3 pub).toList) = some sk)
    (hsk' : getSenderKey r groupId (bytesToHex (sha3 pub).toList) = some sk')
    (henv : encryptSenderKeyEnvelope P sha3 s nonce groupId appFrame = .ok envelope) :
    decryptSenderKeyEnvelopeBytes P load r junk groupId (bytesToHex (sha3 pub).toList) envelope =
      if sk'.generation ≠ sk.generation then .error .generationMismatch
      else
        match P.aes.decrypt sk'.symKey nonce (P.aes.encrypt sk.symKey nonce appFrame []).1 zeroTag [] with
        | some plain => .ok plain
        | none => .error .authFailed := by
  rw [encryptSenderKeyEnvelope_ok hpub hsk] at henv
  rw [← Except.ok.inj henv]
  exact decrypt_senderKeyEnvelope hload (sha3 pub) sk.generation (P.aes.encrypt sk.symKey nonce appFrame []) hsk'

/-- The sender itself holds the record, so it could read its own envelope. -/
theorem GroupReadable.tag_eq (hload : Loads load) (hauthentic : P.aes.TagAuthentic) (hpub : getKeyA s = some pub)
    (hsk : getSenderKey s groupId (bytesToHex (sha3 pub).toList) = some sk)
    (h : GroupReadable P load sha3 s nonce groupId appFrame pub sk) : (P.aes.encrypt sk.symKey nonce appFrame []).2 = zeroTag := by
  obtain ⟨envelope, henv, hread⟩ := h
  have hself := (hread s zeroed sk hsk).1 rfl
  rw [decrypt_encryptSenderKeyEnvelope hload hpub hsk hsk henv, if_neg (by simp)] at hself
  by_contra htag
  rw [hauthentic _ _ _ _ _ (Ne.symm htag)] at hself
  cases hself

/-- An envelope can be read exactly when AES-GCM happens to make a tag of zeros for the app frame. -/
theorem sender_key_envelope_round_trip_iff (hload : Loads load) (hcorrect : P.aes.Correct) (hauthentic : P.aes.TagAuthentic)
    (hpub : getKeyA s = some pub) (hsk : getSenderKey s groupId (bytesToHex (sha3 pub).toList) = some sk) :
    GroupReadable P load sha3 s nonce groupId appFrame pub sk ↔ (P.aes.encrypt sk.symKey nonce appFrame []).2 = zeroTag := by
  constructor
  · exact GroupReadable.tag_eq hload hauthentic hpub hsk
  · intro htag
    refine ⟨_, encryptSenderKeyEnvelope_ok hpub hsk, ?_⟩
    intro r junk sk' hsk'
    rw [decrypt_encryptSenderKeyEnvelope hload hpub hsk hsk' (encryptSenderKeyEnvelope_ok hpub hsk)]
    constructor
    · rintro rfl
      have hopen := hcorrect.decrypt_encrypt sk'.symKey nonce appFrame []
      rw [htag] at hopen
      rw [if_neg (by simp), hopen]
    · intro hgen
      rw [if_pos hgen]
      exact ⟨_, rfl⟩

end Opening

/-- A member of group `[103]` with its own sender key, in its first generation. -/
def memberKeys : Keys := ⟨some [2], (∅ : AList (fun _ : Bytes => SenderKey)).insert (cStr ([103] ++ ascii ":" ++ bytesToHex (fit 32 [2]).toList)) ⟨fit 32 [7], 1⟩⟩

def groupMember : Session Keys := { keystore := { db := some ⟨∅, memberKeys⟩ } }

theorem getSenderKey_groupMember : getSenderKey groupMember [103] (bytesToHex (fit 32 [2]).toList) = some ⟨fit 32 [7], 1⟩ := by
  show memberKeys.senderKeys.lookup (cStr ([103] ++ ascii ":" ++ bytesToHex (fit 32 [2]).toList)) = _
  unfold memberKeys
  rw [AList.lookup_insert]

theorem sender_key_envelope_round_trip_iff_groupMember :
    GroupReadable padding Cbor.load (fit 32) groupMember (fit 12 [1]) [103] [67] [2] ⟨fit 32 [7], 1⟩ ↔
      (padding.aes.encrypt (fit 32 [7]) (fit 12 [1]) [67] []).2 = zeroTag :=
  sender_key_envelope_round_trip_iff load_loads checksumAes_correct checksumAes_tagAuthentic rfl getSenderKey_groupMember

def GroupsReadable (P : Primitives wire) (load : Bytes → Option Item) (sha3 : Bytes → ByteArr 32) : Prop :=
  ∀ (s : Session Keys) (nonce : ByteArr 12) (groupId appFrame pub : Bytes) (sk : SenderKey), 0 ∉ groupId → getKeyA s = some pub →
    getSenderKey s groupId (bytesToHex (sha3 pub).toList) = some sk → GroupReadable P load sha3 s nonce groupId appFrame pub sk

/-- The member cannot read its own message. -/
theorem not_groupsReadable_groupMember : ¬ GroupsReadable padding Cbor.load (fit 32) := by
  intro h
  have hread := h groupMember (fit 12 [1]) [103] [67] [2] ⟨fit 32 [7], 1⟩ (by decide) rfl getSenderKey_groupMember
  have htag : checksum (fit 32 [7]) (fit 12 [1]) [67] [] = zeroTag :=
    hread.tag_eq load_loads checksumAes_tagAuthentic rfl getSenderKey_groupMember
  exact absurd htag (by decide +kernel)

end ScatterWeb.Client
