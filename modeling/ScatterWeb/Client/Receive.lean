import ScatterWeb.Client.AppFrame
import ScatterWeb.Client.Coherence
import ScatterWeb.Client.DeliveryFrame
import ScatterWeb.Mailbox.Frames

/-! # Receiving: `process_delivery_frame`

A frame from the inbox is decoded, its sender must be a contact, its certificate known or enclosed, its envelope must open, and
the app frame inside is dispatched. Only then the inbox is told that it may forget the message. A frame that is dropped on the
way is not acknowledged, so it will be presented again. An item that is not a map where one is expected is read as one by the
source, which is undefined; here such a frame is dropped.

`decode_delivery_frame` compares each key with `strcmp`, whatever its type. `cbor_load` does not end a string with a NUL, so what
follows it in memory decides: a text can be taken for another one that it begins, or for none. The key may be a byte
string or a number as well, and a key without data is a null pointer, which ends the process. -/
namespace ScatterWeb.Client
open Crypto Lib Lib.Cbor Ratchet Mailbox
set_option autoImplicit false

structure Contact where
  id : Bytes
  displayName : Bytes
  keyAPubkey : Bytes
  status : Bytes
  deriving DecidableEq

structure KnownCert where
  fingerprint : Bytes
  authCert : Bytes
  ownerId : Bytes
  cachedAt : Int64
  deriving DecidableEq

structure SenderKey where
  symKey : ByteArr 32
  generation : UInt32
  deriving DecidableEq

/-- The other tables of the keystore that are read here: the public half of Key A, and the sender keys by their compound id. -/
structure Keys where
  keyA : Option Bytes
  senderKeys : AList (fun _ : Bytes => SenderKey)

structure ClientState where
  store : Store
  contacts : List Contact
  certs : List KnownCert
  session : Session Keys

/-- One call of `process_delivery_frame`, with what it finds in memory and on the clock. -/
structure Presentation where
  messageId : Bytes
  frame : Bytes
  junk : Uninit
  nowS : Int64
  nowMs : Int64

/-- What a call leaves, the events for the user interface, and whether `inbox.ack` is called. A call that crashes is the last one of
its process. -/
structure Received where
  state : ClientState
  pushes : List Push := []
  acked : Bool := false
  crashed : Bool := false

inductive DecodeError
  /-- The exception with the text "invalid delivery_frame CBOR". -/
  | invalid
  /-- `strcmp` of a null pointer. -/
  | nullKey
  deriving DecidableEq

/-! ## Parts -/

section Parts
variable (P : Primitives wire) (load : Bytes → Option Item) (sha3 : Bytes → ByteArr 32) (s : Session Keys)

/-- The memory that `cbor_string_handle` points to for the key of a pair, by the position of the pair. Tags and simple values have
no data. -/
def keyHandle (junk : Uninit) (i : ℕ) : Item → Option Bytes
  | .text b => some (b ++ junk.behindKey i)
  | .bytes b => some (b ++ junk.behindKey i)
  | .uint a => some (nativeBytes a ++ junk.behindKey i)
  | .negint a => some (nativeBytes a ++ junk.behindKey i)
  | .tag _ _ => none
  | .prim (.bool _) => none
  | .prim .null => none
  | .prim .undefined => none
  | _ => junk.foreignKey i

/-- `strcmp(k, expected) == 0`. -/
def strcmpEq (k : Bytes) (expected : String) : Bool := (ascii expected ++ [0]).isPrefixOf k

/-- Every value with the memory of its key, unless a key has none. -/
def keyedPairs (junk : Uninit) : ℕ → List (Item × Item) → Option (List (Bytes × Item))
  | _, [] => some []
  | i, kv :: kvs => (keyHandle junk i kv.1).bind (fun k => (keyedPairs junk (i + 1) kvs).map (fun rest => (k, kv.2) :: rest))

/-- The last pair wins whose key `strcmp` takes for the name. -/
def frameField {α : Type} (read : Item → Option α) (pairs : List (Bytes × Item)) (key : String) : Option α :=
  lastWith (fun k => strcmpEq k key) read pairs

def deliveryFrameOf (pairs : List (Bytes × Item)) : DeliveryFrame where
  messageId := (frameField asBytes pairs "message_id").getD []
  persistence := (frameField asText pairs "persistence").getD []
  senderId := (frameField asBytes pairs "sender_id").getD []
  certFingerprint := (frameField asBytes pairs "cert_fingerprint").getD []
  senderOutboxCert := (frameField asBytes pairs "sender_outbox_auth_cert").getD []
  envelopeType := (frameField asText pairs "envelope_type").getD []
  encryptedEnvelope := (frameField asBytes pairs "encrypted_envelope").getD []

def decodeDeliveryFrame (junk : Uninit) (data : Bytes) : Except DecodeError DeliveryFrame :=
  match load data with
  | some (.map kvs) =>
    match keyedPairs junk 0 kvs with
    | none => .error .nullKey
    | some pairs => .ok (deliveryFrameOf pairs)
  | _ => .error .invalid

def getKeyA : Option Bytes := s.keystore.db.bind (fun db => db.rest.keyA)

def getSenderKey (groupId contactId : Bytes) : Option SenderKey :=
  s.keystore.db.bind (fun db => db.rest.senderKeys.lookup (cStr (groupId ++ ascii ":" ++ contactId)))

/-- The id of the conversation of two parties, the same for both. -/
def dmConvId (myHex senderHex : Bytes) : Bytes :=
  let a := if senderHex < myHex then senderHex else myHex
  let b := if senderHex < myHex then myHex else senderHex
  bytesToHex (sha3 (ascii "dm:" ++ a ++ ascii ":" ++ b)).toList

def openRatchetEnvelope (junk : Uninit) (senderHex envelope : Bytes) : Session Keys × Option (Bytes × Bytes) :=
  match getKeyA s with
  | none => (s, none)
  | some pub =>
    let convId := dmConvId sha3 (bytesToHex (sha3 pub).toList) senderHex
    match decryptRatchetEnvelope load junk envelope with
    | .error _ => (s, none)
    | .ok msg =>
      match decrypt P load s convId msg with
      | (s, .ok (.plaintext plain)) => (s, some (convId, plain))
      | (s, _) => (s, none)

def decryptSenderKeyEnvelope (junk : Uninit) (groupId senderHex : Bytes) (kvs : List (Item × Item)) : Option Bytes :=
  match getSenderKey s groupId senderHex with
  | none => none
  | some sk =>
    if sk.generation ≠ (cborGetFieldUint junk.behindField kvs "sender_key_generation").toUInt32 then none
    else
      let nonce := copyInto (List.Vector.replicate 12 0) (cborGetFieldBytes kvs "iv")
      let tag := copyInto (List.Vector.replicate 16 0) (cborGetFieldBytes kvs "tag")
      P.aes.decrypt sk.symKey nonce (cborGetFieldBytes kvs "ciphertext") tag []

def openSenderKeyEnvelope (junk : Uninit) (senderHex envelope : Bytes) : Option (Bytes × Bytes) :=
  match load envelope with
  | some (.map kvs) =>
    let groupId := cborGetFieldStr kvs "group_id"
    (decryptSenderKeyEnvelope P s junk groupId senderHex kvs).map (fun plain => (groupId, plain))
  | _ => none

/-- Step 5: the conversation and the app frame, or nothing. -/
def openEnvelope (junk : Uninit) (frame : DeliveryFrame) : Session Keys × Option (Bytes × Bytes) :=
  if frame.envelopeType = ascii "ratchet" then
    openRatchetEnvelope P load sha3 s junk (bytesToHex frame.senderId) frame.encryptedEnvelope
  else if frame.envelopeType = ascii "sender_key" then
    (s, openSenderKeyEnvelope P load s junk (bytesToHex frame.senderId) frame.encryptedEnvelope)
  else (s, none)

end Parts

/-! ### Keys in memory -/

/-- A NUL follows every key in memory. -/
def Uninit.EndsKeys (junk : Uninit) : Prop := ∀ i, (junk.behindKey i).head? = some 0

theorem endsKeys_zeroed : zeroed.EndsKeys := fun _ => rfl

theorem cStr_append_zero {b : Bytes} (h : 0 ∉ b) (rest : Bytes) : cStr (b ++ 0 :: rest) = b := by
  unfold cStr
  induction b with
  | nil => rfl
  | cons c b ih =>
    simp only [List.mem_cons, not_or] at h
    rw [List.cons_append, List.takeWhile_cons, if_pos (by simpa using Ne.symm h.1), ih h.2]

/-- A text whose end is marked is compared by its content. -/
theorem strcmpEq_of_endsKeys {junk : Uninit} (h : junk.EndsKeys) (i : ℕ) {b : Bytes} (hb : 0 ∉ b) {key : String} (hkey : 0 ∉ ascii key) :
    strcmpEq (b ++ junk.behindKey i) key = decide (b = ascii key) := by
  obtain ⟨rest, hrest⟩ := List.head?_eq_some_iff.mp (h i)
  unfold strcmpEq
  rw [hrest, Bool.eq_iff_iff, List.isPrefixOf_iff_prefix, decide_eq_true_iff]
  constructor
  · rintro ⟨tail, htail⟩
    rw [List.append_assoc, List.singleton_append] at htail
    have hcut := congrArg cStr htail
    rw [cStr_append_zero hkey, cStr_append_zero hb] at hcut
    exact hcut.symm
  · rintro rfl
    exact ⟨rest, by rw [List.append_assoc, List.singleton_append]⟩

/-- Whatever follows a key, it is not taken for a name that neither begins it nor goes on from it. -/
theorem strcmpEq_of_apart {b : Bytes} {key : String} (behind : Bytes) (h : ¬ascii key <+: b) (h' : ¬b <+: ascii key) :
    strcmpEq (b ++ behind) key = false := by
  unfold strcmpEq
  rw [Bool.eq_false_iff, Ne, List.isPrefixOf_iff_prefix]
  intro hprefix
  rcases List.prefix_or_prefix_of_prefix ((List.prefix_append _ _).trans hprefix) (List.prefix_append b behind) with hle | hle
  · exact h hle
  · exact h' hle

/-- The key is a text without a NUL. -/
def plainKey : Item → Bool
  | .text b => decide (0 ∉ b)
  | _ => false

theorem plainKey_iff {key : Item} : plainKey key = true ↔ ∃ b, key = .text b ∧ 0 ∉ b := by
  constructor
  · intro h
    cases key with
    | text b => exact ⟨b, rfl, of_decide_eq_true h⟩
    | _ => cases h
  · rintro ⟨b, rfl, hb⟩
    exact decide_eq_true hb

/-- Texts that end with a NUL in memory are keys that are compared by their content. -/
theorem frameField_of_plain {junk : Uninit} (h : junk.EndsKeys) {kvs : List (Item × Item)} (hplain : ∀ kv ∈ kvs, plainKey kv.1 = true) (i : ℕ) :
    ∃ pairs, keyedPairs junk i kvs = some pairs ∧ ∀ {α : Type} (read : Item → Option α) {key : String}, 0 ∉ ascii key →
      frameField read pairs key = lastField read kvs key := by
  have hfold : ∀ (kvs : List (Item × Item)) (i : ℕ), (∀ kv ∈ kvs, plainKey kv.1 = true) → ∃ pairs, keyedPairs junk i kvs = some pairs ∧
      ∀ {α : Type} (read : Item → Option α) {key : String} (cur : Option α), 0 ∉ ascii key →
        pairs.foldl (fun cur kv => if strcmpEq kv.1 key then (read kv.2).or cur else cur) cur =
          kvs.foldl (fun cur kv => if textKey kv.1 key then (read kv.2).or cur else cur) cur := by
    intro kvs
    induction kvs with
    | nil => exact fun i _ => ⟨[], rfl, fun _ _ _ _ => rfl⟩
    | cons kv kvs ih =>
      obtain ⟨k, v⟩ := kv
      intro i hplain
      obtain ⟨b, rfl, hb⟩ := plainKey_iff.mp (hplain (k, v) List.mem_cons_self)
      obtain ⟨pairs, hpairs, hsame⟩ := ih (i + 1) (fun kv hkv => hplain kv (List.mem_cons_of_mem _ hkv))
      refine ⟨(b ++ junk.behindKey i, v) :: pairs, ?_, ?_⟩
      · simp only [keyedPairs, keyHandle, Option.bind_some, hpairs, Option.map_some]
      · intro α read key cur hkey
        rw [List.foldl_cons, List.foldl_cons, hsame read _ hkey]
        dsimp only
        rw [strcmpEq_of_endsKeys h i hb hkey, textKey_text]
  obtain ⟨pairs, hpairs, hsame⟩ := hfold kvs i hplain
  exact ⟨pairs, hpairs, fun read _ hkey => hsame read none hkey⟩

/-- A name that neither begins a key nor goes on from it is not found, whatever is in memory. -/
theorem frameField_of_apart (junk : Uninit) {kvs : List (Item × Item)} {key : String}
    (hapart : ∀ kv ∈ kvs, ∃ b, kv.1 = .text b ∧ ¬ascii key <+: b ∧ ¬b <+: ascii key) (i : ℕ) :
    ∃ pairs, keyedPairs junk i kvs = some pairs ∧ ∀ {α : Type} (read : Item → Option α), frameField read pairs key = none := by
  have hkeys : ∀ (kvs : List (Item × Item)) (i : ℕ), (∀ kv ∈ kvs, ∃ b, kv.1 = .text b ∧ ¬ascii key <+: b ∧ ¬b <+: ascii key) →
      ∃ pairs, keyedPairs junk i kvs = some pairs ∧ ∀ e ∈ pairs, strcmpEq e.1 key = false := by
    intro kvs
    induction kvs with
    | nil => exact fun i _ => ⟨[], rfl, fun e he => absurd he List.not_mem_nil⟩
    | cons kv kvs ih =>
      obtain ⟨k, v⟩ := kv
      intro i hapart
      obtain ⟨b, rfl, h, h'⟩ := hapart (k, v) List.mem_cons_self
      obtain ⟨pairs, hpairs, hrest⟩ := ih (i + 1) (fun kv hkv => hapart kv (List.mem_cons_of_mem _ hkv))
      refine ⟨(b ++ junk.behindKey i, v) :: pairs, ?_, List.forall_mem_cons.mpr ⟨strcmpEq_of_apart _ h h', hrest⟩⟩
      simp only [keyedPairs, keyHandle, Option.bind_some, hpairs, Option.map_some]
  obtain ⟨pairs, hpairs, hnone⟩ := hkeys kvs i hapart
  refine ⟨pairs, hpairs, ?_⟩
  intro α read
  rw [Option.eq_none_iff_forall_ne_some]
  intro a ha
  obtain ⟨e, he, hkey, _⟩ := mem_of_lastWith ha
  rw [hnone e he] at hkey
  cases hkey

section Decoding
variable {load : Bytes → Option Item} {junk : Uninit}

/-- The frame whose keys are compared by content. -/
def frameOfTexts (kvs : List (Item × Item)) : DeliveryFrame where
  messageId := (lastField asBytes kvs "message_id").getD []
  persistence := (lastField asText kvs "persistence").getD []
  senderId := (lastField asBytes kvs "sender_id").getD []
  certFingerprint := (lastField asBytes kvs "cert_fingerprint").getD []
  senderOutboxCert := (lastField asBytes kvs "sender_outbox_auth_cert").getD []
  envelopeType := (lastField asText kvs "envelope_type").getD []
  encryptedEnvelope := (lastField asBytes kvs "encrypted_envelope").getD []

theorem decodeDeliveryFrame_of_plain (hjunk : junk.EndsKeys) {data : Bytes} {kvs : List (Item × Item)} (hload : load data = some (.map kvs))
    (hplain : ∀ kv ∈ kvs, plainKey kv.1 = true) : decodeDeliveryFrame load junk data = .ok (frameOfTexts kvs) := by
  obtain ⟨pairs, hpairs, hsame⟩ := frameField_of_plain hjunk hplain 0
  unfold decodeDeliveryFrame
  rw [hload]
  dsimp only
  rw [hpairs]
  dsimp only
  unfold deliveryFrameOf frameOfTexts
  rw [hsame asBytes (by decide), hsame asText (by decide), hsame asBytes (by decide), hsame asBytes (by decide), hsame asBytes (by decide),
    hsame asText (by decide), hsame asBytes (by decide)]

theorem plain_deliveryFrameMap (f : DeliveryFrame) : ∀ kv ∈ (deliveryFrameMap f).pairs, plainKey kv.1 = true := by
  have hnulFree : ∀ k ∈ deliveryFrameKeys, 0 ∉ ascii k := by decide
  intro kv hkv
  obtain ⟨k, hk, heq⟩ := keys_deliveryFrameMap f kv hkv
  rw [heq]
  exact decide_eq_true (hnulFree k hk)

/-- What comes back of a delivery frame: strings up to their first NUL byte, and no envelope. -/
theorem decodeDeliveryFrame_encodeDeliveryFrame (hload : Loads load) (hjunk : junk.EndsKeys) (f : DeliveryFrame) :
    decodeDeliveryFrame load junk (encodeDeliveryFrame f) =
      .ok { f with persistence := cStr f.persistence, envelopeType := cStr f.envelopeType, encryptedEnvelope := [] } := by
  have hmap : load (encodeDeliveryFrame f) = some (.map (deliveryFrameMap f).pairs) := hload.load_encode _
  rw [decodeDeliveryFrame_of_plain hjunk hmap (plain_deliveryFrameMap f)]
  unfold frameOfTexts
  rw [deliveryFrameMap_pairs]
  by_cases hcert : f.senderOutboxCert = []
  · simp [hcert, lastField, lastWith]
  · simp [hcert, lastField, lastWith]

/-- The envelope is not in the bytes of a delivery frame, so it is not read from them, whatever is in memory. -/
theorem envelope_lost (hload : Loads load) (junk : Uninit) (f : DeliveryFrame) :
    ∃ f', decodeDeliveryFrame load junk (encodeDeliveryFrame f) = .ok f' ∧ f'.encryptedEnvelope = [] := by
  have hmap : load (encodeDeliveryFrame f) = some (.map (deliveryFrameMap f).pairs) := hload.load_encode _
  have hnames : ∀ k ∈ deliveryFrameKeys, ¬ascii "encrypted_envelope" <+: ascii k ∧ ¬ascii k <+: ascii "encrypted_envelope" := by decide
  have hapart : ∀ kv ∈ (deliveryFrameMap f).pairs,
      ∃ b, kv.1 = .text b ∧ ¬ascii "encrypted_envelope" <+: b ∧ ¬b <+: ascii "encrypted_envelope" := by
    intro kv hkv
    obtain ⟨k, hk, heq⟩ := keys_deliveryFrameMap f kv hkv
    exact ⟨ascii k, heq, hnames k hk⟩
  obtain ⟨pairs, hpairs, hnone⟩ := frameField_of_apart junk hapart 0
  refine ⟨deliveryFrameOf pairs, ?_, ?_⟩
  · unfold decodeDeliveryFrame
    rw [hmap]
    dsimp only
    rw [hpairs]
  · exact congrArg (fun found => found.getD []) (hnone asBytes)

end Decoding

/-! ## The whole -/

section Whole
variable (P : Primitives wire) (load : Bytes → Option Item) (sha3 : Bytes → ByteArr 32) (c : ClientState)

def getContact (id : Bytes) : Option Contact := c.contacts.find? (fun k => k.id = id)

/-- An empty fingerprint is `NULL` in the table, which is equal to nothing. -/
def getCert (fingerprint : Bytes) : Option KnownCert := c.certs.find? (fun k => k.fingerprint = fingerprint ∧ k.fingerprint ≠ [])

/-- Step 4b: the certificate is known, or enclosed and then known. Its signature is not verified. `INSERT OR IGNORE` puts in another
row each time for the empty fingerprint. -/
def resolveCert (frame : DeliveryFrame) (nowS : Int64) : Option (List KnownCert) :=
  match getCert c frame.certFingerprint with
  | some _ => some c.certs
  | none =>
    if frame.senderOutboxCert = [] then none
    else some (c.certs ++ [⟨frame.certFingerprint, frame.senderOutboxCert, bytesToHex frame.senderId, nowS⟩])

/-- Steps 6 and 7. -/
def dispatchOpened (frame : DeliveryFrame) (p : Presentation) (convId appFrame : Bytes) : Received :=
  match load appFrame with
  | none => { state := c }
  | some _ =>
    match receiveAppFrame load ⟨convId, frame.senderId, p.frame, p.nowMs, p.junk.behindField⟩ appFrame c.store with
    | .error _ => { state := c }
    | .ok (db, pushes) => { state := { c with store := db }, pushes := pushes, acked := true }

/-- The rest once the sender is found to be a contact. -/
def processFromContact (frame : DeliveryFrame) (p : Presentation) : Received :=
  match resolveCert c frame p.nowS with
  | none => { state := c }
  | some certs =>
    match openEnvelope P load sha3 c.session p.junk frame with
    | (s, none) => { state := { c with certs := certs, session := s } }
    | (s, some (convId, appFrame)) => dispatchOpened load { c with certs := certs, session := s } frame p convId appFrame

def processDeliveryFrame (p : Presentation) : Received :=
  match decodeDeliveryFrame load p.junk p.frame with
  | .error .invalid => { state := c }
  | .error .nullKey => { state := c, crashed := true }
  | .ok frame =>
    match getContact c (bytesToHex frame.senderId) with
    | none => { state := c }
    | some _ => processFromContact P load sha3 c frame p

end Whole

end ScatterWeb.Client
