import ScatterWeb.Client.ContactCard

/-! # How two clients become contacts

`send_contact_request` is to begin a ratchet session towards the key on the card and to hand a `contact_request` frame to the outbox;
`accept_contact_request` makes a pending contact an active one. In between the frame would have to reach
`process_delivery_frame` of the other client and to leave a pending contact and the other half of the session there. None of it
happens: the row of the new contact is refused, so the request throws before there is a frame. A frame of it would leave nothing
either, since a sender who is not a contact is dropped, the delivery frame is built without its envelope, and nobody calls
`init_as_receiver`. -/
namespace ScatterWeb.Client
open Crypto Lib Lib.Cbor Ratchet Mailbox
set_option autoImplicit false

/-! ## A party -/

structure KeyB where
  id : Bytes
  relationship : Bytes
  kem : KemKeyPair (ByteArr 1184) (ByteArr 2400)
  sig : DsaKeyPair
  createdAt : Int64

/-- A client and the parts of its keystore that a contact request reads or writes. The certificate is that of the first outbox
whose Key C is not revoked. -/
structure Party where
  client : ClientState
  keyAPriv : ByteArr 4032
  crKem : KemKeyPair (ByteArr 1184) (ByteArr 2400)
  displayName : Bytes
  outboxCert : Option Bytes := none
  keyB : List KeyB := []

/-- What a call draws and finds: the clock, the new Key B, the seeds, the raw bytes of `rand_hex_id`, the prekeys of the
relationship once they are replenished, and what stands in memory behind a number on the card. -/
structure RequestEnv where
  nowS : Int64
  kem : KemKeyPair (ByteArr 1184) (ByteArr 2400)
  sig : DsaKeyPair
  encapCoin : ByteArr 32
  keygenCoin : ByteArr 32
  coins : Coins wire
  messageId : ByteArr 16
  prekeys : List (ByteArr 1184)
  behind : UInt64

/-- `INSERT OR REPLACE`, with `last_read_seq` zero. -/
def Store.upsertConversation (db : Store) (convId : Bytes) : Store :=
  { db with conversations := db.conversations.filter (fun c => c.id ≠ convId) ++ [⟨convId, 0⟩] }

/-- `INSERT OR IGNORE`. -/
def insertKeyB (rows : List KeyB) (kb : KeyB) : List KeyB := if ∃ k ∈ rows, k.id = kb.id then rows else rows ++ [kb]

def contactRequestMap (keyAPub displayName : Bytes) (env : RequestEnv) : DefMap :=
  let af := DefMap.new 9
  let af := mapAddStr af "type" (ascii "contact_request")
  let af := mapAddBytes af "id" (bytesToHex env.messageId.toList)
  let af := mapAddUint af "sent_at" (env.nowS * 1000).toUInt64
  let af := mapAddBytes af "from_key_a_pubkey" keyAPub
  let af := mapAddStr af "from_display_name" displayName
  let af := mapAddBytes af "from_dm_key_b_kem_pubkey" env.kem.pub.toList
  let af := mapAddBytes af "from_dm_key_b_sig_pubkey" env.sig.pub.toList
  af.add (.text (ascii "prekey_bundle")) (.array (env.prekeys.map (fun pk => .bytes pk.toList)))

namespace Party
section Calls
variable {Sig : Type} (D : Dsa Sig) (P : Primitives wire) (load : Bytes → Option Item) (sha3 : Bytes → ByteArr 32) (p : Party)

def getContactCardUri (nowS : Int64) (seed : ByteArr 32) : Bytes :=
  match getKeyA p.client.session with
  | none => []
  | some pub => encodeContactCard D p.keyAPriv pub p.crKem.pub p.displayName nowS seed

def deliveryFrame (senderId : Bytes) (persistence : String) (messageId : ByteArr 16) (msg : Message wire) : DeliveryFrame where
  messageId := messageId.toList
  persistence := ascii persistence
  senderId := senderId
  certFingerprint := match p.outboxCert with
    | none => List.replicate 32 0
    | some cert => (sha3 cert).toList
  senderOutboxCert := p.outboxCert.getD []
  envelopeType := ascii "ratchet"
  encryptedEnvelope := encryptRatchetEnvelope msg

/-- The party after `enqueue_dm`, and the frame for the outbox unless the ratchet manager throws. -/
def enqueueDm (pub convId appFrame : Bytes) (persistence : String) (messageId : ByteArr 16) (coins : Coins wire) : Party × Option Bytes :=
  match encrypt P load p.client.session convId coins appFrame with
  | (s, .ok (.message msg)) =>
    ({ p with client := { p.client with session := s } },
      some (encodeDeliveryFrame (deliveryFrame sha3 p (sha3 pub).toList persistence messageId msg)))
  | (s, _) => ({ p with client := { p.client with session := s } }, none)

/-- The party once the Key B of the relationship is there. -/
def withKeyB (env : RequestEnv) (convId : Bytes) : Party :=
  { p with keyB := insertKeyB p.keyB ⟨convId, ascii "dm:" ++ convId, env.kem, env.sig, env.nowS⟩ }

/-- The party once the contact, the conversation and the ratchet state are there. -/
def prepared (env : RequestEnv) (card : DecodedCard) (contacts : List Contact) (convId : Bytes) : Party :=
  { p with
    client :=
      { p.client with
        contacts := contacts
        store := p.client.store.upsertConversation convId
        session := (initAsSender P p.client.session convId card.crKeyBKemPubkey env.kem.pub card.crKeyBKemPubkey env.encapCoin env.keygenCoin).1 } }

/-- The ciphertext for the prekey, which `init_as_sender` returns, is dropped. -/
def sendContactRequest (env : RequestEnv) (uri : Bytes) : Party × Except ContactError (Option Bytes) :=
  match decodeContactCard load env.behind uri with
  | none => (p, .error .invalidCard)
  | some card =>
    let theirId := sha3 card.keyAPubkey
    let theirHex := bytesToHex theirId.toList
    if (getContact p.client theirHex).isSome then (p, .error .alreadyContact)
    else
      match getKeyA p.client.session with
      | none => (p, .error .sessionLocked)
      | some pub =>
        if theirId = sha3 pub then (p, .error .selfContact)
        else
          let convId := dmConvId sha3 (bytesToHex (sha3 pub).toList) theirHex
          let p := withKeyB p env convId
          match insertContact p.client.contacts (pendingContact sha3 card.toContactCard) with
          | .error e => (p, .error e)
          | .ok contacts =>
            let r := enqueueDm P load sha3 (prepared P p env card contacts convId) pub convId
              (cborSer (contactRequestMap pub p.displayName env)) "store" env.messageId env.coins
            (r.1, .ok r.2)

end Calls

/-! ## Events -/

inductive Event
  | client (e : ClientEvent)
  | request (env : RequestEnv) (uri : Bytes)
  | accept (contactId : Bytes)
  | decline (contactId : Bytes)
  | block (contactId : Bytes)
  /-- Some other call gives a frame to the outbox. -/
  | hand (f : DeliveryFrame)

section Steps
variable (P : Primitives wire) (load : Bytes → Option Item) (sha3 : Bytes → ByteArr 32)

def next (p : Party) : Event → Party
  | .client e => { p with client := nextClient P load sha3 p.client e }
  | .request env uri => (sendContactRequest P load sha3 p env uri).1
  | .accept contactId =>
    match acceptContactRequest sha3 p.client contactId with
    | .error _ => p
    | .ok (c, _) => { p with client := c }
  | .decline contactId => { p with client := declineContactRequest p.client contactId }
  | .block contactId => { p with client := blockContact p.client contactId }
  | .hand _ => p

/-- What goes to the outbox. -/
def handed (p : Party) : Event → List Bytes
  | .request env uri =>
    match (sendContactRequest P load sha3 p env uri).2 with
    | .ok (some frame) => [frame]
    | _ => []
  | .hand f => [encodeDeliveryFrame f]
  | _ => []

/-- The sender of the frame, if it is a contact request that gets as far as `dispatch_app_frame`. -/
def requestFrom (c : ClientState) (pr : Presentation) : Option Bytes :=
  match decodeDeliveryFrame load pr.junk pr.frame with
  | .error _ => none
  | .ok frame =>
    if getContact c (bytesToHex frame.senderId) = none ∨ (resolveCert c frame pr.nowS).isNone then none
    else
      match (openEnvelope P load sha3 c.session pr.junk frame).2 with
      | none => none
      | some (_, appFrame) =>
        match load appFrame with
        | some (.map kvs) => if cborGetFieldStr kvs "type" = ascii "contact_request" then some (bytesToHex frame.senderId) else none
        | _ => none

def requests (p : Party) : Event → List Bytes
  | .client (.present pr) => (requestFrom P load sha3 p.client pr).toList
  | _ => []

end Steps
end Party

/-! ## Two parties -/

/-- Two parties, the frames that were handed to an outbox, and whose contact requests the first party has dispatched. -/
structure Acquaintance where
  a : Party
  b : Party
  frames : List Bytes := []
  asked : List Bytes := []

inductive Side
  | a
  | b

namespace Acquaintance
section Runs
variable (P : Primitives wire) (load : Bytes → Option Item) (sha3 : Bytes → ByteArr 32)

def next (n : Acquaintance) : Side × Party.Event → Acquaintance
  | (.a, e) =>
    { n with
      a := Party.next P load sha3 n.a e
      frames := n.frames ++ Party.handed P load sha3 n.a e
      asked := n.asked ++ Party.requests P load sha3 n.a e }
  | (.b, e) => { n with b := Party.next P load sha3 n.b e, frames := n.frames ++ Party.handed P load sha3 n.b e }

/-- What an inbox presents was handed to an outbox. -/
def Carried (n : Acquaintance) (e : Side × Party.Event) : Prop := ∀ pr, e.2 = .client (.present pr) → pr.frame ∈ n.frames

/-- Who is accepted has sent a contact request that was dispatched. -/
def ByRequest (n : Acquaintance) (e : Side × Party.Event) : Prop :=
  ∀ contactId, e = (.a, .accept contactId) → (∃ r, acceptContactRequest sha3 n.a.client contactId = .ok r) → contactId ∈ n.asked

/-- What the one encrypts next, the other decrypts. -/
def Reads (receiver sender : Ratchet.State wire) : Prop :=
  ∀ coins plaintext, ∃ st, (Ratchet.decrypt P (Ratchet.encrypt P sender coins plaintext).2).run receiver = .ok plaintext st

/-- The second party is an active contact of the first, and they have the two ends of one ratchet session. -/
structure Established (idB : Bytes) (n : Acquaintance) : Prop where
  active : ∃ k ∈ n.a.client.contacts, k.id = idB ∧ k.status = ascii "active"
  session : ∃ convId stA stB, (loadState load n.a.client.session convId).2 = .ok stA ∧ (loadState load n.b.client.session convId).2 = .ok stB ∧
    Reads P stA stB ∧ Reads P stB stA

/-- Frames are made by `encode_delivery_frame`, no contact request was dispatched, and the contact is not active. -/
structure Strangers (idB : Bytes) (n : Acquaintance) : Prop where
  frames : ∀ frame ∈ n.frames, ∃ f, frame = encodeDeliveryFrame f
  asked : n.asked = []
  inactive : ∀ k ∈ n.a.client.contacts, k.id = idB → k.status ≠ ascii "active"

end Runs
end Acquaintance

/-! ## Steps -/

section Party
variable {P : Primitives wire} {load : Bytes → Option Item} {sha3 : Bytes → ByteArr 32}

theorem load_nil (hload : Loads load) : load [] = none := by
  have h := hload.load_truncated .null 0 (by decide)
  rwa [List.take_zero] at h

theorem openEnvelope_of_nil (hload : Loads load) (s : Session Keys) (junk : Uninit) {frame : DeliveryFrame} (h : frame.encryptedEnvelope = []) :
    (openEnvelope P load sha3 s junk frame).2 = none := by
  unfold openEnvelope openRatchetEnvelope openSenderKeyEnvelope decryptRatchetEnvelope
  rw [h, load_nil hload]
  split_ifs
  · cases getKeyA s with
    | none => rfl
    | some pub => rfl
  · rfl
  · rfl

/-- The envelope is not in the bytes of a delivery frame, so no contact request is dispatched. -/
theorem requestFrom_encodeDeliveryFrame (hload : Loads load) (c : ClientState) {pr : Presentation} {f : DeliveryFrame}
    (h : pr.frame = encodeDeliveryFrame f) : Party.requestFrom P load sha3 c pr = none := by
  obtain ⟨frame, hframe, hnil⟩ := envelope_lost hload pr.junk f
  unfold Party.requestFrom
  rw [h, hframe]
  dsimp only
  rw [openEnvelope_of_nil hload c.session pr.junk hnil]
  split_ifs <;> rfl

/-- Every request throws, and only a Key B is there that was not. -/
theorem Party.sendContactRequest_throws (P : Primitives wire) (load : Bytes → Option Item) (sha3 : Bytes → ByteArr 32) (p : Party)
    (env : RequestEnv) (uri : Bytes) : (∃ e, (Party.sendContactRequest P load sha3 p env uri).2 = .error e) ∧
      (Party.sendContactRequest P load sha3 p env uri).1.client = p.client := by
  unfold Party.sendContactRequest
  cases hcard : decodeContactCard load env.behind uri with
  | none => exact ⟨⟨_, rfl⟩, rfl⟩
  | some card =>
    dsimp only
    split_ifs with hknown
    · exact ⟨⟨_, rfl⟩, rfl⟩
    cases hkey : getKeyA p.client.session with
    | none => exact ⟨⟨_, rfl⟩, rfl⟩
    | some pub =>
      dsimp only
      split_ifs with hself
      · exact ⟨⟨_, rfl⟩, rfl⟩
      · have hrefused := insertContact_pendingContact card.toContactCard (Option.not_isSome_iff_eq_none.mp hknown)
        unfold Party.withKeyB
        dsimp only
        rw [hrefused]
        exact ⟨⟨_, rfl⟩, rfl⟩

/-- The exception is the one that was said of the contacts before. -/
theorem sendContactRequest_error (P : Primitives wire) (load : Bytes → Option Item) (sha3 : Bytes → ByteArr 32) (p : Party) (env : RequestEnv)
    (uri : Bytes) (e : ContactError) : (Party.sendContactRequest P load sha3 p env uri).2 = .error e ↔
      sendContactRequest sha3 p.client ((decodeContactCard load env.behind uri).map DecodedCard.toContactCard) = .error e := by
  unfold Party.sendContactRequest sendContactRequest
  cases hcard : decodeContactCard load env.behind uri with
  | none =>
    dsimp only [Option.map_none]
    simp only [Except.error.injEq]
  | some card =>
    dsimp only [Option.map_some]
    split_ifs with hknown
    · simp only [Except.error.injEq]
    cases hkey : getKeyA p.client.session with
    | none => simp only [Except.error.injEq]
    | some pub =>
      dsimp only
      split_ifs with hself
      · simp only [Except.error.injEq]
      · have hrefused := insertContact_pendingContact card.toContactCard (Option.not_isSome_iff_eq_none.mp hknown)
        unfold Party.withKeyB
        dsimp only
        rw [hrefused]
        simp only [Except.map, Except.error.injEq]

end Party

namespace Acquaintance
variable {P : Primitives wire} {load : Bytes → Option Item} {sha3 : Bytes → ByteArr 32} {n : Acquaintance} {idB : Bytes}

theorem handed_request (p : Party) (env : RequestEnv) (uri : Bytes) : Party.handed P load sha3 p (.request env uri) = [] := by
  obtain ⟨⟨e, he⟩, _⟩ := Party.sendContactRequest_throws P load sha3 p env uri
  unfold Party.handed
  dsimp only
  rw [he]

theorem handed_encoded (p : Party) (e : Party.Event) : ∀ frame ∈ Party.handed P load sha3 p e, ∃ f, frame = encodeDeliveryFrame f := by
  intro frame hframe
  cases e with
  | request env uri =>
    rw [handed_request] at hframe
    cases hframe
  | hand f => exact ⟨f, List.mem_singleton.mp hframe⟩
  | client e => cases hframe
  | accept contactId => cases hframe
  | decline contactId => cases hframe
  | block contactId => cases hframe

/-- A step of the first party leaves the other one inactive, unless it accepts it. -/
theorem Strangers.inactive_next (h : Strangers idB n) {e : Party.Event} (hby : ByRequest sha3 n (.a, e)) :
    ∀ k ∈ (Party.next P load sha3 n.a e).client.contacts, k.id = idB → k.status ≠ ascii "active" := by
  have hblocked : ∀ id : Bytes, ∀ k ∈ setContactStatus n.a.client.contacts id (ascii "blocked"), k.id = idB → k.status ≠ ascii "active" := by
    intro id k hk hid
    rcases mem_setContactStatus hk with ⟨hold, _⟩ | ⟨k', _, _, rfl⟩
    · exact h.inactive k hold hid
    · exact show ascii "blocked" ≠ ascii "active" by decide
  intro k hk hid
  cases e with
  | client e =>
    have hsame : (Party.next P load sha3 n.a (.client e)).client.contacts = n.a.client.contacts := nextClient_contacts e
    exact h.inactive k (hsame ▸ hk) hid
  | request env uri =>
    have hsame := (Party.sendContactRequest_throws P load sha3 n.a env uri).2
    exact h.inactive k (hsame ▸ hk) hid
  | accept contactId =>
    unfold Party.next at hk
    dsimp only at hk
    cases hr : acceptContactRequest sha3 n.a.client contactId with
    | error e =>
      rw [hr] at hk
      exact h.inactive k hk hid
    | ok r =>
      -- nobody has asked, so nobody can be accepted
      have hasked := hby contactId rfl ⟨r, hr⟩
      rw [h.asked] at hasked
      cases hasked
  | decline contactId => exact hblocked contactId k hk hid
  | block contactId => exact hblocked contactId k hk hid
  | hand f => exact h.inactive k hk hid

theorem Strangers.requests_eq_nil (hload : Loads load) (h : Strangers idB n) {e : Party.Event} (hcarried : Carried n (.a, e)) :
    Party.requests P load sha3 n.a e = [] := by
  cases e with
  | client e =>
    cases e with
    | present pr =>
      obtain ⟨f, hf⟩ := h.frames pr.frame (hcarried pr rfl)
      unfold Party.requests
      dsimp only
      rw [requestFrom_encodeDeliveryFrame hload n.a.client hf]
      rfl
    | op o => rfl
    | edit f => rfl
  | request env uri => rfl
  | accept contactId => rfl
  | decline contactId => rfl
  | block contactId => rfl
  | hand f => rfl

theorem Strangers.step (hload : Loads load) (h : Strangers idB n) {e : Side × Party.Event} (hcarried : Carried n e) (hby : ByRequest sha3 n e) :
    Strangers idB (next P load sha3 n e) := by
  have hframes : ∀ (p : Party) (e : Party.Event), ∀ frame ∈ n.frames ++ Party.handed P load sha3 p e, ∃ f, frame = encodeDeliveryFrame f := by
    intro p e frame hframe
    rcases List.mem_append.mp hframe with hold | hnew
    · exact h.frames frame hold
    · exact handed_encoded p e frame hnew
  obtain ⟨side, e⟩ := e
  cases side with
  | a =>
    refine ⟨hframes n.a e, ?_, h.inactive_next hby⟩
    change n.asked ++ Party.requests P load sha3 n.a e = []
    rw [h.asked, h.requests_eq_nil hload hcarried]
    rfl
  | b => exact ⟨hframes n.b e, h.asked, h.inactive⟩

theorem Strangers.run (hload : Loads load) (h : Strangers idB n) {es : List (Side × Party.Event)}
    (hcarried : Along (next P load sha3) Carried n es) (hby : Along (next P load sha3) (ByRequest sha3) n es) :
    Strangers idB (es.foldl (next P load sha3) n) := by
  induction es generalizing n with
  | nil => exact h
  | cons e es ih => exact ih (h.step hload hcarried.1 hby.1) hcarried.2 hby.2

/-- Every request throws. And whatever two parties that are not contacts do, the one never gets to an active contact with a working
session that it has accepted after its request. -/
theorem never_established (hload : Loads load) {a b : Party} {idB : Bytes} (hnew : ∀ k ∈ a.client.contacts, k.id ≠ idB)
    {es : List (Side × Party.Event)} (hcarried : Along (next P load sha3) Carried ⟨a, b, [], []⟩ es) :
    (∀ env uri, ∃ e, (Party.sendContactRequest P load sha3 b env uri).2 = .error e) ∧
      ¬(Established P load idB (es.foldl (next P load sha3) ⟨a, b, [], []⟩) ∧ Along (next P load sha3) (ByRequest sha3) ⟨a, b, [], []⟩ es) := by
  refine ⟨fun env uri => (Party.sendContactRequest_throws P load sha3 b env uri).1, ?_⟩
  rintro ⟨⟨⟨k, hk, hid, hactive⟩, _⟩, hby⟩
  have hstart : Strangers idB ⟨a, b, [], []⟩ :=
    ⟨fun frame hframe => absurd hframe List.not_mem_nil, rfl, fun k hk hid => absurd hid (hnew k hk)⟩
  exact (hstart.run hload hcarried hby).inactive k hk hid hactive

/-! ## A first contact -/

def newParty (n : UInt8) (name : String) : Party where
  client := ⟨⟨[], []⟩, [], [], { keystore := { db := some ⟨∅, ⟨some (fit 1952 [n]).toList, ∅⟩⟩ } }⟩
  keyAPriv := fit 4032 [n]
  crKem := ⟨fit 1184 [n], fit 2400 [n]⟩
  displayName := ascii name

def firstEnv : RequestEnv :=
  ⟨0, ⟨fit 1184 [3], fit 2400 [3]⟩, ⟨fit 1952 [4], fit 4032 [4]⟩, fit 32 [5], fit 32 [6], ⟨fit 32 [7], fit 32 [8], fit 12 [9]⟩, fit 16 [10], [], 0⟩

def alicesCard : Bytes := Party.getContactCardUri idealDsa (newParty 1 "Alice") 0 (fit 32 [])

def bobsId : Bytes := bytesToHex (fit 32 (fit 1952 [2]).toList).toList

/-- Bob asks, and Alice accepts. -/
def firstContact : List (Side × Party.Event) := [(.b, .request firstEnv alicesCard), (.a, .accept bobsId)]

theorem carried_firstContact : Along (next counting Cbor.load (fit 32)) Carried ⟨newParty 1 "Alice", newParty 2 "Bob", [], []⟩ firstContact := by
  refine ⟨?_, ?_, trivial⟩
  · intro pr hpr
    cases hpr
  · intro pr hpr
    cases hpr

theorem never_established_firstContact :
    (∀ env uri, ∃ e, (Party.sendContactRequest counting Cbor.load (fit 32) (newParty 2 "Bob") env uri).2 = .error e) ∧
      ¬(Established counting Cbor.load bobsId (firstContact.foldl (next counting Cbor.load (fit 32)) ⟨newParty 1 "Alice", newParty 2 "Bob", [], []⟩) ∧
        Along (next counting Cbor.load (fit 32)) (ByRequest (fit 32)) ⟨newParty 1 "Alice", newParty 2 "Bob", [], []⟩ firstContact) :=
  never_established load_loads (fun _ hk => absurd hk List.not_mem_nil) carried_firstContact

/-- Alice's card is good, Alice is not yet a contact of Bob and is not Bob; still the database refuses the contact. -/
theorem bob_asks : (Party.sendContactRequest counting Cbor.load (fit 32) (newParty 2 "Bob") firstEnv alicesCard).2 = .error .constraint := by
  have hkey : (fit 1952 [1]).toList.length = 1952 := List.Vector.toList_length _
  have hname : (0 : UInt8) ∉ ascii "Alice" := by decide
  have huri : alicesCard = encodeContactCard idealDsa (fit 4032 [1]) (fit 1952 [1]).toList (fit 1184 [1]) (ascii "Alice") 0 (fit 32 []) := rfl
  have hcard := decodeContactCard_encodeContactCard (D := idealDsa) load_loads firstEnv.behind (fit 4032 [1]) hkey (fit 1184 [1]) hname 0 (fit 32 [])
  have hself : ¬fit 32 (fit 1952 [1]).toList = fit 32 (fit 1952 [2]).toList := by decide
  have hpub : getKeyA (newParty 2 "Bob").client.session = some (fit 1952 [2]).toList := rfl
  have hnew : getContact (newParty 2 "Bob").client (bytesToHex (fit 32 (fit 1952 [1]).toList).toList) = none := rfl
  rw [← huri] at hcard
  rw [sendContactRequest_error, hcard]
  unfold sendContactRequest
  dsimp only [Option.map_some]
  rw [hnew, if_neg (by decide), hpub]
  dsimp only
  rw [if_neg hself, insertContact_pendingContact _ hnew]
  rfl

/-- Bob's request throws, no frame is handed over, and when Alice accepts she still has no contact. -/
theorem not_established_firstContact :
    (Party.sendContactRequest counting Cbor.load (fit 32) (newParty 2 "Bob") firstEnv alicesCard).2 = .error .constraint ∧
      Party.handed counting Cbor.load (fit 32) (newParty 2 "Bob") (.request firstEnv alicesCard) = [] ∧
      acceptContactRequest (fit 32) (newParty 1 "Alice").client bobsId = .error .notFound ∧
      ¬Established counting Cbor.load bobsId
        (firstContact.foldl (next counting Cbor.load (fit 32)) ⟨newParty 1 "Alice", newParty 2 "Bob", [], []⟩) := by
  refine ⟨bob_asks, handed_request _ _ _, rfl, ?_⟩
  rintro ⟨⟨k, hk, _⟩, _⟩
  cases hk

end Acquaintance

end ScatterWeb.Client
