import ScatterWeb.Client.Retry

/-! # Contacts that are blocked

`block_contact` and `decline_contact_request` write a status, and `push_sender_allowlist` leaves out whoever is not active.
`process_delivery_frame` does not look at the status: that there is a contact is enough. So a frame of a blocked contact
has no effect when it is turned away for some other reason, and otherwise it has the effect it always had.

`send_contact_request` leaves two blobs of the new contact empty. They are bound as `NULL`, which the table refuses, so every call
throws, and the contacts are those that the client began with. -/
namespace ScatterWeb.Client
open Crypto Lib Lib.Cbor Ratchet Mailbox
set_option autoImplicit false

/-! ## The operations -/

inductive ContactError
  | invalidCard
  | alreadyContact
  | sessionLocked
  | selfContact
  | notFound
  /-- `SQLITE_CONSTRAINT`. -/
  | constraint
  deriving DecidableEq

def ContactError.what : ContactError → String
  | .invalidCard => "INVALID_CONTACT_CARD"
  | .alreadyContact => "ALREADY_CONTACT"
  | .sessionLocked => "SESSION_LOCKED"
  | .selfContact => "SELF_CONTACT"
  | .notFound => "CONTACT_NOT_FOUND"
  | .constraint => "sqlite3_step failed: 19"

structure ContactCard where
  displayName : Bytes
  keyAPubkey : Bytes
  crKeyBKemPubkey : ByteArr 1184

/-- A row that is to be inserted, with the blobs that are not read here later. -/
structure NewContact extends Contact where
  theirDmKeyBKem : Bytes := []
  theirDmKeyBSig : Bytes := []
  theirKeyCPubkeys : Bytes := []

/-- An empty blob is bound as `NULL`, and no blob of the table may be `NULL`. -/
def insertContact (contacts : List Contact) (k : NewContact) : Except ContactError (List Contact) :=
  if contacts.any (fun k' => k'.id = k.id) then .ok contacts
  else if k.keyAPubkey = [] ∨ k.theirDmKeyBKem = [] ∨ k.theirDmKeyBSig = [] ∨ k.theirKeyCPubkeys = [] then .error .constraint
  else .ok (contacts ++ [k.toContact])

def setContactStatus (contacts : List Contact) (id status : Bytes) : List Contact :=
  contacts.map (fun k => if k.id = id then { k with status := status } else k)

section Operations
variable (sha3 : Bytes → ByteArr 32) (c : ClientState)

/-- The ids of the active contacts, for `inbox.update_sender_allowlist`. -/
def pushSenderAllowlist : List Bytes :=
  (c.contacts.filter (fun k => k.status = ascii "active")).map (fun k => (sha3 k.keyAPubkey).toList)

/-- The pending contact of a card. The signature key and the keys of the devices are not known yet. -/
def pendingContact (card : ContactCard) : NewContact where
  id := bytesToHex (sha3 card.keyAPubkey).toList
  displayName := card.displayName
  keyAPubkey := card.keyAPubkey
  status := ascii "pending"
  theirDmKeyBKem := card.crKeyBKemPubkey.toList

/-- What `send_contact_request` does to the contacts, for the card that its argument decodes to. The keys, the conversation and
the request itself do not matter here. -/
def sendContactRequest (card : Option ContactCard) : Except ContactError ClientState :=
  match card with
  | none => .error .invalidCard
  | some card =>
    let theirId := sha3 card.keyAPubkey
    if (getContact c (bytesToHex theirId.toList)).isSome then .error .alreadyContact
    else
      match getKeyA c.session with
      | none => .error .sessionLocked
      | some pub =>
        if theirId = sha3 pub then .error .selfContact
        else (insertContact c.contacts (pendingContact sha3 card)).map (fun contacts => { c with contacts := contacts })

/-- The new state, the allowlist that is pushed to the inbox, and the event. -/
def acceptContactRequest (contactId : Bytes) : Except ContactError (ClientState × List Bytes × Push) :=
  match getContact c contactId with
  | none => .error .notFound
  | some contact =>
    if contact.status ≠ ascii "pending" then .error .notFound
    else
      let c' := { c with contacts := setContactStatus c.contacts contactId (ascii "active") }
      .ok (c', pushSenderAllowlist sha3 c',
        ⟨"contact.added", [("contact_id", .str contactId), ("display_name", .str contact.displayName)]⟩)

def declineContactRequest (contactId : Bytes) : ClientState :=
  { c with contacts := setContactStatus c.contacts contactId (ascii "blocked") }

def blockContact (contactId : Bytes) : ClientState :=
  { c with contacts := setContactStatus c.contacts contactId (ascii "blocked") }

end Operations

/-! ## Runs -/

inductive ContactEvent
  | client (e : ClientEvent)
  | request (card : Option ContactCard)
  | accept (contactId : Bytes)
  | decline (contactId : Bytes)
  | block (contactId : Bytes)
  /-- The client connects to its inbox. -/
  | connect

/-- The client, and who was declined or blocked and has had no other status since. -/
structure Watched where
  client : ClientState
  blocked : List Bytes := []

section Runs
variable (P : Primitives wire) (load : Bytes → Option Item) (sha3 : Bytes → ByteArr 32)

def nextWatched (m : Watched) : ContactEvent → Watched
  | .client e => { m with client := nextClient P load sha3 m.client e }
  | .request card =>
    match sendContactRequest sha3 m.client card with
    | .error _ => m
    | .ok c => ⟨c, m.blocked.filter (fun id => some id ≠ card.map (fun card => bytesToHex (sha3 card.keyAPubkey).toList))⟩
  | .accept contactId =>
    match acceptContactRequest sha3 m.client contactId with
    | .error _ => m
    | .ok (c, _) => ⟨c, m.blocked.filter (fun id => id ≠ contactId)⟩
  | .decline contactId => ⟨declineContactRequest m.client contactId, contactId :: m.blocked⟩
  | .block contactId => ⟨blockContact m.client contactId, contactId :: m.blocked⟩
  | .connect => m

/-- The id of a contact is that of its key, and who is blocked has that status if it is a contact. -/
structure InOrder (m : Watched) : Prop where
  ids : ∀ k ∈ m.client.contacts, k.id = bytesToHex (sha3 k.keyAPubkey).toList
  blocked : ∀ id ∈ m.blocked, ∀ k ∈ m.client.contacts, k.id = id → k.status = ascii "blocked"

variable {P load sha3} {c : ClientState} {m : Watched}

/-! ### Steps -/

theorem mem_setContactStatus {contacts : List Contact} {id status : Bytes} {k : Contact} (hk : k ∈ setContactStatus contacts id status) :
    (k ∈ contacts ∧ k.id ≠ id) ∨ ∃ k' ∈ contacts, k'.id = id ∧ k = { k' with status := status } := by
  obtain ⟨k', hk', rfl⟩ := List.mem_map.mp hk
  by_cases hid : k'.id = id
  · rw [if_pos hid]
    exact Or.inr ⟨k', hk', hid, rfl⟩
  · rw [if_neg hid]
    exact Or.inl ⟨hk', hid⟩

/-- The row of a pending contact is refused. -/
theorem insertContact_pendingContact (card : ContactCard) (hnew : getContact c (bytesToHex (sha3 card.keyAPubkey).toList) = none) :
    insertContact c.contacts (pendingContact sha3 card) = .error .constraint := by
  have hfree : ¬c.contacts.any (fun k => k.id = (pendingContact sha3 card).id) = true := by
    rw [List.any_eq_true]
    rintro ⟨k, hk, hid⟩
    exact List.find?_eq_none.mp hnew k hk hid
  have hunsigned : (pendingContact sha3 card).theirDmKeyBSig = [] := rfl
  unfold insertContact
  rw [if_neg hfree, if_pos (Or.inr (Or.inr (Or.inl hunsigned)))]

/-- Every call throws. -/
theorem sendContactRequest_throws (sha3 : Bytes → ByteArr 32) (c : ClientState) (card : Option ContactCard) :
    ∃ e, sendContactRequest sha3 c card = .error e := by
  unfold sendContactRequest
  cases card with
  | none => exact ⟨_, rfl⟩
  | some card =>
    dsimp only
    split_ifs with hknown
    · exact ⟨_, rfl⟩
    cases getKeyA c.session with
    | none => exact ⟨_, rfl⟩
    | some pub =>
      dsimp only
      split_ifs
      · exact ⟨_, rfl⟩
      · rw [insertContact_pendingContact card (Option.not_isSome_iff_eq_none.mp hknown)]
        exact ⟨_, rfl⟩

theorem nextWatched_request (card : Option ContactCard) : nextWatched P load sha3 m (.request card) = m := by
  obtain ⟨e, he⟩ := sendContactRequest_throws sha3 m.client card
  unfold nextWatched
  dsimp only
  rw [he]

theorem acceptContactRequest_ok {contactId : Bytes} {r : ClientState × List Bytes × Push} (h : acceptContactRequest sha3 c contactId = .ok r) :
    (∃ k ∈ c.contacts, k.id = contactId ∧ k.status = ascii "pending") ∧
      r.1 = { c with contacts := setContactStatus c.contacts contactId (ascii "active") } ∧ r.2.1 = pushSenderAllowlist sha3 r.1 := by
  unfold acceptContactRequest at h
  cases hfind : getContact c contactId with
  | none =>
    rw [hfind] at h
    cases h
  | some k =>
    rw [hfind] at h
    dsimp only at h
    split_ifs at h with hstatus
    cases h
    have hid := List.find?_some hfind
    exact ⟨⟨k, List.mem_of_find?_eq_some hfind, by simpa using hid, not_not.mp hstatus⟩, rfl, rfl⟩

theorem InOrder.block (h : InOrder sha3 m) (id : Bytes) :
    InOrder sha3 ⟨{ m.client with contacts := setContactStatus m.client.contacts id (ascii "blocked") }, id :: m.blocked⟩ := by
  constructor
  · intro k hk
    rcases mem_setContactStatus hk with ⟨hold, _⟩ | ⟨k', hk', _, rfl⟩
    · exact h.ids k hold
    · exact h.ids k' hk'
  · intro id' hid' k hk hkid
    rcases mem_setContactStatus hk with ⟨hold, hne⟩ | ⟨k', _, _, rfl⟩
    · rcases List.mem_cons.mp hid' with rfl | hmem
      · exact absurd hkid hne
      · exact h.blocked id' hmem k hold hkid
    · rfl

/-- Who is accepted was not blocked. -/
theorem InOrder.notMem_of_accept (h : InOrder sha3 m) {contactId : Bytes} {r : ClientState × List Bytes × Push}
    (hr : acceptContactRequest sha3 m.client contactId = .ok r) : contactId ∉ m.blocked := by
  obtain ⟨⟨k, hk, hkid, hpending⟩, _⟩ := acceptContactRequest_ok hr
  intro hmem
  have hblocked := h.blocked contactId hmem k hk hkid
  rw [hpending] at hblocked
  exact absurd hblocked (by decide)

theorem InOrder.accept (h : InOrder sha3 m) {contactId : Bytes} {r : ClientState × List Bytes × Push}
    (hr : acceptContactRequest sha3 m.client contactId = .ok r) : InOrder sha3 ⟨r.1, m.blocked⟩ := by
  have hnot := h.notMem_of_accept hr
  obtain ⟨_, hstate, _⟩ := acceptContactRequest_ok hr
  rw [hstate]
  constructor
  · intro k hk
    rcases mem_setContactStatus hk with ⟨hold, _⟩ | ⟨k', hk', _, rfl⟩
    · exact h.ids k hold
    · exact h.ids k' hk'
  · intro id hid k hk hkid
    rcases mem_setContactStatus hk with ⟨hold, _⟩ | ⟨k', _, hk'id, rfl⟩
    · exact h.blocked id hid k hold hkid
    · have hsame : k'.id = id := hkid
      rw [hk'id] at hsame
      exact absurd (hsame ▸ hid) hnot

theorem nextClient_contacts (e : ClientEvent) : (nextClient P load sha3 c e).contacts = c.contacts := by
  cases e with
  | present p => exact processDeliveryFrame_contacts p
  | op o => rfl
  | edit f => rfl

theorem InOrder.step (h : InOrder sha3 m) (e : ContactEvent) : InOrder sha3 (nextWatched P load sha3 m e) := by
  cases e with
  | client e =>
    refine ⟨?_, ?_⟩
    · intro k hk
      exact h.ids k (nextClient_contacts e ▸ hk)
    · intro id hid k hk
      exact h.blocked id hid k (nextClient_contacts e ▸ hk)
  | request card =>
    rw [nextWatched_request]
    exact h
  | accept contactId =>
    unfold nextWatched
    dsimp only
    cases hr : acceptContactRequest sha3 m.client contactId with
    | error e => exact h
    | ok r =>
      have hnext := h.accept hr
      exact ⟨hnext.ids, fun id hid => hnext.blocked id (List.mem_of_mem_filter hid)⟩
  | decline contactId => exact h.block contactId
  | block contactId => exact h.block contactId
  | connect => exact h

end Runs

/-! ## Alice is blocked -/

def aliceWith (status : String) : Contact := ⟨bytesToHex aliceId, ascii "Alice", [1], ascii status⟩

end ScatterWeb.Client
