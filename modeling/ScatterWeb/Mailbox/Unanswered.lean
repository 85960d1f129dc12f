import ScatterWeb.Mailbox.Safety

/-! # Two frames that the other side drops

An inbox polls the outboxes it knows, and an outbox answers with every pending message for that inbox: the inbox ignores the
answer. An outbox sends each new message to its siblings: `on_frame` has no branch for such a frame. Neither exchange changes
the store of the receiver. -/
namespace ScatterWeb.Mailbox
open Crypto Lib Lib.Cbor Client Inbox
set_option autoImplicit false

/-! ## The poll -/

section Poll
variable {load : Bytes → Option Item}

theorem load_outboxPoll (hload : Loads load) (key : Bytes) : load (outboxPoll key) = some (.map
    [(.text (ascii "type"), .text (ascii "outbox_poll")), (.text (ascii "inbox_key_c_pubkey"), .bytes key),
      (.text (ascii "nonce"), .bytes (key.take 8))]) := by
  have htype : cStr (ascii "outbox_poll") = ascii "outbox_poll" := by decide
  unfold outboxPoll cborSer
  rw [hload.load_encode]
  simp [DefMap.item, mapAddStr, mapAddBytes, DefMap.add_pairs, htype]

/-- The frame with which an outbox answers the poll of an inbox. -/
def pollResponse (outbox : Outbox.OutboxStore) (key : Bytes) : Bytes :=
  encode (.map [(.text (ascii "type"), .text (ascii "outbox_poll_response")), (.text (ascii "messages"),
    .array ((outbox.listPending.filter (fun m => outbox.isValidRecipientInbox m.messageId key)).map Outbox.pollEntry))])

/-- The outbox leaves its store alone and sends the pending messages of the inbox. -/
theorem onFrame_outboxPoll (hload : Loads load) (outbox : Outbox.OutboxStore) (channelId key : Bytes) :
    Outbox.onFrame load outbox channelId (outboxPoll key) =
      (outbox, { sent := if key = [] then [] else [(channelId, pollResponse outbox key)] }) := by
  have htype : cStr (ascii "outbox_poll_response") = ascii "outbox_poll_response" := by decide
  unfold Outbox.onFrame
  rw [load_outboxPoll hload]
  dsimp only
  rw [frameType_cons, if_neg (by decide), if_pos rfl]
  simp [Outbox.handlePoll, lastField, lastWith, asBytes, pollResponse, cborSer, DefMap.item, mapAddStr, DefMap.add_pairs, htype]

/-- The inbox ignores it. -/
theorem processDeliveryFrame_pollResponse (hload : Loads load) (cfg : Inbox.Config) (env : Env) (s : InboxStore) (channelId : Bytes)
    (outbox : Outbox.OutboxStore) (key : Bytes) :
    processDeliveryFrame load cfg env s channelId (pollResponse outbox key) = (s, {}) := by
  unfold processDeliveryFrame pollResponse
  rw [hload.load_encode]
  dsimp only
  rw [frameType_cons, if_neg (by decide), if_neg (by decide), if_pos (by decide)]

end Poll

/-! ## Rows and their frames -/

section Rows
variable {load : Bytes → Option Item} {cfg : Inbox.Config} {s : InboxStore}

/-- A row is kept under the id that its frame has. -/
def KeyedByFrame (load : Bytes → Option Item) (s : InboxStore) : Prop :=
  ∀ id row, s.messages.find id = some row → ∃ hdr, parseFrameHeader load row.deliveryFrame = some hdr ∧ hdr.messageId = id

theorem parseFrameHeader_of_replicationOf {body : Bytes} {rep : Replication} (h : replicationOf load body = some rep) :
    parseFrameHeader load rep.innerFrame = some rep.hdr := by
  unfold replicationOf at h
  split at h
  · dsimp only at h
    split at h
    · obtain ⟨hdr, hparse, rfl⟩ := Option.map_eq_some_iff.mp h
      exact hparse
    · cases h
  · cases h

theorem keyedByFrame_next (h : KeyedByFrame load s) (e : Inbox.Event) : KeyedByFrame load (Inbox.next load cfg s e) := by
  intro id row hrow
  cases hold : s.messages.find id with
  | some m =>
    rw [deliveryFrame_next hold hrow]
    exact h id m hold
  | none =>
    obtain rfl : row.messageId = id := Table.key_of_find hrow
    rcases inserts_cases ⟨hold, hrow⟩ with ⟨_, _, body, hdr, _, hframe, _, rfl⟩ | ⟨_, _, body, rep, _, hframe, _, rfl⟩
    · exact ⟨hdr, parseFrameHeader_of_deliveryOf hframe, rfl⟩
    · exact ⟨rep.hdr, parseFrameHeader_of_replicationOf hframe, rfl⟩

theorem keyedByFrame_run {s₀ : InboxStore} {es : List Inbox.Event} (h : KeyedByFrame load s₀)
    (hrun : Run (Inbox.Steps load cfg) s₀ es s) : KeyedByFrame load s := by
  refine hrun.invariant (KeyedByFrame load) h ?_
  intro t e u ht hstep
  rw [hstep]
  exact keyedByFrame_next ht e

theorem keyedByFrame_of_reached (h : Inbox.Reached load cfg s) : KeyedByFrame load s := by
  obtain ⟨es, hrun⟩ := h
  refine keyedByFrame_run ?_ hrun
  intro id row hnone
  cases hnone

/-- There is one row with the frame of the message. -/
def StoredOnce (s : InboxStore) (m : Outbox.QueuedMessage) : Prop :=
  ∃! row, row ∈ s.messages.rows ∧ row.deliveryFrame = m.deliveryFrame

/-- Two rows with the same frame would have the same id. -/
theorem KeyedByFrame.storedOnce_iff (h : KeyedByFrame load s) (m : Outbox.QueuedMessage) :
    StoredOnce s m ↔ ∃ row ∈ s.messages.rows, row.deliveryFrame = m.deliveryFrame := by
  constructor
  · rintro ⟨row, hrow, _⟩
    exact ⟨row, hrow⟩
  · rintro ⟨row, hmem, hframe⟩
    refine ⟨row, ⟨hmem, hframe⟩, ?_⟩
    rintro row' ⟨hmem', hframe'⟩
    obtain ⟨hdr, hparse, hid⟩ := h _ _ (Table.find_of_mem hmem)
    obtain ⟨hdr', hparse', hid'⟩ := h _ _ (Table.find_of_mem hmem')
    rw [hframe] at hparse
    rw [hframe', hparse] at hparse'
    cases hparse'
    exact List.inj_on_of_nodup_map s.messages.nodup hmem' hmem (hid'.symm.trans hid)

end Rows

/-! ## What the poll recovers -/

section Recovery
variable (load : Bytes → Option Item)

/-- The message is pending in the outbox, the inbox with the key is among its recipients and allows its sender. -/
structure WaitsFor (outbox : Outbox.OutboxStore) (key : Bytes) (s : InboxStore) (m : Outbox.QueuedMessage) : Prop where
  pending : m ∈ outbox.listPending
  recipient : outbox.isValidRecipientInbox m.messageId key = true
  allowed : ∃ hdr, parseFrameHeader load m.deliveryFrame = some hdr ∧ s.isAllowedSender hdr.senderId = true

variable {load} {cfg : Inbox.Config} {s₀ s : InboxStore} {between : List Inbox.Event} {creds : DhtCredentials}

/-- The inbox polls, goes on with any events, and receives the answer of the outbox. Then everything that waited for it is stored
once, exactly if all of it was stored before. -/
theorem poll_recovers_iff (hload : Loads load) (hreached : Inbox.Reached load cfg s₀) (hcreds : s₀.dhtCredentials = some creds)
    {env env' : Env} {chan poll : Bytes} (hpoll : (chan, poll) ∈ pollKnownOutboxes env s₀)
    (hbetween : Run (Inbox.Steps load cfg) s₀ between s) (outbox : Outbox.OutboxStore) {chan' channelId response : Bytes}
    (hresponse : (chan', response) ∈ (Outbox.onFrame load outbox chan' poll).2.sent) :
    (∀ m, WaitsFor load outbox creds.keyCPubkey s m →
      StoredOnce (processDeliveryFrame load cfg env' s channelId response).1 m) ↔
    ∀ m, WaitsFor load outbox creds.keyCPubkey s m → ∃ row ∈ s.messages.rows, row.deliveryFrame = m.deliveryFrame := by
  have hkeyed : KeyedByFrame load s := keyedByFrame_run (keyedByFrame_of_reached hreached) hbetween
  obtain ⟨creds', hcreds', heq⟩ := eq_outboxPoll_of_mem hpoll
  rw [hcreds] at hcreds'
  cases hcreds'
  dsimp only at heq
  rw [heq, onFrame_outboxPoll hload] at hresponse
  dsimp only at hresponse
  split at hresponse
  · cases hresponse
  · cases List.mem_singleton.mp hresponse
    rw [processDeliveryFrame_pollResponse hload]
    refine forall_congr' (fun m => imp_congr_right (fun _ => ?_))
    exact hkeyed.storedOnce_iff m

end Recovery

/-- The key of the inbox that polls. -/
def pollKey : Bytes := List.replicate 32 9

def delegationParams : CborMap :=
  [(.text (ascii "key_c_pubkey"), .bytes pollKey), (.text (ascii "key_c_privkey"), .bytes pollKey),
    (.text (ascii "auth_cert"), .bytes [9]), (.text (ascii "delegation_cert"), .bytes [9])]

def knownOutboxParams : CborMap :=
  [(.text (ascii "outboxes"), .array [.map [(.text (ascii "key_c_pubkey"), .bytes (List.replicate 32 8)),
    (.text (ascii "auth_cert"), .bytes [8])]])]

/-- A Client has set the key, two senders and one outbox. -/
def polling : InboxStore :=
  Inbox.next load {} (Inbox.next load {} (Inbox.next load {} .empty
    (.ipc Inbox.clockZero "inbox.update_dht_delegation" delegationParams))
      (.ipc Inbox.clockZero "inbox.update_sender_allowlist" allowParams))
        (.ipc Inbox.clockZero "inbox.update_contact_outboxes" knownOutboxParams)

theorem reached_polling : Inbox.Reached load {} polling := (((Reachable.refl _ _).tail rfl).tail rfl).tail rfl

def pollCredentials : DhtCredentials := ⟨pollKey, pollKey, [9], [9]⟩

/-- Every outbox is behind the same channel. -/
def connected : Env := ⟨0, 0, fun _ => some [1], []⟩

theorem polling_facts : polling.dhtCredentials = some pollCredentials ∧ polling.isAllowedSender (senderHex 1) = true ∧
    polling.messages.rows = [] ∧ pollKnownOutboxes connected polling = [([1], outboxPoll pollKey)] := by
  refine ⟨rfl, by decide +kernel, rfl, rfl⟩

def waitingParams : CborMap :=
  [(.text (ascii "delivery_frame"), .bytes (frameFrom 1 (ascii "store"))),
    (.text (ascii "recipient_inboxes"), .array [.map [(.text (ascii "key_c_pubkey"), .bytes pollKey),
      (.text (ascii "auth_cert"), .bytes [9])]])]

def waitingMessage : Outbox.QueuedMessage :=
  Outbox.queuedMessage Outbox.clockZero (frameFrom 1 (ascii "store")) { messageId := frameId } waitingParams

/-- An outbox with one message for the inbox. -/
def waiting : Outbox.OutboxStore :=
  (Outbox.next load {} .initial (.ipc Outbox.clockZero "outbox.enqueue" waitingParams)).store

theorem waiting_eq : waiting =
    Outbox.enqueuedStore Outbox.clockZero .empty (frameFrom 1 (ascii "store")) { messageId := frameId } waitingParams := by
  have hframe : reqBytes waitingParams "delivery_frame" = .ok (frameFrom 1 (ascii "store")) := by
    simp [reqBytes, CborMap.find, lastField, lastWith, waitingParams]
  unfold waiting
  rw [Outbox.next_enqueue hframe Outbox.parseDeliveryFrame_queuedFrame rfl]
  rfl

theorem listPending_waiting : waiting.listPending = [waitingMessage] := by
  rw [waiting_eq]
  unfold Outbox.OutboxStore.listPending Outbox.enqueuedStore
  rw [Outbox.foldl_addRecipientInbox_messages]
  rfl

theorem isValidRecipientInbox_waiting : waiting.isValidRecipientInbox frameId pollKey = true := by
  rw [waiting_eq]
  unfold Outbox.enqueuedStore
  decide +kernel

theorem waitsFor_waitingMessage {s : InboxStore} (hallowed : s.isAllowedSender (senderHex 1) = true) :
    WaitsFor load waiting pollKey s waitingMessage where
  pending := by
    rw [listPending_waiting]
    exact List.mem_singleton_self _
  recipient := isValidRecipientInbox_waiting
  allowed := ⟨_, parseFrameHeader_of_deliveryOf (deliveryOf_frameFrom 1 zero_notMem_store), hallowed⟩

theorem mem_sent_waiting : ([1], pollResponse waiting pollKey) ∈
    (Outbox.onFrame load waiting [1] (outboxPoll pollKey)).2.sent := by
  rw [onFrame_outboxPoll load_loads]
  simp [pollKey]

theorem mem_poll_polling : ([1], outboxPoll pollKey) ∈ pollKnownOutboxes connected polling := by
  rw [polling_facts.2.2.2]
  exact List.mem_singleton_self _

/-- The inbox has got the message in the usual way before the answer comes. -/
theorem poll_recovers_iff_waiting :
    StoredOnce (processDeliveryFrame load {} connected (Inbox.next load {} polling takenEvent) [1]
      (pollResponse waiting pollKey)).1 waitingMessage := by
  obtain ⟨hcreds, hallowed, hrows, _⟩ := polling_facts
  obtain ⟨t, heq, hfind⟩ : ∃ t, Inbox.next load {} polling takenEvent = { polling with messages := t } ∧ _ :=
    next_frame_new (deliveryOf_frameFrom 1 zero_notMem_store) hallowed (Table.find_eq_none_iff.mpr (by simp [hrows]))
  have hwaits : WaitsFor load waiting pollKey (Inbox.next load {} polling takenEvent) waitingMessage := by
    refine waitsFor_waitingMessage ?_
    rw [heq]
    exact hallowed
  refine (poll_recovers_iff load_loads reached_polling hcreds mem_poll_polling (Run.nil.snoc rfl) waiting mem_sent_waiting).mpr
    ?_ waitingMessage hwaits
  rintro m ⟨hpending, _, _⟩
  rw [listPending_waiting, List.mem_singleton] at hpending
  subst hpending
  rw [heq]
  exact ⟨_, Table.mem_of_find hfind, rfl⟩

/-- The answer comes to an inbox that has nothing, and it is lost. -/
theorem not_storedOnce_waiting :
    ¬ ∀ (s₀ s : InboxStore) (between : List Inbox.Event) (creds : DhtCredentials) (env env' : Env)
      (chan poll : Bytes) (outbox : Outbox.OutboxStore) (chan' response channelId : Bytes) (m : Outbox.QueuedMessage),
      Inbox.Reached load {} s₀ → s₀.dhtCredentials = some creds → (chan, poll) ∈ pollKnownOutboxes env s₀ →
      Run (Inbox.Steps load {}) s₀ between s → (chan', response) ∈ (Outbox.onFrame load outbox chan' poll).2.sent →
      WaitsFor load outbox creds.keyCPubkey s m →
      StoredOnce (processDeliveryFrame load {} env' s channelId response).1 m := by
  intro h
  obtain ⟨hcreds, hallowed, hrows, _⟩ := polling_facts
  have hstored := h polling polling [] pollCredentials connected connected [1] _ waiting [1] _ [1] waitingMessage
    reached_polling hcreds mem_poll_polling Run.nil mem_sent_waiting (waitsFor_waitingMessage hallowed)
  rw [processDeliveryFrame_pollResponse load_loads] at hstored
  obtain ⟨row, ⟨hrow, _⟩, _⟩ := hstored
  rw [hrows] at hrow
  cases hrow

/-! ## The copy for a sibling -/

section Sibling
variable {load : Bytes → Option Item}

/-- The second outbox has a pending row for the message of the first, with the same frame, the same end of its lifetime and the
same recipients. -/
def Replicated (first second : Outbox.OutboxStore) (id : Bytes) : Prop :=
  ∃ msg row, first.getMessage id = some msg ∧ second.getMessage id = some row ∧ row.status = .pending ∧
    row.deliveryFrame = msg.deliveryFrame ∧ row.expiresAtMs = msg.expiresAtMs ∧
    ∀ key cert, (∃ r ∈ second.getRecipientInboxes id, r.keyCPubkey = key ∧ r.authCert = cert) ↔
      ∃ r ∈ first.getRecipientInboxes id, r.keyCPubkey = key ∧ r.authCert = cert

theorem onFrame_replicationFrame (hload : Loads load) (s : Outbox.OutboxStore) (channelId : Bytes) (msg : Outbox.QueuedMessage)
    (inboxes : List Outbox.RecipientInbox) :
    Outbox.onFrame load s channelId (Outbox.replicationFrame msg inboxes) = (s, {}) := by
  have htype : cStr (ascii "outbox_replication_frame") = ascii "outbox_replication_frame" := by decide
  have hload' : load (Outbox.replicationFrame msg inboxes) = some (.map
      ((.text (ascii "type"), .text (ascii "outbox_replication_frame")) ::
        [(.text (ascii "message_id"), .text (cStr msg.messageId)), (.text (ascii "delivery_frame"), .bytes msg.deliveryFrame),
          (.text (ascii "expires_at"), .uint (.a64 (Int64.ofInt msg.expiresAtMs).toUInt64)),
          (.text (ascii "recipient_inboxes"), .array (inboxes.map Outbox.recipientEntry))])) := by
    unfold Outbox.replicationFrame cborSer
    rw [hload.load_encode]
    simp [DefMap.item, mapAddStr, mapAddBytes, mapAddUint, DefMap.add_pairs, htype]
  unfold Outbox.onFrame
  rw [hload']
  dsimp only
  rw [frameType_cons, if_neg (by decide), if_neg (by decide), if_neg (by decide)]

theorem onFrame_of_mem_replicateToSiblings (hload : Loads load) (first second : Outbox.OutboxStore) {env : Outbox.Env}
    {id chan frame : Bytes} (hsent : (chan, frame) ∈ Outbox.replicateToSiblings env first id) (channelId : Bytes) :
    Outbox.onFrame load second channelId frame = (second, {}) := by
  unfold Outbox.replicateToSiblings at hsent
  split at hsent
  · cases hsent
  · obtain ⟨sib, _, hsib⟩ := List.mem_filterMap.mp hsent
    obtain ⟨chan', _, heq⟩ := Option.map_eq_some_iff.mp hsib
    cases heq
    exact onFrame_replicationFrame hload second channelId _ _

theorem not_replicated_of_getMessage_none (first : Outbox.OutboxStore) {second : Outbox.OutboxStore} {id : Bytes}
    (h : second.getMessage id = none) : ¬Replicated first second id := by
  rintro ⟨msg, row, _, hrow, _⟩
  rw [h] at hrow
  cases hrow

/-- A sibling that does not have the message does not get it. -/
theorem sibling_never_replicates (hload : Loads load) (first second : Outbox.OutboxStore) {env : Outbox.Env} {id chan frame : Bytes}
    (hsent : (chan, frame) ∈ Outbox.replicateToSiblings env first id) (hnew : second.getMessage id = none) (channelId : Bytes) :
    ¬Replicated first (Outbox.onFrame load second channelId frame).1 id := by
  rw [onFrame_of_mem_replicateToSiblings hload first second hsent]
  exact not_replicated_of_getMessage_none first hnew

end Sibling

def siblingParams : CborMap :=
  [(.text (ascii "device_id"), .text (ascii "laptop")), (.text (ascii "key_c_pubkey"), .bytes (List.replicate 32 8)),
    (.text (ascii "auth_cert"), .bytes [8])]

def laptop : Outbox.SiblingOutbox := ⟨ascii "laptop", List.replicate 32 8, [8]⟩

/-- The outbox with the message has a sibling. -/
def withSibling : Outbox.OutboxStore :=
  (Outbox.next load {} ⟨waiting, []⟩ (.ipc Outbox.clockZero "outbox.add_sibling" siblingParams)).store

theorem next_addSibling (s : Outbox.OutboxStore) :
    (Outbox.next load {} ⟨s, []⟩ (.ipc Outbox.clockZero "outbox.add_sibling" siblingParams)).store =
      { s with siblings := s.siblings.upsert laptop } := rfl

theorem getMessage_withSibling : withSibling.getMessage frameId = some waitingMessage := by
  unfold withSibling
  rw [next_addSibling]
  unfold Outbox.OutboxStore.getMessage
  rw [waiting_eq]
  exact Outbox.find_enqueuedStore rfl

theorem laptop_mem_withSibling : laptop ∈ withSibling.siblings.rows := by
  unfold withSibling
  rw [next_addSibling]
  exact Table.mem_upsert.mpr (Or.inr rfl)

def siblingConnected : Outbox.Env := ⟨0, fun _ => some [1], true⟩

/-- What the sibling is sent. -/
def siblingFrame : Bytes := Outbox.replicationFrame waitingMessage (withSibling.getRecipientInboxes frameId)

theorem mem_replicateToSiblings_withSibling : ([1], siblingFrame) ∈ Outbox.replicateToSiblings siblingConnected withSibling frameId := by
  unfold Outbox.replicateToSiblings
  rw [getMessage_withSibling]
  exact List.mem_filterMap.mpr ⟨laptop, laptop_mem_withSibling, rfl⟩

theorem sibling_never_replicates_empty :
    ¬Replicated withSibling (Outbox.onFrame load .empty [1] siblingFrame).1 frameId :=
  sibling_never_replicates load_loads withSibling .empty mem_replicateToSiblings_withSibling rfl [1]

theorem not_replicated_siblingFrame :
    ¬ ∀ (first second : Outbox.OutboxStore) (env : Outbox.Env) (id chan frame channelId : Bytes),
      (chan, frame) ∈ Outbox.replicateToSiblings env first id → second.getMessage id = none →
      Replicated first (Outbox.onFrame load second channelId frame).1 id := by
  intro h
  have hreplicated := h withSibling .empty siblingConnected frameId [1] siblingFrame [1] mem_replicateToSiblings_withSibling rfl
  rw [onFrame_of_mem_replicateToSiblings load_loads withSibling .empty mem_replicateToSiblings_withSibling] at hreplicated
  exact not_replicated_of_getMessage_none withSibling rfl hreplicated

end ScatterWeb.Mailbox
