import ScatterWeb.Client.Store
import ScatterWeb.Mailbox.Safety
import ScatterWeb.Outbox.Steps

/-! # Acknowledgements of a broadcast

`enqueue_broadcast` queues one row for each recipient, under the id of the frame with the start of the recipient's key
appended, and lists the recipient's inbox under that id. The frame itself goes out with its own id, which is the one that the
inbox acknowledges and the one under which the Client keeps the message. So the outbox looks for a row and a recipient
that are not there, and the row of a broadcast stays as it is. -/
namespace ScatterWeb.Mailbox
open Crypto Lib Lib.Cbor Client Inbox
open Outbox (OutboxStore Broadcast broadcastId broadcastMessage)
set_option autoImplicit false

section Acks
variable (load : Bytes → Option Item)

/-- A recipient of the broadcast has taken the frame, and its acknowledgement is on the way. -/
structure AckedBroadcast (cfg : Inbox.Config) (env : Inbox.Env) (s : OutboxStore) (b : Broadcast) (kb : Bytes) (inbox : InboxStore)
    (channelId ack : Bytes) : Prop where
  parsed : ∃ hdr, Outbox.parseDeliveryFrame load b.frame = some hdr ∧ hdr.messageId = b.baseId
  queued : ∃ m, s.messages.find (broadcastId b kb) = some m ∧ m.deliveryFrame = b.frame ∧ m.status = .pending
  recipient : ∃ creds, inbox.dhtCredentials = some creds ∧ s.isValidRecipientInbox (broadcastId b kb) creds.keyCPubkey = true
  stored : ∃ hdr m, deliveryOf load b.frame = some hdr ∧ (channelId, ack) ∈ sendAck inbox channelId hdr.messageId ∧
    (channelId, ack) ∈ (processDeliveryFrame load cfg env inbox channelId b.frame).2.sent ∧
    (processDeliveryFrame load cfg env inbox channelId b.frame).1.messages.find hdr.messageId = some m ∧ m.deliveryFrame = b.frame

/-- What the Client makes of the statuses that the outbox announces. -/
def onPushes (db : Client.Store) (pushes : List Bytes) : Client.Store :=
  pushes.foldl (fun db id => (onOutboxStatus db id (ascii "delivered") 0).1) db

/-- The acknowledgement sets the row of the recipient and of no other, and the message of the Client. -/
structure ClosesRow (s : OutboxStore) (b : Broadcast) (kb channelId ack : Bytes) (db : Client.Store) : Prop where
  row : ∃ m, (Outbox.onFrame load s channelId ack).1.messages.find (broadcastId b kb) = some m ∧ m.status = .delivered
  others : ∀ kb', broadcastId b kb' ≠ broadcastId b kb →
    (Outbox.onFrame load s channelId ack).1.messages.find (broadcastId b kb') = s.messages.find (broadcastId b kb')
  client : ∀ m, db.getMessage b.baseId = some m →
    ∃ m', (onPushes db (Outbox.onFrame load s channelId ack).2.pushes).getMessage b.baseId = some m' ∧ m'.status = ascii "delivered"

variable {load} {cfg : Inbox.Config} {env : Inbox.Env} {s : OutboxStore} {b : Broadcast} {kb : Bytes} {inbox : InboxStore}
  {channelId ack : Bytes}

/-- Both daemons read the same id from a frame. -/
theorem messageId_eq {body : Bytes} {hdr : FrameHeader} {hdr' : Outbox.DeliveryFrameHeader} (h : deliveryOf load body = some hdr)
    (h' : Outbox.parseDeliveryFrame load body = some hdr') : hdr.messageId = hdr'.messageId := by
  have hparse := parseFrameHeader_of_deliveryOf h
  unfold parseFrameHeader at hparse
  unfold Outbox.parseDeliveryFrame at h'
  split at hparse
  · rename_i kvs hload
    rw [hload] at h'
    dsimp only at hparse h'
    split at hparse
    · cases hparse
    · split at h'
      · cases h'
      · cases hparse
        cases h'
        rfl
  · cases hparse

theorem broadcastId_ne_baseId (b : Broadcast) (kb : Bytes) : broadcastId b kb ≠ b.baseId := by
  intro h
  have hlen := congrArg List.length h
  unfold broadcastId at hlen
  rw [List.length_append, List.length_append] at hlen
  have hone : (ascii "_").length = 1 := by decide
  omega

/-- The id that the inbox acknowledges is not that of the row. -/
theorem find_onFrame_ack (hload : Loads load) (h : AckedBroadcast load cfg env s b kb inbox channelId ack) (channelId' : Bytes) :
    (Outbox.onFrame load s channelId' ack).1.messages.find (broadcastId b kb) = s.messages.find (broadcastId b kb) := by
  obtain ⟨hdr', hparse, hbase⟩ := h.parsed
  obtain ⟨hdr, _, hdelivery, hack, _⟩ := h.stored
  obtain ⟨creds, hcreds, _⟩ := h.recipient
  unfold sendAck at hack
  rw [hcreds] at hack
  obtain ⟨_, rfl⟩ := Prod.mk.inj (List.mem_singleton.mp hack)
  rw [Outbox.find_onFrame, if_neg]
  intro hmem
  obtain ⟨hid, _⟩ := mem_deliveredIds_deliveryAck hload (zero_notMem_messageId hdelivery) hmem
  rw [messageId_eq hdelivery hparse, hbase] at hid
  exact broadcastId_ne_baseId b kb hid

theorem not_closesRow_of_find {db : Client.Store} (hqueued : ∃ m, s.messages.find (broadcastId b kb) = some m ∧ m.status = .pending)
    (hsame : (Outbox.onFrame load s channelId ack).1.messages.find (broadcastId b kb) = s.messages.find (broadcastId b kb)) :
    ¬ClosesRow load s b kb channelId ack db := by
  intro hcloses
  obtain ⟨m, hm, hdelivered⟩ := hcloses.row
  obtain ⟨m', hm', hpending⟩ := hqueued
  rw [hsame, hm'] at hm
  cases hm
  rw [hpending] at hdelivered
  cases hdelivered

/-- No acknowledgement of an inbox closes the row of a broadcast, and the row stays as it is. -/
theorem broadcast_ack_never_closes_row (hload : Loads load) (db : Client.Store)
    (h : AckedBroadcast load cfg env s b kb inbox channelId ack) (channelId' : Bytes) :
    (Outbox.onFrame load s channelId' ack).1.messages.find (broadcastId b kb) = s.messages.find (broadcastId b kb) ∧
      ¬ClosesRow load s b kb channelId' ack db := by
  obtain ⟨m, hm, _, hpending⟩ := h.queued
  have hsame := find_onFrame_ack hload h channelId'
  exact ⟨hsame, not_closesRow_of_find ⟨m, hm, hpending⟩ hsame⟩

end Acks

/-! ## A group of two -/

theorem isValidRecipientInbox_addInbox (s : OutboxStore) (id : Bytes) {key cert : Bytes} (hkey : key ≠ []) (hcert : cert ≠ []) :
    (Outbox.addInbox s id (some (key, cert))).isValidRecipientInbox id key = true :=
  s.isValidRecipientInbox_self (r := ⟨id, key, cert⟩) hkey hcert

def memberKey : Bytes := ascii "aabbccdd"

def memberEntry : Item :=
  .map [(.text (ascii "recipient_key_b_kem_pubkey_hex"), .text memberKey), (.text (ascii "key_c_pubkey"), .bytes [9]),
    (.text (ascii "auth_cert"), .bytes [9])]

theorem readRecipient_memberEntry : Outbox.readRecipient memberEntry = some (memberKey, some ([9], [9])) := by
  simp [Outbox.readRecipient, CborMap.find, lastField, lastWith, memberEntry]

/-- A message for one other member and its inbox. -/
def groupParams : CborMap :=
  [(.text (ascii "delivery_frame"), .bytes Outbox.queuedFrame), (.text (ascii "recipients"), .array [memberEntry])]

def group (todo : List Item) : Broadcast := { frame := Outbox.queuedFrame, baseId := Outbox.queuedId, nowMs := 0, todo }

theorem enqueueBroadcast_groupParams :
    Outbox.enqueueBroadcast load Outbox.clockZero groupParams = .ok (.broadcast (group [memberEntry])) := by
  have hframe : reqBytes groupParams "delivery_frame" = .ok Outbox.queuedFrame := by
    simp [reqBytes, CborMap.find, lastField, lastWith, groupParams]
  have hrecipients : groupParams.find "recipients" = some (.array [memberEntry]) := by
    simp [CborMap.find, lastField, lastWith, groupParams]
  have hparse : Outbox.parseOrThrow load Outbox.queuedFrame = .ok { messageId := Outbox.queuedId } := by
    unfold Outbox.parseOrThrow
    rw [Outbox.parseDeliveryFrame_queuedFrame]
  unfold Outbox.enqueueBroadcast
  rw [hframe]
  simp only [bind, Except.bind, hparse, hrecipients]
  rfl

/-- The outbox after the request, with the row of the member. -/
def groupQueued : Outbox.Process :=
  Outbox.next load {} (Outbox.next load {} .initial (.ipc Outbox.clockZero "outbox.enqueue_broadcast" groupParams))
    (.work Outbox.clockZero 0)

theorem reached_groupQueued : Outbox.Reached load {} groupQueued := ((Reachable.refl _ _).tail rfl).tail rfl

theorem groupQueued_store : groupQueued.store = Outbox.addInbox (OutboxStore.empty.insertMessage (broadcastMessage (group []) memberKey)).1
    (broadcastId (group []) memberKey) (some ([9], [9])) := by
  have hhandle : Outbox.handle load Outbox.clockZero .empty "outbox.enqueue_broadcast" groupParams =
      (Outbox.enqueueBroadcast load Outbox.clockZero groupParams).map (.started .empty) := rfl
  have hstarted : Outbox.next load {} .initial (.ipc Outbox.clockZero "outbox.enqueue_broadcast" groupParams) =
      ⟨.empty, [.broadcast (group [memberEntry])]⟩ := by
    simp only [Outbox.next, Outbox.step, Outbox.Process.initial, hhandle, enqueueBroadcast_groupParams, Except.map, List.nil_append]
  have htask : ([.broadcast (group [memberEntry])] : List Outbox.Task)[0]? = some (.broadcast (group [memberEntry])) := rfl
  obtain ⟨l, r, _, hnext⟩ := Outbox.next_work load {} Outbox.clockZero (q := ⟨.empty, [.broadcast (group [memberEntry])]⟩) htask
  unfold groupQueued
  rw [hstarted, hnext]
  exact congrArg Prod.fst (Outbox.broadcastNext_new (s := .empty) (b := group [memberEntry]) rfl readRecipient_memberEntry rfl)

theorem ackedBroadcast_groupQueued : AckedBroadcast load {} clockZero groupQueued.store (group []) memberKey ready []
    (deliveryAck frameId [9]) := by
  obtain ⟨creds, hcreds, hkey⟩ := Option.map_eq_some_iff.mp key_ready
  obtain ⟨_, hallowed, _, hnew⟩ := ready_facts
  have hframe := deliveryOf_frameFrom 1 zero_notMem_store
  have hack : ([], deliveryAck frameId [9]) ∈ sendAck ready [] frameId := by
    unfold sendAck
    rw [hcreds, ← hkey]
    exact List.mem_singleton.mpr rfl
  refine ⟨⟨_, Outbox.parseDeliveryFrame_queuedFrame, rfl⟩, ⟨broadcastMessage (group []) memberKey, ?_, rfl, rfl⟩, ⟨creds, hcreds, ?_⟩,
    ⟨_, _, hframe, hack, ?_, find_processDeliveryFrame_new hframe hallowed hnew, rfl⟩⟩
  · rw [groupQueued_store, Outbox.addInbox, OutboxStore.addRecipientInbox_messages]
    exact (Table.find_insertNew _ _ _).trans (if_pos ⟨rfl, rfl⟩)
  · rw [groupQueued_store, hkey]
    exact isValidRecipientInbox_addInbox _ _ (List.cons_ne_nil _ _) (List.cons_ne_nil _ _)
  · obtain ⟨sent, hstore, _⟩ : ∃ sent, storeDelivery {} clockZero ready [] (frameFrom 1 (ascii "store")) _ = _ ∧ _ := storeDelivery_new hnew
    have hsame : (group []).frame = frameFrom 1 (ascii "store") := rfl
    rw [hsame, processDeliveryFrame_delivery hframe, if_pos hallowed, hstore]
    exact List.mem_append_left _ hack

theorem broadcast_ack_never_closes_row_group :
    ¬ClosesRow load groupQueued.store (group []) memberKey [] (deliveryAck frameId [9]) ⟨[], []⟩ :=
  (broadcast_ack_never_closes_row load_loads ⟨[], []⟩ ackedBroadcast_groupQueued []).2

/-- The member's inbox stores the frame and acknowledges it, and the row stays pending. -/
theorem not_closesRow_groupQueued : ¬ ∀ (p : Outbox.Process) (b : Broadcast) (kb : Bytes) (inbox : InboxStore) (channelId ack : Bytes)
    (db : Client.Store), Outbox.Reached load {} p → AckedBroadcast load {} clockZero p.store b kb inbox channelId ack →
      ClosesRow load p.store b kb channelId ack db := by
  intro h
  have hacked := ackedBroadcast_groupQueued
  obtain ⟨m, hm, _, hpending⟩ := hacked.queued
  exact not_closesRow_of_find ⟨m, hm, hpending⟩ (find_onFrame_ack load_loads hacked [])
    (h groupQueued (group []) memberKey ready [] _ ⟨[], []⟩ reached_groupQueued hacked)

end ScatterWeb.Mailbox
