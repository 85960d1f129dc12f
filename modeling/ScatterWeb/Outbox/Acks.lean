import ScatterWeb.Client.DeliveryFrame
import ScatterWeb.Lib.Transition
import ScatterWeb.Outbox.Model

/-! # What a frame does to the outbox

Two types of frames set a status. A `delivery_ack` names one message and the key of an inbox, and that key is looked up among
the recipients; an `outbox_poll_ack` is a list of ids, and nothing is looked up. `Change` says what a frame can do to the
messages. -/
namespace ScatterWeb.Outbox
open Crypto Lib Lib.Cbor Client Mailbox
set_option autoImplicit false

section Frames

theorem find_foldl_setStatus (ids : List Bytes) (st : MsgStatus) (s : OutboxStore) (id : Bytes) :
    (ids.foldl (fun s id => s.setStatus id st) s).messages.find id =
      if id ∈ ids then (s.messages.find id).map (fun m => { m with status := st }) else s.messages.find id := by
  induction ids generalizing s with
  | nil => rfl
  | cons i ids ih =>
    rw [List.foldl_cons, ih, s.find_setStatus]
    by_cases hi : i = id
    · subst hi
      rw [if_pos rfl, if_pos List.mem_cons_self]
      cases s.messages.find i with
      | none => rw [Option.map_none, Option.map_none, ite_self]
      | some m => rw [Option.map_some, Option.map_some, ite_self]
    · rw [if_neg hi]
      simp only [List.mem_cons, Ne.symm hi, false_or]

theorem foldl_setStatus_recipients (ids : List Bytes) (st : MsgStatus) (s : OutboxStore) :
    (ids.foldl (fun s id => s.setStatus id st) s).recipients = s.recipients := by
  induction ids generalizing s with
  | nil => rfl
  | cons i ids ih => exact ih (s.setStatus i st)

/-- The message of a `delivery_ack`, where the key in it is one of its recipients'. -/
def ackedIds (s : OutboxStore) (kvs : List (Item × Item)) : List Bytes :=
  let messageId := (lastField asText kvs "message_id").getD []
  let inboxKeyCPub := (lastField asBytes kvs "inbox_key_c_pubkey").getD []
  if messageId ≠ [] ∧ inboxKeyCPub ≠ [] ∧ s.isValidRecipientInbox messageId inboxKeyCPub = true then [messageId] else []

/-- The ids that a frame sets to delivered. -/
def deliveredIds (load : Bytes → Option Item) (s : OutboxStore) (body : Bytes) : List Bytes :=
  match load body with
  | some (.map kvs) =>
    if frameType (.map kvs) = ascii "delivery_ack" then ackedIds s kvs
    else if frameType (.map kvs) = ascii "outbox_poll_ack" then pollAckIds kvs
    else []
  | _ => []

theorem handleDeliveryAck_store (s : OutboxStore) (kvs : List (Item × Item)) :
    (handleDeliveryAck s kvs).1 = (ackedIds s kvs).foldl (fun s id => s.setStatus id .delivered) s := by
  unfold handleDeliveryAck ackedIds
  dsimp only
  by_cases hempty : (lastField asText kvs "message_id").getD [] = [] ∨ (lastField asBytes kvs "inbox_key_c_pubkey").getD [] = []
  · rw [if_pos hempty, if_neg]
    · rfl
    · rintro ⟨hid, hkey, _⟩
      exact hempty.elim hid hkey
  · obtain ⟨hid, hkey⟩ := not_or.mp hempty
    rw [if_neg hempty]
    split
    · rename_i hvalid
      rw [if_pos ⟨hid, hkey, hvalid⟩]
      rfl
    · rename_i hvalid
      rw [if_neg (fun h => hvalid h.2.2)]
      rfl

/-- All that a frame does to the store. -/
theorem onFrame_store (load : Bytes → Option Item) (s : OutboxStore) (channelId body : Bytes) :
    (onFrame load s channelId body).1 = (deliveredIds load s body).foldl (fun s id => s.setStatus id .delivered) s := by
  unfold onFrame deliveredIds
  cases load body with
  | none => rfl
  | some root =>
    cases root with
    | map kvs =>
      dsimp only
      by_cases hack : frameType (.map kvs) = ascii "delivery_ack"
      · rw [if_pos hack, if_pos hack, handleDeliveryAck_store]
      · rw [if_neg hack, if_neg hack]
        by_cases hpoll : frameType (.map kvs) = ascii "outbox_poll"
        · rw [if_pos hpoll, if_neg (by rw [hpoll]; decide)]
          rfl
        · rw [if_neg hpoll]
          split
          · rfl
          · rfl
    | _ => rfl

theorem find_onFrame (load : Bytes → Option Item) (s : OutboxStore) (channelId body id : Bytes) :
    (onFrame load s channelId body).1.messages.find id =
      if id ∈ deliveredIds load s body then (s.messages.find id).map (fun m => { m with status := .delivered })
      else s.messages.find id := by
  rw [onFrame_store, find_foldl_setStatus]

end Frames

/-! ## The recipient behind an acknowledgement -/

section Authentication
variable (load : Bytes → Option Item) (s : OutboxStore) (body : Bytes)

/-- The frame has the key of an inbox. -/
def HasKey (kvs : List (Item × Item)) (key : Bytes) : Prop :=
  ∃ kv ∈ kvs, textKey kv.1 "inbox_key_c_pubkey" = true ∧ kv.2 = .bytes key

/-- The frame names the message, alone or in a list. -/
def NamesMessage (kvs : List (Item × Item)) (id : Bytes) : Prop :=
  (∃ kv ∈ kvs, textKey kv.1 "message_id" = true ∧ kv.2 = .text id) ∨ id ∈ pollAckIds kvs

/-- The frame names the message together with the key of one of its recipients. -/
def NamesWithRecipient (id : Bytes) : Prop :=
  ∃ kvs key, load body = some (.map kvs) ∧ NamesMessage kvs id ∧ HasKey kvs key ∧ s.isValidRecipientInbox id key = true

/-- Whatever the frame sets to delivered, it names with a recipient. -/
def DeliveredByRecipient (channelId : Bytes) : Prop :=
  ∀ id m m', s.messages.find id = some m → m.status ≠ .delivered →
    (onFrame load s channelId body).1.messages.find id = some m' → m'.status = .delivered → NamesWithRecipient load s body id

/-- The frame is a list of ids, one of them of a message that is not delivered yet and of whose recipients the frame has no key. -/
def AnonymousPollAck : Prop :=
  ∃ kvs id m, load body = some (.map kvs) ∧ frameType (.map kvs) = ascii "outbox_poll_ack" ∧ id ∈ pollAckIds kvs ∧
    s.messages.find id = some m ∧ m.status ≠ .delivered ∧ ¬∃ key, HasKey kvs key ∧ s.isValidRecipientInbox id key = true

variable {load s body}

theorem namesWithRecipient_of_mem_ackedIds {kvs : List (Item × Item)} {id : Bytes} (hload : load body = some (.map kvs))
    (h : id ∈ ackedIds s kvs) : NamesWithRecipient load s body id := by
  unfold ackedIds at h
  dsimp only at h
  split at h
  · rename_i hvalid
    obtain ⟨hid, hkey, hvalid⟩ := hvalid
    rw [List.mem_singleton] at h
    cases htext : lastField asText kvs "message_id" with
    | none =>
      rw [htext] at hid
      exact absurd rfl hid
    | some messageId =>
      cases hbytes : lastField asBytes kvs "inbox_key_c_pubkey" with
      | none =>
        rw [hbytes] at hkey
        exact absurd rfl hkey
      | some key =>
        rw [htext, Option.getD_some] at h hvalid
        rw [hbytes, Option.getD_some] at hvalid
        subst h
        obtain ⟨kv, hmem, heq, hread⟩ := mem_of_lastField htext
        obtain ⟨kv', hmem', heq', hread'⟩ := mem_of_lastField hbytes
        exact ⟨kvs, key, hload, Or.inl ⟨kv, hmem, heq, eq_text_of_asText hread⟩,
          ⟨kv', hmem', heq', eq_bytes_of_asBytes hread'⟩, hvalid⟩
  · cases h

theorem not_deliveredByRecipient_of_anonymous (channelId : Bytes) (h : AnonymousPollAck load s body) :
    ¬DeliveredByRecipient load s body channelId := by
  obtain ⟨kvs, id, m, hload, htype, hid, hm, hstatus, hkey⟩ := h
  intro hdelivered
  have hmem : id ∈ deliveredIds load s body := by
    unfold deliveredIds
    rw [hload]
    dsimp only
    rw [htype, if_neg (by decide), if_pos rfl]
    exact hid
  have hafter : (onFrame load s channelId body).1.messages.find id = some { m with status := .delivered } := by
    rw [find_onFrame, if_pos hmem, hm, Option.map_some]
  obtain ⟨kvs', key, hload', _, hhas, hvalid⟩ := hdelivered id m _ hm hstatus hafter rfl
  cases hload.symm.trans hload'
  exact hkey ⟨key, hhas, hvalid⟩

theorem deliveredByRecipient_of_not_anonymous (channelId : Bytes) (h : ¬AnonymousPollAck load s body) :
    DeliveredByRecipient load s body channelId := by
  intro id m m' hm hstatus hm' hstatus'
  rw [find_onFrame] at hm'
  split at hm'
  · rename_i hmem
    unfold deliveredIds at hmem
    split at hmem
    · rename_i kvs hload
      split at hmem
      · exact namesWithRecipient_of_mem_ackedIds hload hmem
      · split at hmem
        · rename_i htype
          by_contra hnames
          refine h ⟨kvs, id, m, hload, htype, hmem, hm, hstatus, ?_⟩
          rintro ⟨key, hhas, hvalid⟩
          exact hnames ⟨kvs, key, hload, Or.inr hmem, hhas, hvalid⟩
        · cases hmem
    · cases hmem
  · -- The frame did not touch the row, which is not delivered.
    rw [hm] at hm'
    cases hm'
    exact absurd hstatus' hstatus

/-- A frame sets only messages to delivered that it names with a recipient, unless it is an anonymous list. -/
theorem delivered_by_recipient_iff (load : Bytes → Option Item) (s : OutboxStore) (channelId body : Bytes) :
    DeliveredByRecipient load s body channelId ↔ ¬AnonymousPollAck load s body :=
  ⟨fun hdelivered hanon => not_deliveredByRecipient_of_anonymous channelId hanon hdelivered,
    deliveredByRecipient_of_not_anonymous channelId⟩

end Authentication

/-! ## A message in the queue -/

section Queue
variable {load : Bytes → Option Item} {cfg : Config} {env : Env} {s : OutboxStore} {p : CborMap}

def next (load : Bytes → Option Item) (cfg : Config) (p : Process) (e : Event) : Process := (step load cfg p e).1

def Steps (load : Bytes → Option Item) (cfg : Config) (p : Process) (e : Event) (q : Process) : Prop := q = next load cfg p e

def Reached (load : Bytes → Option Item) (cfg : Config) (p : Process) : Prop := Reachable (Steps load cfg) Process.initial p

theorem foldl_addRecipientInbox_messages (rs : List RecipientInbox) (s : OutboxStore) :
    (rs.foldl OutboxStore.addRecipientInbox s).messages = s.messages := by
  induction rs generalizing s with
  | nil => rfl
  | cons r rs ih => rw [List.foldl_cons, ih, s.addRecipientInbox_messages]

/-- What `outbox.enqueue` puts into the store. -/
def enqueuedStore (env : Env) (s : OutboxStore) (frame : Bytes) (hdr : DeliveryFrameHeader) (p : CborMap) : OutboxStore :=
  (recipientInboxes hdr.messageId p).foldl OutboxStore.addRecipientInbox (s.insertMessage (queuedMessage env frame hdr p)).1

theorem enqueue_ok {frame : Bytes} {hdr : DeliveryFrameHeader} (hframe : reqBytes p "delivery_frame" = .ok frame)
    (hparse : parseDeliveryFrame load frame = some hdr) (hnew : s.messages.find hdr.messageId = none) :
    enqueue load env s p = .ok (enqueuedStore env s frame hdr p, .read hdr.messageId none) := by
  have hthrow : parseOrThrow load frame = .ok hdr := by
    unfold parseOrThrow
    rw [hparse]
  have hins : (s.messages.insertNew (queuedMessage env frame hdr p)).2 = true := Table.insertNew_of_find_none hnew
  unfold enqueue
  rw [hframe]
  simp only [bind, Except.bind, hthrow, OutboxStore.insertMessage, hins]
  rfl

theorem next_enqueue {q : Process} {frame : Bytes} {hdr : DeliveryFrameHeader} (hframe : reqBytes p "delivery_frame" = .ok frame)
    (hparse : parseDeliveryFrame load frame = some hdr) (hnew : q.store.messages.find hdr.messageId = none) :
    next load cfg q (.ipc env "outbox.enqueue" p) =
      ⟨enqueuedStore env q.store frame hdr p, q.tasks ++ [.read hdr.messageId none]⟩ := by
  have hhandle : handle load env q.store "outbox.enqueue" p = (enqueue load env q.store p).map (fun r => .started r.1 r.2) := rfl
  simp only [next, step, hhandle, enqueue_ok hframe hparse hnew, Except.map]

theorem find_enqueuedStore {frame : Bytes} {hdr : DeliveryFrameHeader} (hnew : s.messages.find hdr.messageId = none) :
    (enqueuedStore env s frame hdr p).messages.find hdr.messageId = some (queuedMessage env frame hdr p) := by
  unfold enqueuedStore OutboxStore.insertMessage
  rw [foldl_addRecipientInbox_messages]
  dsimp only
  rw [Table.find_insertNew, if_pos ⟨rfl, hnew⟩]

theorem parseDeliveryFrame_encodeDeliveryFrame (hload : Loads load) (f : DeliveryFrame) (hid : f.messageId.length = 16) :
    parseDeliveryFrame load (encodeDeliveryFrame f) = some { messageId := bytesToHex f.messageId } := by
  have hroot : load (encodeDeliveryFrame f) = some (.map (deliveryFrameMap f).pairs) := hload.load_encode _
  have hne : bytesToHex f.messageId ≠ [] := by
    intro h
    have := length_bytesToHex f.messageId
    simp [h, hid] at this
  unfold parseDeliveryFrame
  rw [hroot, deliveryFrameMap_pairs]
  by_cases hcert : f.senderOutboxCert = []
  · simp [lastField, lastWith, asHex, asHexOfAny, asBytes, hcert, hid, hne]
  · simp [lastField, lastWith, asHex, asHexOfAny, asBytes, hcert, hid, hne]

end Queue

def clockZero : Env := ⟨0, fun _ => none, false⟩

def queuedFrame : Bytes :=
  encodeDeliveryFrame { messageId := List.replicate 16 7, persistence := ascii "store", senderId := List.replicate 32 1 }

def queuedId : Bytes := bytesToHex (List.replicate 16 7)

/-- A message for one inbox. -/
def enqueueParams : CborMap :=
  [(.text (ascii "delivery_frame"), .bytes queuedFrame),
    (.text (ascii "recipient_inboxes"), .array [.map [(.text (ascii "key_c_pubkey"), .bytes [9]), (.text (ascii "auth_cert"), .bytes [9])]])]

theorem reqBytes_enqueueParams : reqBytes enqueueParams "delivery_frame" = .ok queuedFrame := by
  simp [reqBytes, CborMap.find, lastField, lastWith, enqueueParams]

theorem parseDeliveryFrame_queuedFrame : parseDeliveryFrame load queuedFrame = some { messageId := queuedId } :=
  parseDeliveryFrame_encodeDeliveryFrame load_loads _ (by simp)

def queued : Process := next load {} Process.initial (.ipc clockZero "outbox.enqueue" enqueueParams)

theorem queued_eq : queued =
    ⟨enqueuedStore clockZero .empty queuedFrame { messageId := queuedId } enqueueParams, [.read queuedId none]⟩ :=
  next_enqueue reqBytes_enqueueParams parseDeliveryFrame_queuedFrame rfl

theorem find_queued : queued.store.messages.find queuedId =
    some (queuedMessage clockZero queuedFrame { messageId := queuedId } enqueueParams) := by
  rw [queued_eq]
  exact find_enqueuedStore rfl

theorem reached_queued : Reached load {} queued := (Reachable.refl _ _).tail rfl

/-- A list of ids without any key. -/
def pollAck (ids : List Bytes) : Bytes :=
  encode (.map [(.text (ascii "type"), .text (ascii "outbox_poll_ack")), (.text (ascii "message_ids"), .array (ids.map .text))])

theorem anonymousPollAck_of_find {load : Bytes → Option Item} (hload : Loads load) {s : OutboxStore} {id : Bytes} {m : QueuedMessage}
    (hm : s.messages.find id = some m) (hstatus : m.status ≠ .delivered) : AnonymousPollAck load s (pollAck [id]) := by
  refine ⟨_, id, m, hload.load_encode _, ?_, ?_, hm, hstatus, ?_⟩
  · simp [frameType, getField]
  · simp [pollAckIds, asText]
  · rintro ⟨key, ⟨kv, hmem, hkey, _⟩, _⟩
    simp only [List.mem_cons, List.not_mem_nil, or_false] at hmem
    rcases hmem with rfl | rfl
    · simp at hkey
    · simp at hkey

/-- Anybody can set the queued message to delivered. -/
theorem not_deliveredByRecipient_pollAck :
    ¬ ∀ p channelId body, Reached load {} p → DeliveredByRecipient load p.store body channelId := by
  intro h
  have hpending : (queuedMessage clockZero queuedFrame { messageId := queuedId } enqueueParams).status ≠ .delivered :=
    fun hstatus => nomatch hstatus
  exact not_deliveredByRecipient_of_anonymous [] (anonymousPollAck_of_find load_loads find_queued hpending)
    (h queued [] _ reached_queued)

end ScatterWeb.Outbox
