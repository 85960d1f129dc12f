import ScatterWeb.Outbox.Store

/-! # The outbox of `outbox/src/outbox.cpp` and `outbox/src/ipc_handler.cpp`

Frames are handled on one thread. The retry loop, the startup burst and every request that queues a message run beside it on
their own, and work on copies of the rows they read: such an activity is a `Task`, which goes on by one access to the store or
one attempt at a time, in any order with the rest. What they read from outside is in `Env`. A call of `frame.send` is in
the output whether or not it succeeds. -/
namespace ScatterWeb.Outbox
open Crypto Lib Lib.Cbor Client Mailbox
set_option autoImplicit false

structure Config where
  retryWindowS : ℤ := 600
  maxRetries : ℤ := 3

structure Env where
  nowMs : ℤ
  /-- The channel that `ensure_channel` returns for a key in hexadecimal; `none` where it throws. -/
  ensureChannel : Bytes → Option Bytes
  /-- `frame.send` does not throw. -/
  sendOk : Bool

/-- Payloads given to `frame.send` with their channel, ids announced as delivered, ids of messages for which
`attempt_delivery` is called, and the answer to a request. -/
structure Output where
  sent : List (Bytes × Bytes) := []
  pushes : List Bytes := []
  attempts : List Bytes := []
  reply : Option (Except IpcError Reply) := none

section Frames
variable (load : Bytes → Option Item)

/-! ## Frames -/

structure DeliveryFrameHeader where
  messageId : Bytes := []
  recipientKeyBKemPubkeyHex : Bytes := []
  senderOutboxKeyCPubkeyHex : Bytes := []

def asHexOfAny (item : Item) : Option Bytes := (asBytes item).map bytesToHex

def parseDeliveryFrame (frame : Bytes) : Option DeliveryFrameHeader :=
  match load frame with
  | some (.map kvs) =>
    let out : DeliveryFrameHeader :=
      { messageId := (lastField (asHex 16) kvs "message_id").getD []
        recipientKeyBKemPubkeyHex := (lastField asHexOfAny kvs "recipient_key_b_kem_pubkey").getD []
        senderOutboxKeyCPubkeyHex := (lastField asHexOfAny kvs "sender_outbox_key_c_pubkey").getD [] }
    if out.messageId = [] then none else some out
  | _ => none

def handleDeliveryAck (s : OutboxStore) (kvs : List (Item × Item)) : OutboxStore × Output :=
  let messageId := (lastField asText kvs "message_id").getD []
  let inboxKeyCPub := (lastField asBytes kvs "inbox_key_c_pubkey").getD []
  if messageId = [] ∨ inboxKeyCPub = [] then (s, {})
  else if s.isValidRecipientInbox messageId inboxKeyCPub then (s.setStatus messageId .delivered, { pushes := [messageId] })
  else (s, {})

/-- The ids of every list under `"message_ids"`, in order. -/
def pollAckIds (kvs : List (Item × Item)) : List Bytes :=
  kvs.flatMap (fun kv =>
    if textKey kv.1 "message_ids" then
      match kv.2 with
      | .array xs => xs.filterMap asText
      | _ => []
    else [])

def handlePollAck (s : OutboxStore) (kvs : List (Item × Item)) : OutboxStore × Output :=
  ((pollAckIds kvs).foldl (fun s id => s.setStatus id .delivered) s, { pushes := pollAckIds kvs })

def pollEntry (m : QueuedMessage) : Item :=
  let e := DefMap.new 2
  let e := mapAddStr e "message_id" m.messageId
  let e := mapAddBytes e "delivery_frame" m.deliveryFrame
  e.item

/-- The pending messages for the inbox that polls. -/
def handlePoll (s : OutboxStore) (channelId : Bytes) (kvs : List (Item × Item)) : List (Bytes × Bytes) :=
  let inboxKeyCPub := (lastField asBytes kvs "inbox_key_c_pubkey").getD []
  if inboxKeyCPub = [] then []
  else
    let msgs := s.listPending.filter (fun m => s.isValidRecipientInbox m.messageId inboxKeyCPub)
    let m := DefMap.new 2
    let m := mapAddStr m "type" (ascii "outbox_poll_response")
    let m := m.add (.text (ascii "messages")) (.array (msgs.map pollEntry))
    [(channelId, cborSer m)]

/-- A frame with a type is a map; the handlers load it again. -/
def onFrame (s : OutboxStore) (channelId body : Bytes) : OutboxStore × Output :=
  match load body with
  | some (.map kvs) =>
    if frameType (.map kvs) = ascii "delivery_ack" then handleDeliveryAck s kvs
    else if frameType (.map kvs) = ascii "outbox_poll" then (s, { sent := handlePoll s channelId kvs })
    else if frameType (.map kvs) = ascii "outbox_poll_ack" then handlePollAck s kvs
    else (s, {})
  | _ => (s, {})

end Frames

/-! ## Tasks -/

/-- `enqueue_broadcast` between two recipients. -/
structure Broadcast where
  frame : Bytes
  baseId : Bytes
  nowMs : ℤ
  todo : List Item
  enqueuedIds : List Bytes := []

inductive Loop
  | burst
  | retry
  deriving DecidableEq

/-- Who tries to deliver a message: a loop with the rest of its list, or a request. -/
inductive Origin
  | loop (kind : Loop) (rest : List QueuedMessage)
  | immediate (andThen : Option Broadcast)

inductive Task
  /-- `immediate_attempt`, before the message is read. -/
  | read (id : Bytes) (andThen : Option Broadcast)
  /-- The head of a loop over messages. -/
  | loop (kind : Loop) (queue : List QueuedMessage)
  /-- The loop over the inboxes of a message. -/
  | inboxes (origin : Origin) (msg : QueuedMessage) (todo : List RecipientInbox)
  /-- No inbox was reached. -/
  | failed (origin : Origin) (msg : QueuedMessage)
  | replicate (id : Bytes) (andThen : Option Broadcast)
  | broadcast (b : Broadcast)

section Tasks
variable (cfg : Config) (env : Env) (s : OutboxStore)

/-- The end of a request that queued a message, or the way back into `enqueue_broadcast`. -/
def finish (id : Bytes) : Option Broadcast → Option Task × Output
  | none => (none, { reply := some (.ok [("message_id", .text id), ("ok", .bool true)]) })
  | some b => (some (.broadcast { b with enqueuedIds := b.enqueuedIds ++ [id] }), {})

def afterSuccess (msg : QueuedMessage) : Origin → Task
  | .loop kind rest => .loop kind rest
  | .immediate andThen => .replicate msg.messageId andThen

/-- The burst does not count attempts. -/
def afterInboxes (msg : QueuedMessage) : Origin → Task
  | .loop .burst rest => .loop .burst rest
  | origin => .failed origin msg

def attemptDelivery (msg : QueuedMessage) (ri : RecipientInbox) : Bool × Output :=
  match env.ensureChannel (bytesToHex ri.keyCPubkey) with
  | none => (false, { attempts := [msg.messageId] })
  | some chan => (env.sendOk, { sent := [(chan, msg.deliveryFrame)], attempts := [msg.messageId] })

def delayMs (count : ℤ) : ℤ := 60 * 2 ^ (min (count - 1) 4).toNat * 1000

/-- A loop compares the time passed with the retry window, a request also adds the delay. -/
def spentMs (msg : QueuedMessage) : Origin → ℤ
  | .loop _ _ => env.nowMs - msg.enqueuedAtMs
  | .immediate _ => env.nowMs - msg.enqueuedAtMs + delayMs (msg.attemptCount + 1)

def countAttempt (origin : Origin) (msg : QueuedMessage) : OutboxStore :=
  let count := msg.attemptCount + 1
  if cfg.retryWindowS * 1000 < spentMs env msg origin ∨ cfg.maxRetries ≤ count then s.updateAttempt msg.messageId count 0
  else s.updateAttempt msg.messageId count (env.nowMs + delayMs count)

def recipientEntry (ri : RecipientInbox) : Item :=
  let e := DefMap.new 2
  let e := mapAddBytes e "inbox_key_c_pubkey" ri.keyCPubkey
  let e := mapAddBytes e "auth_cert" ri.authCert
  e.item

def replicationFrame (msg : QueuedMessage) (inboxes : List RecipientInbox) : Bytes :=
  let rf := DefMap.new 5
  let rf := mapAddStr rf "type" (ascii "outbox_replication_frame")
  let rf := mapAddStr rf "message_id" msg.messageId
  let rf := mapAddBytes rf "delivery_frame" msg.deliveryFrame
  let rf := mapAddUint rf "expires_at" (Int64.ofInt msg.expiresAtMs).toUInt64
  let rf := rf.add (.text (ascii "recipient_inboxes")) (.array (inboxes.map recipientEntry))
  cborSer rf

def replicateToSiblings (messageId : Bytes) : List (Bytes × Bytes) :=
  match s.getMessage messageId with
  | none => []
  | some msg =>
    s.siblings.rows.filterMap (fun sib =>
      (env.ensureChannel (bytesToHex sib.keyCPubkey)).map (fun chan =>
        (chan, replicationFrame msg (s.getRecipientInboxes messageId))))

/-- A recipient of a broadcast: its key, and its inbox where both parts of that are given. -/
def readRecipient : Item → Option (Bytes × Option (Bytes × Bytes))
  | .map m =>
    match CborMap.find m "recipient_key_b_kem_pubkey_hex" with
    | some (.text kb) =>
      match CborMap.find m "key_c_pubkey", CborMap.find m "auth_cert" with
      | some (.bytes keyCPubkey), some (.bytes authCert) => some (kb, some (keyCPubkey, authCert))
      | _, _ => some (kb, none)
    | _ => none
  | _ => none

def weekMs : ℤ := 7 * 86400 * 1000

def broadcastId (b : Broadcast) (kb : Bytes) : Bytes := b.baseId ++ ascii "_" ++ kb.take 8

/-- The row for one recipient of a broadcast. -/
def broadcastMessage (b : Broadcast) (kb : Bytes) : QueuedMessage where
  messageId := broadcastId b kb
  recipientKeyBKemPubkeyHex := kb
  deliveryFrame := b.frame
  enqueuedAtMs := b.nowMs
  expiresAtMs := b.nowMs + weekMs
  nextAttemptAt := b.nowMs

def addInbox (messageId : Bytes) : Option (Bytes × Bytes) → OutboxStore
  | none => s
  | some (keyCPubkey, authCert) => s.addRecipientInbox { messageId, keyCPubkey, authCert }

def broadcastNext (b : Broadcast) : OutboxStore × Option Task × Output :=
  match b.todo with
  | [] => (s, none, { reply := some (.ok [("enqueued_ids", .array (b.enqueuedIds.map .text)), ("ok", .bool true)]) })
  | v :: rest =>
    let b := { b with todo := rest }
    match readRecipient v with
    | none => (s, some (.broadcast b), {})
    | some (kb, inbox) =>
      match s.insertMessage (broadcastMessage b kb) with
      | (s, false) => (s, some (.broadcast b), {})
      | (s, true) => (addInbox s (broadcastId b kb) inbox, some (.read (broadcastId b kb) (some b)), {})

def work : Task → OutboxStore × Option Task × Output
  | .read id andThen =>
    match s.getMessage id with
    | none => (s, finish id andThen)
    | some msg =>
      if msg.status = .pending then (s, some (.inboxes (.immediate andThen) msg (s.getRecipientInboxes id)), {})
      else (s, finish id andThen)
  | .loop _ [] => (s, none, {})
  | .loop kind (msg :: rest) => (s, some (.inboxes (.loop kind rest) msg (s.getRecipientInboxes msg.messageId)), {})
  | .inboxes origin msg [] => (s, some (afterInboxes msg origin), {})
  | .inboxes origin msg (ri :: todo) =>
    match attemptDelivery env msg ri with
    | (true, out) => (s, some (afterSuccess msg origin), out)
    | (false, out) => (s, some (.inboxes origin msg todo), out)
  | .failed origin msg => (countAttempt cfg env s origin msg, some (afterSuccess msg origin), {})
  | .replicate id andThen =>
    let (task, out) := finish id andThen
    (s, task, { out with sent := replicateToSiblings env s id })
  | .broadcast b => broadcastNext s b

end Tasks

/-! ## Requests -/

section Requests
variable (load : Bytes → Option Item) (env : Env) (s : OutboxStore)

/-- An inbox of the recipient; an entry without a key or a certificate is skipped. -/
def readRecipientInbox (messageId : Bytes) : Item → Option RecipientInbox
  | .map m =>
    match CborMap.find m "key_c_pubkey", CborMap.find m "auth_cert" with
    | some (.bytes keyCPubkey), some (.bytes authCert) => some { messageId, keyCPubkey, authCert }
    | _, _ => none
  | _ => none

def recipientInboxes (messageId : Bytes) (p : CborMap) : List RecipientInbox :=
  match p.find "recipient_inboxes" with
  | some (.array arr) => arr.filterMap (readRecipientInbox messageId)
  | _ => []

def ttlMs (p : CborMap) : ℤ :=
  match p.find "ttl_ms" with
  | some (.uint a) => (UInt64.ofNat a.toNat).toInt64.toInt
  | _ => weekMs

def queuedMessage (frame : Bytes) (hdr : DeliveryFrameHeader) (p : CborMap) : QueuedMessage where
  messageId := hdr.messageId
  recipientKeyBKemPubkeyHex := hdr.recipientKeyBKemPubkeyHex
  deliveryFrame := frame
  enqueuedAtMs := env.nowMs
  expiresAtMs := env.nowMs + ttlMs p
  nextAttemptAt := env.nowMs

def parseOrThrow (frame : Bytes) : Except IpcError DeliveryFrameHeader :=
  match parseDeliveryFrame load frame with
  | none => .error (.runtime (ascii "malformed delivery_frame"))
  | some hdr => .ok hdr

/-- Up to the call of `immediate_attempt`. -/
def enqueue (p : CborMap) : Except IpcError (OutboxStore × Task) := do
  let frame ← reqBytes p "delivery_frame"
  let hdr ← parseOrThrow load frame
  match s.insertMessage (queuedMessage env frame hdr p) with
  | (_, false) => .error (.runtime (ascii "DUPLICATE_MESSAGE_ID"))
  | (s, true) => .ok ((recipientInboxes hdr.messageId p).foldl OutboxStore.addRecipientInbox s, .read hdr.messageId none)

/-- Up to the loop over the recipients. -/
def enqueueBroadcast (p : CborMap) : Except IpcError Task := do
  let frame ← reqBytes p "delivery_frame"
  let hdr ← parseOrThrow load frame
  match p.find "recipients" with
  | some (.array todo) => .ok (.broadcast { frame, baseId := hdr.messageId, nowMs := env.nowMs, todo })
  | _ => .error (.runtime (ascii "recipients must be an array"))

def statusText : MsgStatus → String
  | .pending => "pending"
  | .delivered => "delivered"
  | .expired => "expired"
  | .cancelled => "cancelled"

def messageNotFound : IpcError := .runtime (ascii "MESSAGE_NOT_FOUND")

def uintItem (n : ℤ) : Item := .uint (.a64 (Int64.ofInt n).toUInt64)

def status (p : CborMap) : Except IpcError Reply := do
  let id ← reqString p "message_id"
  match s.getMessage id with
  | none => .error messageNotFound
  | some msg =>
    .ok [("message_id", .text id), ("status", .text (ascii (statusText msg.status))), ("attempt_count", uintItem msg.attemptCount)]

/-- It counts among the pending messages only. -/
def broadcastStatus (p : CborMap) : Except IpcError Reply := do
  let baseId ← reqString p "message_id"
  let all := s.listPending.filter (fun m => decide (m.messageId.take baseId.length = baseId))
  let delivered := all.filter (fun m => decide (m.status = .delivered))
  return [("message_id", .text baseId), ("total", uintItem all.length), ("delivered", uintItem delivered.length)]

def cancel (p : CborMap) : Except IpcError (OutboxStore × Reply) := do
  let id ← reqString p "message_id"
  if s.messageExists id then .ok (s.setStatus id .cancelled, [("message_id", .text id), ("ok", .bool true)])
  else .error messageNotFound

def listPendingReply : Reply :=
  [("messages", .array (s.listPending.map (fun m => .map
    [(.text (ascii "message_id"), .text m.messageId), (.text (ascii "attempt_count"), uintItem m.attemptCount),
      (.text (ascii "expires_at_ms"), uintItem m.expiresAtMs)])))]

def addSibling (p : CborMap) : Except IpcError (OutboxStore × Reply) := do
  let keyCPubkey ← reqBytes p "key_c_pubkey"
  let authCert ← reqBytes p "auth_cert"
  let deviceId := ((p.find "device_id").bind asText).getD []
  let s ← s.upsertSibling { deviceId, keyCPubkey, authCert }
  return (s, [("ok", .bool true)])

def removeSibling (p : CborMap) : Except IpcError (OutboxStore × Reply) := do
  let id ← reqString p "device_id"
  return (s.removeSibling id, [("ok", .bool true)])

/-- The credentials go into a table of their own, which refuses empty values. -/
def updateAuthCert (p : CborMap) : Except IpcError Reply := do
  let pub ← reqBytes p "key_c_pubkey"
  let priv ← reqBytes p "key_c_privkey"
  let cert ← reqBytes p "auth_cert"
  if pub = [] ∨ priv = [] ∨ cert = [] then .error .constraint else .ok [("ok", .bool true)]

/-- What a request comes to: a task that will answer it, or an answer. -/
inductive Outcome
  | started (s : OutboxStore) (task : Task)
  | done (s : OutboxStore) (reply : Reply)

def handle (method : String) (p : CborMap) : Except IpcError Outcome :=
  if method = "outbox.enqueue" then (enqueue load env s p).map (fun r => .started r.1 r.2)
  else if method = "outbox.enqueue_broadcast" then (enqueueBroadcast load env p).map (.started s)
  else if method = "outbox.status" then (status s p).map (.done s)
  else if method = "outbox.broadcast_status" then (broadcastStatus s p).map (.done s)
  else if method = "outbox.cancel" then (cancel s p).map (fun r => .done r.1 r.2)
  else if method = "outbox.list_pending" then .ok (.done s (listPendingReply s))
  else if method = "outbox.stats" then .ok (.done s [("pending_count", uintItem s.listPending.length)])
  else if method = "outbox.add_sibling" then (addSibling s p).map (fun r => .done r.1 r.2)
  else if method = "outbox.remove_sibling" then (removeSibling s p).map (fun r => .done r.1 r.2)
  else if method = "outbox.update_auth_cert" then (updateAuthCert p).map (.done s)
  else .error (.runtime (ascii ("unknown method: " ++ method)))

end Requests

/-! ## Runs -/

structure Process where
  store : OutboxStore
  tasks : List Task

namespace Process

def initial : Process := ⟨.empty, []⟩

end Process

/-- A task of the one thread that first runs the burst and then the retry loop. -/
def Task.isLoop : Task → Bool
  | .loop _ _ => true
  | .inboxes (.loop _ _) _ _ => true
  | .failed (.loop _ _) _ => true
  | _ => false

inductive Event
  | frame (channelId body : Bytes)
  | ipc (env : Env) (method : String) (params : CborMap)
  /-- The retry loop wakes up. -/
  | retry (env : Env)
  /-- The maintenance loop wakes up. -/
  | maintenance (env : Env)
  /-- A task goes on. -/
  | work (env : Env) (index : ℕ)
  /-- A new process on the same database. -/
  | restart

def step (load : Bytes → Option Item) (cfg : Config) (p : Process) : Event → Process × Output
  | .frame channelId body =>
    let (store, out) := onFrame load p.store channelId body
    ({ p with store }, out)
  | .ipc env method params =>
    match handle load env p.store method params with
    | .error e => (p, { reply := some (.error e) })
    | .ok (.started store task) => ({ store, tasks := p.tasks ++ [task] }, {})
    | .ok (.done store reply) => ({ p with store }, { reply := some (.ok reply) })
  | .retry env =>
    if p.tasks.any Task.isLoop then (p, {})
    else ({ p with tasks := p.tasks ++ [.loop .retry (p.store.listDue env.nowMs)] }, {})
  | .maintenance env => ({ p with store := p.store.expireMessages env.nowMs }, {})
  | .work env index =>
    match p.tasks[index]? with
    | none => (p, {})
    | some task =>
      match work cfg env p.store task with
      | (store, none, out) => ({ store, tasks := p.tasks.eraseIdx index }, out)
      | (store, some task, out) => ({ store, tasks := p.tasks.set index task }, out)
  | .restart => ({ p with tasks := [.loop .burst p.store.listPending] }, {})

end ScatterWeb.Outbox
