import ScatterWeb.Inbox.Store

/-! # The inbox of `inbox/src/inbox.cpp` and `inbox/src/ipc_handler.cpp`

An event is a frame that the AnonRouter pushes, a request of the local Client, a turn of the maintenance loop or a new start
of the process. It is handled as one step, that is, without a statement of another thread on the shared connection in between; what the
threads can do to one another is in `Inbox.Threads`. What the handlers read from outside is in `Env`: the clock, and what the AnonRouter
answers. A call of `frame.send` is in the output whether or not it succeeds, since no result of it is used. -/
namespace ScatterWeb.Inbox
open Crypto Lib Lib.Cbor Client Mailbox
set_option autoImplicit false

structure Config where
  passthroughTimeoutS : ℤ := 60
  crGuardRateLimitHour : ℤ := 20

structure Env where
  nowS : ℤ
  nowMs : ℤ
  /-- The channel that `ensure_channel` returns for a key in hexadecimal; `none` where it throws. -/
  ensureChannel : Bytes → Option Bytes
  guardInfo : Reply

/-- Payloads given to `frame.send` with their channel, and `inbox.message_available` pushes: id and sender. -/
structure Output where
  sent : List (Bytes × Bytes) := []
  pushes : List (Bytes × Bytes) := []

section Frames
variable (load : Bytes → Option Item)

/-! ## Frames -/

structure FrameHeader where
  messageId : Bytes := []
  senderId : Bytes := []
  persistence : Bytes := []

def parseFrameHeader (deliveryFrame : Bytes) : Option FrameHeader :=
  match load deliveryFrame with
  | some (.map kvs) =>
    let out : FrameHeader :=
      { messageId := (lastField (asHex 16) kvs "message_id").getD []
        senderId := (lastField (asHex 32) kvs "sender_id").getD []
        persistence := (lastField asText kvs "persistence").getD [] }
    if out.messageId = [] ∨ out.senderId = [] then none else some out
  | _ => none

def deliveryAck (messageId keyCPubkey : Bytes) : Bytes :=
  let m := DefMap.new 3
  let m := mapAddStr m "type" (ascii "delivery_ack")
  let m := mapAddStr m "message_id" messageId
  let m := mapAddBytes m "inbox_key_c_pubkey" keyCPubkey
  cborSer m

def sendAck (s : InboxStore) (channelId messageId : Bytes) : List (Bytes × Bytes) :=
  match s.dhtCredentials with
  | none => []
  | some creds => [(channelId, deliveryAck messageId creds.keyCPubkey)]

def replicationFrame (messageId deliveryFrame : Bytes) : Bytes :=
  let m := DefMap.new 3
  let m := mapAddStr m "type" (ascii "inbox_replication_frame")
  let m := mapAddStr m "message_id" messageId
  let m := mapAddBytes m "delivery_frame" deliveryFrame
  cborSer m

/-- `sibling_replication_status` is not read again. -/
def replicateToSiblings (env : Env) (s : InboxStore) (messageId : Bytes) : List (Bytes × Bytes) :=
  match s.getMessage messageId with
  | none => []
  | some msg =>
    s.siblings.rows.filterMap (fun sib =>
      (env.ensureChannel (bytesToHex sib.keyCPubkey)).map (fun chan => (chan, replicationFrame messageId msg.deliveryFrame)))

def orStore (persistence : Bytes) : Bytes := if persistence = [] then ascii "store" else persistence

def isPassThrough (persistence : Bytes) : Bool := decide (persistence = ascii "pass_through")

/-- The row of a frame that came from a sibling. -/
def replicatedMessage (env : Env) (innerFrame : Bytes) (hdr : FrameHeader) : StoredMessage where
  messageId := hdr.messageId
  senderId := hdr.senderId
  deliveryFrame := innerFrame
  persistence := orStore hdr.persistence
  receivedAtMs := env.nowMs
  replicated := true

/-- The push does not depend on the result of `insert_message`. -/
def handleReplicationFrame (env : Env) (s : InboxStore) (body : Bytes) : InboxStore × Output :=
  match load body with
  | some (.map kvs) =>
    let innerFrame := (lastField asBytes kvs "delivery_frame").getD []
    let repMessageId := (lastField asText kvs "message_id").getD []
    if innerFrame = [] ∨ s.messageExists repMessageId then (s, {})
    else
      match parseFrameHeader load innerFrame with
      | none => (s, {})
      | some hdr =>
        let msg := replicatedMessage env innerFrame hdr
        ((s.insertMessage msg).1, { pushes := [(msg.messageId, msg.senderId)] })
  | _ => (s, {})

def pollEntry (m : StoredMessage) : Item :=
  let entry := DefMap.new 2
  let entry := mapAddStr entry "message_id" m.messageId
  let entry := mapAddBytes entry "delivery_frame" m.deliveryFrame
  entry.item

/-- The key in the poll is parsed and not used. -/
def handleOutboxPoll (s : InboxStore) (channelId : Bytes) : List (Bytes × Bytes) :=
  let m := DefMap.new 2
  let m := mapAddStr m "type" (ascii "outbox_poll_response")
  let m := m.add (.text (ascii "messages")) (.array ((s.getPending true).map pollEntry))
  [(channelId, cborSer m)]

/-- The nonce is read from the key; of a key shorter than 8 bytes the model takes what there is. -/
def outboxPoll (keyCPubkey : Bytes) : Bytes :=
  let m := DefMap.new 3
  let m := mapAddStr m "type" (ascii "outbox_poll")
  let m := mapAddBytes m "inbox_key_c_pubkey" keyCPubkey
  let m := mapAddBytes m "nonce" (keyCPubkey.take 8)
  cborSer m

def pollKnownOutboxes (env : Env) (s : InboxStore) : List (Bytes × Bytes) :=
  match s.dhtCredentials with
  | none => []
  | some creds =>
    (s.knownOutboxes.rows.filter (fun ob => !decide (0 < ob.expiresAt ∧ ob.expiresAt < env.nowS))).filterMap (fun ob =>
      (env.ensureChannel (bytesToHex ob.keyCPubkey)).map (fun chan => (chan, outboxPoll creds.keyCPubkey)))

variable (cfg : Config)

/-- The allowlist check. A frame of a contact-request guard channel is let through up to a number per hour. -/
def admitSender (isCrGuard : Bool) (nowS : ℤ) (s : InboxStore) (senderId : Bytes) : Option InboxStore :=
  if s.isAllowedSender senderId then some s
  else if !isCrGuard then none
  else if cfg.crGuardRateLimitHour ≤ s.crGuardCountThisHour nowS then none
  else some (s.crGuardRecord nowS)

/-- The row of a delivery frame. -/
def deliveredMessage (env : Env) (body : Bytes) (hdr : FrameHeader) : StoredMessage where
  messageId := hdr.messageId
  senderId := hdr.senderId
  deliveryFrame := body
  persistence := orStore hdr.persistence
  receivedAtMs := env.nowMs
  expiresAt := if isPassThrough (orStore hdr.persistence) then env.nowS + cfg.passthroughTimeoutS else 0

/-- `process_delivery_frame` after the frame was admitted. -/
def storeDelivery (env : Env) (s : InboxStore) (channelId body : Bytes) (hdr : FrameHeader) : InboxStore × Output :=
  if s.messageExists hdr.messageId then (s, { sent := sendAck s channelId hdr.messageId })
  else
    let msg := deliveredMessage cfg env body hdr
    match s.insertMessage msg with
    | (s, false) => (s, {})
    | (s, true) =>
      let replication := if isPassThrough msg.persistence then [] else replicateToSiblings env s hdr.messageId
      (s, { sent := sendAck s channelId hdr.messageId ++ replication, pushes := [(hdr.messageId, hdr.senderId)] })

/-- The types that are not taken for a delivery frame, and of these the ones that are ignored. -/
def isIgnored (frameType : Bytes) : Bool :=
  decide (frameType = ascii "inbox_replicate_ack") || decide (frameType = ascii "outbox_poll_ack") ||
    decide (frameType = ascii "outbox_poll_response")

/-- Guard channels are not told apart yet: `is_cr_guard` is false. -/
def processDeliveryFrame (env : Env) (s : InboxStore) (channelId body : Bytes) : InboxStore × Output :=
  match load body with
  | none => (s, {})
  | some root =>
    if frameType root = ascii "inbox_replication_frame" then handleReplicationFrame load env s body
    else if frameType root = ascii "outbox_poll" then (s, { sent := handleOutboxPoll s channelId })
    else if isIgnored (frameType root) then (s, {})
    else
      match parseFrameHeader load body with
      | none => (s, {})
      | some hdr =>
        match admitSender cfg false env.nowS s hdr.senderId with
        | none => (s, {})
        | some s => storeDelivery cfg env s channelId body hdr

end Frames

/-! ## Requests -/

def notFound (id : Bytes) : IpcError := .runtime (ascii "message not found: " ++ id)

def getPendingIds (s : InboxStore) : Reply := [("message_ids", .array ((s.getPending true).map (fun m => .text m.messageId)))]

def getMessageReply (s : InboxStore) (p : CborMap) : Except IpcError Reply := do
  let id ← reqString p "message_id"
  match s.getMessage id with
  | none => .error (notFound id)
  | some msg =>
    .ok [("message_id", .text msg.messageId), ("sender_id", .text msg.senderId),
      ("delivery_frame", .bytes msg.deliveryFrame), ("persistence", .text msg.persistence)]

/-- What `inbox.ack` does to the store once the message was found. -/
def ackMessage (env : Env) (s : InboxStore) (id : Bytes) (msg : StoredMessage) : InboxStore :=
  if isPassThrough msg.persistence then s.deleteMessage id
  else s.markDelivered id (env.nowS + s.retentionDays * 86400)

def ack (env : Env) (s : InboxStore) (p : CborMap) : Except IpcError (InboxStore × Reply) := do
  let id ← reqString p "message_id"
  match s.getMessage id with
  | none => .error (notFound id)
  | some msg => .ok (ackMessage env s id msg, [("message_id", .text id), ("ok", .bool true)])

def updateDhtDelegation (s : InboxStore) (p : CborMap) : Except IpcError (InboxStore × Reply) := do
  let keyCPubkey ← reqBytes p "key_c_pubkey"
  let keyCPrivkey ← reqBytes p "key_c_privkey"
  let authCert ← reqBytes p "auth_cert"
  let delegationCert ← reqBytes p "delegation_cert"
  let s ← s.setDhtCredentials { keyCPubkey, keyCPrivkey, authCert, delegationCert }
  return (s, [("ok", .bool true)])

/-- An entry of the list of outboxes; one without a key or a certificate is skipped. -/
def readKnownOutbox : Item → Option KnownOutbox
  | .map m =>
    match CborMap.find m "key_c_pubkey", CborMap.find m "auth_cert" with
    | some (.bytes keyCPubkey), some (.bytes authCert) =>
      some { keyCPubkey, authCert, expiresAt := match CborMap.find m "expires_at" with
        | some (.uint a) => (UInt64.ofNat a.toNat).toInt64.toInt
        | _ => 0 }
    | _, _ => none
  | _ => none

def updateContactOutboxes (s : InboxStore) (p : CborMap) : Except IpcError (InboxStore × Reply) :=
  match p.find "outboxes" with
  | some (.array arr) => do
    let s ← s.replaceKnownOutboxes (arr.filterMap readKnownOutbox)
    return (s, [("ok", .bool true)])
  | _ => .error (.runtime (ascii "outboxes must be an array"))

def updateSenderAllowlist (s : InboxStore) (p : CborMap) : Except IpcError (InboxStore × Reply) :=
  match p.find "sender_ids" with
  | some (.array arr) => do
    let s ← s.replaceAllowedSenders (arr.filterMap asText)
    return (s, [("ok", .bool true)])
  | _ => .error (.runtime (ascii "sender_ids must be an array"))

def addSibling (s : InboxStore) (p : CborMap) : Except IpcError (InboxStore × Reply) := do
  let keyCPubkey ← reqBytes p "key_c_pubkey"
  let authCert ← reqBytes p "auth_cert"
  let deviceId := ((p.find "device_id").bind asText).getD []
  let s ← s.upsertSibling { deviceId, keyCPubkey, authCert }
  return (s, [("ok", .bool true)])

def removeSibling (s : InboxStore) (p : CborMap) : Except IpcError (InboxStore × Reply) := do
  let id ← reqString p "device_id"
  return (s.removeSibling id, [("ok", .bool true)])

/-- The cast to `int` takes the low 32 bits. -/
def setRetentionDays (s : InboxStore) (p : CborMap) : Except IpcError (InboxStore × Reply) :=
  match p.find "days" with
  | some (.uint a) =>
    let days := (UInt64.ofNat a.toNat).toUInt32.toInt32.toInt
    if days < 1 ∨ 365 < days then .error (.runtime (ascii "days out of range"))
    else .ok (s.setRetentionDays days, [("ok", .bool true)])
  | _ => .error (.runtime (ascii "days must be uint"))

def status (s : InboxStore) : Reply :=
  [("pending_count", .uint (.a64 (UInt64.ofNat (s.getPending true).length))),
    ("has_credentials", .bool s.dhtCredentials.isSome), ("renewal_needed", .bool false)]

/-- A handler writes last, so a request that fails leaves the store as it was. -/
def handle (env : Env) (s : InboxStore) (method : String) (p : CborMap) : Except IpcError (InboxStore × Reply) :=
  if method = "inbox.get_pending" then .ok (s, getPendingIds s)
  else if method = "inbox.get" then (getMessageReply s p).map (fun r => (s, r))
  else if method = "inbox.ack" then ack env s p
  else if method = "inbox.guard_info" then .ok (s, env.guardInfo)
  else if method = "inbox.update_dht_delegation" then updateDhtDelegation s p
  else if method = "inbox.update_contact_outboxes" then updateContactOutboxes s p
  else if method = "inbox.update_sender_allowlist" then updateSenderAllowlist s p
  else if method = "inbox.add_sibling" then addSibling s p
  else if method = "inbox.remove_sibling" then removeSibling s p
  else if method = "inbox.set_retention_days" then setRetentionDays s p
  else if method = "inbox.status" then .ok (s, status s)
  else .error (.runtime (ascii ("unknown method: " ++ method)))

/-! ## Runs -/

/-- `maintenance_loop`, one turn. -/
def maintenance (env : Env) (s : InboxStore) : InboxStore × Output :=
  let s := s.deleteExpired env.nowS
  (s, { sent := ((s.getPending false).filter (fun m => !m.replicated)).flatMap (fun m => replicateToSiblings env s m.messageId) })

/-- A new process on the same database. -/
def start (env : Env) (s : InboxStore) : InboxStore × Output :=
  let s := s.setRetentionDays 7
  (s, { sent := pollKnownOutboxes env s, pushes := (s.getPending true).map (fun m => (m.messageId, m.senderId)) })

inductive Event
  | frame (env : Env) (channelId body : Bytes)
  | ipc (env : Env) (method : String) (params : CborMap)
  | tick (env : Env)
  | restart (env : Env)

/-- A handler that nobody interrupts. -/
def step (load : Bytes → Option Item) (cfg : Config) (s : InboxStore) : Event → InboxStore × Output
  | .frame env channelId body => processDeliveryFrame load cfg env s channelId body
  | .ipc env method params =>
    match handle env s method params with
    | .error _ => (s, {})
    | .ok (s, _) => (s, {})
  | .tick env => maintenance env s
  | .restart env => start env s

end ScatterWeb.Inbox
