import ScatterWeb.Lib.Table
import ScatterWeb.Mailbox.Frames

/-! # The store of the outbox

The SQLite tables of `outbox/src/store.cpp`. Ids are hexadecimal texts, those of a broadcast with the start of the recipient's
key appended, so no text has a NUL byte at which reading it back would stop. Clock values and lifetimes are in milliseconds,
and a sum that leaves 64 bits is not modelled. `recipient_inbox_hints`, `delivery_attempts`, `broadcast_recipients` and the
priority of a message are never read, and are left out; so is `outbox_config`, which the rest of the store does not read. -/
namespace ScatterWeb.Outbox
open Crypto Lib Client Mailbox
set_option autoImplicit false

inductive MsgStatus
  | pending
  | delivered
  | expired
  | cancelled
  deriving DecidableEq

structure QueuedMessage where
  messageId : Bytes
  recipientKeyBKemPubkeyHex : Bytes
  deliveryFrame : Bytes
  enqueuedAtMs : ℤ := 0
  expiresAtMs : ℤ := 0
  status : MsgStatus := .pending
  attemptCount : ℤ := 0
  /-- 0 is passive waiting. -/
  nextAttemptAt : ℤ := 0
  deriving DecidableEq

structure RecipientInbox where
  messageId : Bytes
  keyCPubkey : Bytes
  authCert : Bytes
  deriving DecidableEq

def RecipientInbox.key (r : RecipientInbox) : Bytes × Bytes := (r.messageId, r.keyCPubkey)

structure SiblingOutbox where
  deviceId : Bytes
  keyCPubkey : Bytes
  authCert : Bytes

structure OutboxStore where
  messages : Table QueuedMessage.messageId
  recipients : Table RecipientInbox.key
  siblings : Table SiblingOutbox.deviceId

namespace OutboxStore

def empty : OutboxStore := ⟨.empty, .empty, .empty⟩

variable (s : OutboxStore)

/-! ## Messages -/

def messageExists (id : Bytes) : Bool := (s.messages.find id).isSome

def insertMessage (msg : QueuedMessage) : OutboxStore × Bool :=
  ({ s with messages := (s.messages.insertNew msg).1 }, (s.messages.insertNew msg).2)

def getMessage (id : Bytes) : Option QueuedMessage := s.messages.find id

def listPending : List QueuedMessage := s.messages.rows.filter (fun m => decide (m.status = .pending))

/-- In the order of insertion, like every list here; without an `ORDER BY` SQLite is free to take the order of an index. -/
def listDue (nowMs : ℤ) : List QueuedMessage :=
  s.messages.rows.filter (fun m => decide (m.status = .pending ∧ 0 < m.nextAttemptAt ∧ m.nextAttemptAt ≤ nowMs))

def setStatus (id : Bytes) (st : MsgStatus) : OutboxStore :=
  { s with messages := s.messages.update id (fun m => { m with status := st }) (fun _ => rfl) }

def updateAttempt (id : Bytes) (count nextAt : ℤ) : OutboxStore :=
  { s with messages := s.messages.update id (fun m => { m with attemptCount := count, nextAttemptAt := nextAt }) (fun _ => rfl) }

def isExpired (nowMs : ℤ) (m : QueuedMessage) : Bool :=
  decide (m.status = .pending ∧ 0 < m.expiresAtMs ∧ m.expiresAtMs < nowMs)

def expireMessages (nowMs : ℤ) : OutboxStore :=
  { s with
    messages := s.messages.map (fun m => if isExpired nowMs m then { m with status := .expired } else m) (by
      intro m
      split
      · rfl
      · rfl) }

/-! ## Recipients and siblings -/

/-- `INSERT OR IGNORE`, which also skips a row with an empty key or certificate. -/
def addRecipientInbox (r : RecipientInbox) : OutboxStore :=
  if r.keyCPubkey = [] ∨ r.authCert = [] then s else { s with recipients := (s.recipients.insertNew r).1 }

/-- In the order of insertion; the primary key may give another one. -/
def getRecipientInboxes (messageId : Bytes) : List RecipientInbox :=
  s.recipients.rows.filter (fun r => decide (r.messageId = messageId))

def isValidRecipientInbox (messageId keyCPubkey : Bytes) : Bool := (s.recipients.find (messageId, keyCPubkey)).isSome

def upsertSibling (sib : SiblingOutbox) : Except IpcError OutboxStore :=
  if sib.keyCPubkey = [] ∨ sib.authCert = [] then .error .constraint
  else .ok { s with siblings := s.siblings.upsert sib }

def removeSibling (deviceId : Bytes) : OutboxStore :=
  { s with siblings := s.siblings.filter (fun r => decide (r.deviceId ≠ deviceId)) }

/-! ## What a row becomes -/

theorem find_setStatus (id : Bytes) (st : MsgStatus) (id' : Bytes) : (s.setStatus id st).messages.find id' =
    if id = id' then (s.messages.find id').map (fun m => { m with status := st }) else s.messages.find id' := by
  unfold setStatus
  rw [Table.find_update]

theorem find_updateAttempt (id : Bytes) (count nextAt : ℤ) (id' : Bytes) : (s.updateAttempt id count nextAt).messages.find id' =
    if id = id' then (s.messages.find id').map (fun m => { m with attemptCount := count, nextAttemptAt := nextAt })
    else s.messages.find id' := by
  unfold updateAttempt
  rw [Table.find_update]

theorem find_expireMessages (nowMs : ℤ) (id : Bytes) : (s.expireMessages nowMs).messages.find id =
    (s.messages.find id).map (fun m => if isExpired nowMs m then { m with status := .expired } else m) := by
  unfold expireMessages
  rw [Table.find_map]

theorem addRecipientInbox_messages (r : RecipientInbox) : (s.addRecipientInbox r).messages = s.messages := by
  unfold addRecipientInbox
  split
  · rfl
  · rfl

/-- Recipients are never taken back. -/
theorem isValidRecipientInbox_addRecipientInbox {r : RecipientInbox} {id key : Bytes}
    (h : s.isValidRecipientInbox id key = true) : (s.addRecipientInbox r).isValidRecipientInbox id key = true := by
  unfold isValidRecipientInbox at h ⊢
  obtain ⟨row, hrow⟩ := Option.isSome_iff_exists.mp h
  unfold addRecipientInbox
  split
  · exact h
  · dsimp only
    rw [Table.find_insertNew_of_some hrow]
    rfl

theorem isValidRecipientInbox_self {r : RecipientInbox} (hkey : r.keyCPubkey ≠ []) (hcert : r.authCert ≠ []) :
    (s.addRecipientInbox r).isValidRecipientInbox r.messageId r.keyCPubkey = true := by
  unfold isValidRecipientInbox addRecipientInbox
  rw [if_neg (not_or.mpr ⟨hkey, hcert⟩)]
  dsimp only
  rw [Table.find_insertNew]
  cases hold : s.recipients.find (r.messageId, r.keyCPubkey) with
  | none =>
    rw [if_pos ⟨rfl, rfl⟩]
    rfl
  | some r' =>
    rw [if_neg (fun h => Option.some_ne_none _ h.2)]
    rfl

end OutboxStore

end ScatterWeb.Outbox
