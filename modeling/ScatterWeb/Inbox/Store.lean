import ScatterWeb.Lib.Table
import ScatterWeb.Mailbox.Frames

/-! # The store of the inbox

The SQLite tables of `inbox/src/store.cpp`. An empty blob is bound as `NULL`, which a `NOT NULL` column without a
default refuses, and a text is read back up to its first NUL byte. Of the columns only `persistence` can hold a
text with a NUL byte; ids are hexadecimal. Clock values are seconds or milliseconds of the system clock and small
enough that no sum of this file leaves 64 bits.

`sibling_replication_status`, the channel of a sibling and the stored copy of the retention are written and never read,
and are left out; the retention in force is a member of the process and starts with 7 days. -/
namespace ScatterWeb.Inbox
open Crypto Lib Client Mailbox
set_option autoImplicit false

structure StoredMessage where
  messageId : Bytes
  senderId : Bytes
  deliveryFrame : Bytes
  persistence : Bytes
  deliveredToClient : Bool := false
  replicated : Bool := false
  receivedAtMs : ℤ := 0
  /-- In seconds; 0 is never. -/
  expiresAt : ℤ := 0
  deriving DecidableEq

structure SiblingInbox where
  deviceId : Bytes
  keyCPubkey : Bytes
  authCert : Bytes

structure KnownOutbox where
  keyCPubkey : Bytes
  authCert : Bytes
  expiresAt : ℤ := 0

structure DhtCredentials where
  keyCPubkey : Bytes
  keyCPrivkey : Bytes
  authCert : Bytes
  delegationCert : Bytes

structure InboxStore where
  messages : Table StoredMessage.messageId
  siblings : Table SiblingInbox.deviceId
  dhtCredentials : Option DhtCredentials
  knownOutboxes : Table KnownOutbox.keyCPubkey
  allowedSenders : Table (id : Bytes → Bytes)
  /-- Frames counted in an hour. -/
  crGuard : Table (Prod.fst : ℤ × ℤ → ℤ)
  retentionDays : ℤ

namespace InboxStore

def empty : InboxStore := ⟨.empty, .empty, none, .empty, .empty, .empty, 7⟩

variable (s : InboxStore)

/-! ## Messages -/

def messageExists (id : Bytes) : Bool := (s.messages.find id).isSome

theorem messageExists_of_find {id : Bytes} {m : StoredMessage} (h : s.messages.find id = some m) : s.messageExists id = true := by
  unfold messageExists
  rw [h]
  rfl

theorem messageExists_eq_false_iff {id : Bytes} : s.messageExists id = false ↔ s.messages.find id = none := by
  unfold messageExists
  cases s.messages.find id with
  | none => simp
  | some m => simp

def insertMessage (msg : StoredMessage) : InboxStore × Bool :=
  ({ s with messages := (s.messages.insertNew msg).1 }, (s.messages.insertNew msg).2)

/-- A row as it is read. -/
def readRow (m : StoredMessage) : StoredMessage := { m with persistence := cStr m.persistence }

def getMessage (id : Bytes) : Option StoredMessage := (s.messages.find id).map readRow

theorem getMessage_of_find {id : Bytes} {m : StoredMessage} (h : s.messages.find id = some m) :
    s.getMessage id = some (readRow m) := by
  unfold getMessage
  rw [h, Option.map_some]

def getPending (undeliveredOnly : Bool) : List StoredMessage :=
  (s.messages.rows.filter (fun m => !undeliveredOnly || !m.deliveredToClient)).map readRow

def markDelivered (id : Bytes) (expiresAt : ℤ) : InboxStore :=
  { s with messages := s.messages.update id (fun m => { m with deliveredToClient := true, expiresAt }) (fun _ => rfl) }

def deleteMessage (id : Bytes) : InboxStore := { s with messages := s.messages.filter (fun m => decide (m.messageId ≠ id)) }

def deleteExpired (nowS : ℤ) : InboxStore :=
  { s with messages := s.messages.filter (fun m => !decide (0 < m.expiresAt ∧ m.expiresAt < nowS)) }

theorem find_markDelivered (id : Bytes) (expiresAt : ℤ) (id' : Bytes) : (s.markDelivered id expiresAt).messages.find id' =
    if id = id' then (s.messages.find id').map (fun m => { m with deliveredToClient := true, expiresAt }) else s.messages.find id' := by
  unfold markDelivered
  rw [Table.find_update]

theorem find_deleteMessage (id id' : Bytes) :
    (s.deleteMessage id).messages.find id' = if id = id' then none else s.messages.find id' := by
  unfold deleteMessage
  rw [Table.find_filter]
  cases hfind : s.messages.find id' with
  | none => rw [Option.filter_none, ite_self]
  | some m =>
    obtain rfl := Table.key_of_find hfind
    by_cases h : id = m.messageId
    · simp [h]
    · simp [h, Ne.symm h]

theorem find_deleteExpired (nowS : ℤ) (id : Bytes) : (s.deleteExpired nowS).messages.find id =
    (s.messages.find id).filter (fun m => !decide (0 < m.expiresAt ∧ m.expiresAt < nowS)) := Table.find_filter _ _ _

/-- A message is pending when its row is there and not marked. -/
theorem exists_mem_getPending_iff {id : Bytes} :
    (∃ m ∈ s.getPending true, m.messageId = id) ↔ ∃ m, s.messages.find id = some m ∧ m.deliveredToClient = false := by
  unfold getPending
  constructor
  · rintro ⟨_, hm, rfl⟩
    obtain ⟨m, hmem, rfl⟩ := List.mem_map.mp hm
    obtain ⟨hrow, hpending⟩ := List.mem_filter.mp hmem
    exact ⟨m, Table.find_of_mem hrow, by simpa using hpending⟩
  · rintro ⟨m, hfind, hpending⟩
    have hid : m.messageId = id := Table.key_of_find hfind
    refine ⟨readRow m, List.mem_map_of_mem (List.mem_filter.mpr ⟨Table.mem_of_find hfind, ?_⟩), hid⟩
    simp [hpending]

/-! ## Siblings, credentials, outboxes, senders -/

/-- `INSERT OR REPLACE`. -/
def upsertSibling (sib : SiblingInbox) : Except IpcError InboxStore :=
  if sib.keyCPubkey = [] ∨ sib.authCert = [] then .error .constraint
  else .ok { s with siblings := s.siblings.upsert sib }

def removeSibling (deviceId : Bytes) : InboxStore :=
  { s with siblings := s.siblings.filter (fun r => decide (r.deviceId ≠ deviceId)) }

/-- `delegation_cert` has a default. -/
def setDhtCredentials (creds : DhtCredentials) : Except IpcError InboxStore :=
  if creds.keyCPubkey = [] ∨ creds.keyCPrivkey = [] ∨ creds.authCert = [] then .error .constraint
  else .ok { s with dhtCredentials := some creds }

/-- The rows inserted one after another into an empty table, in a transaction. -/
def insertAll {ρ κ : Type} [DecidableEq κ] {key : ρ → κ} (ok : ρ → Bool) : Table key → List ρ → Except IpcError (Table key)
  | t, [] => .ok t
  | t, r :: rs => if h : t.find (key r) = none ∧ ok r then insertAll ok (t.insert r h.1) rs else .error .constraint

def replaceKnownOutboxes (list : List KnownOutbox) : Except IpcError InboxStore :=
  (insertAll (fun o => o.keyCPubkey ≠ [] ∧ o.authCert ≠ []) .empty list).map (fun t => { s with knownOutboxes := t })

def replaceAllowedSenders (ids : List Bytes) : Except IpcError InboxStore :=
  (insertAll (fun _ => true) .empty ids).map (fun t => { s with allowedSenders := t })

def isAllowedSender (id : Bytes) : Bool := (s.allowedSenders.find id).isSome

/-! ## Contact requests and retention -/

def crGuardCountThisHour (nowS : ℤ) : ℤ := ((s.crGuard.find (nowS.tdiv 3600)).map Prod.snd).getD 0

def crGuardRecord (nowS : ℤ) : InboxStore :=
  let bucket := nowS.tdiv 3600
  let kept := s.crGuard.filter (fun r => !decide (r.1 < bucket))
  { s with
    crGuard := if h : kept.find bucket = none then kept.insert (bucket, 1) h
      else kept.update bucket (fun r => (r.1, r.2 + 1)) (fun _ => rfl) }

def setRetentionDays (days : ℤ) : InboxStore := { s with retentionDays := days }

end InboxStore

end ScatterWeb.Inbox
