import Mathlib.Data.List.MinMax
import ScatterWeb.Client.Fields

/-! # The message store of the client

The `messages` table of `store.cpp`, as the list of its rows in insertion order, and the read
positions of `conversations`. `id` is the primary key of a row and `(conversation_id, seq)` is unique:
an `INSERT` that breaks the second constraint throws, one whose id exists is refused before it is
tried. `next_seq` is one more than the largest number in use, so a row that takes its number from it
is accepted if it has a sender and a ciphertext: `bind_blob` gives an empty vector to SQLite as a null pointer,
which is `NULL`, and the two columns are `NOT NULL`. A text is written with its length and read up to its first NUL. -/
namespace ScatterWeb.Client
open Crypto Lib
set_option autoImplicit false

structure StoredMessage where
  id : Bytes
  conversationId : Bytes
  senderId : Bytes
  seq : ℤ
  contentType : Bytes
  text : Bytes
  ciphertext : Bytes
  sentAt : Int64
  receivedAt : Int64
  status : Bytes
  replyToId : Bytes
  deriving DecidableEq

/-- The row as `Row::get_text` hands it on. -/
def StoredMessage.read (m : StoredMessage) : StoredMessage :=
  { m with
    id := cStr m.id
    conversationId := cStr m.conversationId
    contentType := cStr m.contentType
    text := cStr m.text
    status := cStr m.status
    replyToId := cStr m.replyToId }

/-- The columns of a conversation that the message functions touch. -/
structure Conversation where
  id : Bytes
  lastReadSeq : ℤ
  deriving DecidableEq

structure Store where
  messages : List StoredMessage
  conversations : List Conversation
  deriving DecidableEq

/-- A violated constraint, thrown by `Statement::exec`. -/
inductive StoreError
  | constraint
  deriving DecidableEq

namespace Store
variable (db : Store)

def getMessage (id : Bytes) : Option StoredMessage := (db.messages.find? (fun m => m.id = id)).map StoredMessage.read

/-- `SELECT COALESCE(MAX(seq),0)+1`. -/
def nextSeq (conv : Bytes) : ℤ :=
  (((db.messages.filter (fun m => m.conversationId = conv)).map StoredMessage.seq).max?).getD 0 + 1

def insertMessage (m : StoredMessage) : Except StoreError (Store × Bool) :=
  if db.messages.any (fun m' => m'.id = m.id) then .ok (db, false)
  else if m.senderId = [] ∨ m.ciphertext = [] then .error .constraint
  else if db.messages.any (fun m' => m'.conversationId = m.conversationId ∧ m'.seq = m.seq) then .error .constraint
  else .ok ({ db with messages := db.messages ++ [m] }, true)

/-- `UPDATE messages SET … WHERE id=?`. -/
def updateMessage (id : Bytes) (f : StoredMessage → StoredMessage) : Store :=
  { db with messages := db.messages.map (fun m => if m.id = id then f m else m) }

def updateMessageStatus (id status : Bytes) : Store := db.updateMessage id (fun m => { m with status := status })

def updateMessageText (id text : Bytes) : Store := db.updateMessage id (fun m => { m with text := text })

def deleteMessage (id : Bytes) : Store := { db with messages := db.messages.filter (fun m => m.id ≠ id) }

def updateLastRead (conv : Bytes) (seq : ℤ) : Store :=
  { db with conversations := db.conversations.map (fun c => if c.id = conv then { c with lastReadSeq := seq } else c) }

theorem getMessage_updateMessageStatus (id status : Bytes) :
    (db.updateMessageStatus id status).getMessage id = (db.getMessage id).map (fun m => { m with status := cStr status }) := by
  have hkey : ((fun m : StoredMessage => decide (m.id = id)) ∘ fun m => if m.id = id then { m with status := status } else m) =
      fun m => decide (m.id = id) := by
    funext m
    by_cases h : m.id = id
    · simp [h]
    · simp [h]
  unfold updateMessageStatus updateMessage getMessage
  rw [List.find?_map, hkey]
  cases hfind : db.messages.find? (fun m => decide (m.id = id)) with
  | none => rfl
  | some m =>
    have hid : m.id = id := by simpa using List.find?_some hfind
    simp only [Option.map_some, if_pos hid]
    rfl

/-- The next number is larger than every number in use. -/
theorem seq_lt_nextSeq {m : StoredMessage} (hm : m ∈ db.messages) : m.seq < db.nextSeq m.conversationId := by
  have hmem : m.seq ∈ (db.messages.filter (fun m' => m'.conversationId = m.conversationId)).map StoredMessage.seq := by
    refine List.mem_map_of_mem ?_
    rw [List.mem_filter]
    exact ⟨hm, by simp⟩
  unfold nextSeq
  cases hmax : ((db.messages.filter (fun m' => m'.conversationId = m.conversationId)).map StoredMessage.seq).max? with
  | none =>
    rw [List.max?_eq_none_iff] at hmax
    rw [hmax] at hmem
    cases hmem
  | some n =>
    have hle := (List.max?_eq_some_iff.mp hmax).2 _ hmem
    simp only [Option.getD_some]
    omega

/-- A fresh row with a sender and a ciphertext that takes the next number is inserted. -/
theorem insertMessage_nextSeq {m : StoredMessage} (hid : ∀ m' ∈ db.messages, m'.id ≠ m.id)
    (hseq : m.seq = db.nextSeq m.conversationId) (hsender : m.senderId ≠ []) (hciphertext : m.ciphertext ≠ []) :
    db.insertMessage m = .ok ({ db with messages := db.messages ++ [m] }, true) := by
  have hfresh : db.messages.any (fun m' => m'.id = m.id) = false := by
    rw [List.any_eq_false]
    intro m' hm'
    simpa using hid m' hm'
  have hfree : db.messages.any (fun m' => m'.conversationId = m.conversationId ∧ m'.seq = m.seq) = false := by
    rw [List.any_eq_false]
    intro m' hm' hboth
    simp only [decide_eq_true_eq] at hboth
    have hlt := db.seq_lt_nextSeq hm'
    rw [hboth.1, ← hseq, hboth.2] at hlt
    exact lt_irrefl _ hlt
  unfold insertMessage
  rw [hfresh, hfree, if_neg Bool.false_ne_true, if_neg (not_or.mpr ⟨hsender, hciphertext⟩), if_neg Bool.false_ne_true]

/-- A fresh row whose number is in use is refused. -/
theorem insertMessage_taken {m m' : StoredMessage} (hid : ∀ m' ∈ db.messages, m'.id ≠ m.id) (hm' : m' ∈ db.messages)
    (hconv : m'.conversationId = m.conversationId) (hseq : m'.seq = m.seq) : db.insertMessage m = .error .constraint := by
  have hfresh : db.messages.any (fun m' => m'.id = m.id) = false := by
    rw [List.any_eq_false]
    intro m' hm'
    simpa using hid m' hm'
  have htaken : db.messages.any (fun m' => m'.conversationId = m.conversationId ∧ m'.seq = m.seq) = true := by
    rw [List.any_eq_true]
    exact ⟨m', hm', decide_eq_true ⟨hconv, hseq⟩⟩
  unfold insertMessage
  rw [hfresh, htaken, if_neg Bool.false_ne_true, if_pos rfl, ite_self]

end Store

/-! ## News of the outbox -/

/-- The event `delivery.status_update`. -/
structure StatusUpdate where
  messageId : Bytes
  status : Bytes
  updatedAt : Int64

def messageStatus (status : Bytes) : Bytes :=
  if status = ascii "delivered" then ascii "delivered"
  else if status = ascii "expired" ∨ status = ascii "failed" then ascii "failed"
  else ascii "pending"

def onOutboxStatus (db : Store) (messageId status : Bytes) (updatedAt : Int64) : Store × StatusUpdate :=
  (db.updateMessageStatus messageId (messageStatus status), ⟨messageId, messageStatus status, updatedAt⟩)

end ScatterWeb.Client
