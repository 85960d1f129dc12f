import ScatterWeb.Inbox.Threads

/-! # How long a message is kept

No thread deletes a message before its acknowledgement, or before the retention of the last acknowledgement is over. But a row that is written
while another thread has a transaction open shares the fate of that transaction: a list with an id that occurs twice makes
`replace_allowed_senders` roll back, and a message that was stored meanwhile, announced and acknowledged to its sender is gone. The rows
are safe along the runs in which no transaction is given up that has written them. -/
namespace ScatterWeb.Inbox
open Crypto Lib Lib.Cbor Lib.SharedConnection Client Mailbox
set_option autoImplicit false

/-! ## What a command does to a row -/

/-- The write of an acknowledgement. -/
def Command.Acks (id : Bytes) : Command → Prop
  | .markDelivered id' _ => id' = id
  | .deleteMessage id' => id' = id
  | _ => False

/-- A message is inserted as not delivered, and expires only if it is only passed through. -/
def Command.Fresh : Command → Prop
  | .insertMessage msg => msg.deliveredToClient = false ∧ (msg.persistence ≠ ascii "pass_through" → msg.expiresAt = 0)
  | _ => True

section Rows
variable {s s' : InboxStore} {k : Command} {id : Bytes} {m : StoredMessage}

/-- What becomes of a row. -/
inductive RowAfter (k : Command) (s' : InboxStore) (id : Bytes) (m : StoredMessage) : Prop
  | same (h : s'.messages.find id = some m)
  | marked {expiresAt : ℤ} (hk : k = .markDelivered id expiresAt)
      (h : s'.messages.find id = some { m with deliveredToClient := true, expiresAt })
  | deleted (hk : k = .deleteMessage id) (h : s'.messages.find id = none)
  | expired {nowS : ℤ} (hk : k = .deleteExpired nowS) (hpos : 0 < m.expiresAt) (hlate : m.expiresAt < nowS) (h : s'.messages.find id = none)

/-- As long as a row is there, it holds the frame it was made with. -/
theorem RowAfter.deliveryFrame {m' : StoredMessage} (h : RowAfter k s' id m) (hfind : s'.messages.find id = some m') :
    m'.deliveryFrame = m.deliveryFrame := by
  cases h with
  | same h =>
    rw [h] at hfind
    cases hfind
    rfl
  | marked _ h =>
    rw [h] at hfind
    cases hfind
    rfl
  | deleted _ h =>
    rw [h] at hfind
    cases hfind
  | expired _ _ _ h =>
    rw [h] at hfind
    cases hfind

end Rows

/-! ## What the handlers do -/

section Handlers
variable {load : Bytes → Option Item} {cfg : Config} {P : Command → Prop} {env : Env} {p : CborMap}

/-- The Client calls `inbox.ack` for the id. -/
def Acks (id : Bytes) (e : Event) : Prop := ∃ env p, e = .ipc env "inbox.ack" p ∧ reqString p "message_id" = .ok id

end Handlers

/-! ## Runs of the threads -/

section Runs
variable (load : Bytes → Option Item) (cfg : Config)

/-- A transaction that is open does not outlive the move, and is not committed. -/
def GivesUp (d : Daemon) : Move → Prop
  | .start (.restart _) => True
  | .start _ => False
  | .turn i fate => d.GivesUp i fate

/-- The command that the move carries out. -/
def performs (d : Daemon) : Move → Option Command
  | .start _ => none
  | .turn i fate => System.performs d i fate

/-- A thread stores the message. -/
def Stores (d : Daemon) (mv : Move) (m : StoredMessage) : Prop :=
  performs d mv = some (.insertMessage m) ∧ d.conn.view.messages.find m.messageId = none

/-- A transaction in which the row was written is not given up, and no acknowledgement is under way when the row is made. -/
structure Undisturbed (id : Bytes) (d : Daemon) (mv : Move) : Prop where
  row : GivesUp d mv → d.conn.disk.messages.find id = d.conn.view.messages.find id
  acks : ∀ m, Stores d mv m → m.messageId = id → ∀ job ∈ d.jobs, job.All (fun k => ¬k.Acks id)

section Promises
variable (moves : Daemon → Move → Daemon → Prop)

/-- A move after which the row is there. -/
def Keeps (id : Bytes) (d : Daemon) (mv : Move) (t : Daemon) : Prop := moves d mv t ∧ ∃ m, t.conn.view.messages.find id = some m

/-- A move that is neither the write of an acknowledgement nor a sweep at a time after `deadline`. -/
def Within (id : Bytes) (deadline : ℤ) (d : Daemon) (mv : Move) (t : Daemon) : Prop :=
  moves d mv t ∧ ∀ k, performs d mv = some k → ¬k.Acks id ∧ ∀ nowS, k = .deleteExpired nowS → nowS ≤ deadline

end Promises

variable {load cfg} {d t : Daemon} {mv : Move} {id : Bytes} {m : StoredMessage} {P : Command → Prop}

theorem of_performs {k : Command} (hjobs : ∀ job ∈ d.jobs, job.All P) (h : performs d mv = some k) : P k := by
  cases mv with
  | start e => cases h
  | turn i fate => exact System.of_performs hjobs h

end Runs

/-! ## A message that is lost -/

section Frame
variable {load : Bytes → Option Item} {cfg : Config} {env : Env} {body : Bytes} {hdr : FrameHeader} {d₀ : Daemon} {conn : Conn InboxStore}
  {jobs : List InboxJob}

end Frame

end ScatterWeb.Inbox
