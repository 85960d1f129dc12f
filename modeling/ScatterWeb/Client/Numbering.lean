import ScatterWeb.Client.Dispatch
import ScatterWeb.Lib.Transition

/-! # Numbers that are given once

`next_seq` looks at the rows that are there, so the number of a deleted row is given again when it was the largest of its
conversation. A `Ledger` keeps every number that a row has had. As long as the row with the largest number stays, and
`mark_read` gets a message of the conversation it is called for, a new row has a number above all of them, and above the read
position. -/
namespace ScatterWeb.Client.Numbering
open Crypto Lib Lib.Cbor Client
set_option autoImplicit false

inductive Event
  /-- A request of the user interface. -/
  | call (me : Sender) (call : AppCall)
  /-- A decrypted app frame. -/
  | frame (d : Delivery) (frameType : Bytes) (kvs : List (Item × Item))
  /-- `upsert_conversation` of a conversation that has not been read. -/
  | conversation (convId : Bytes)

/-- A statement that throws leaves the tables as they are. -/
def next (db : Store) : Event → Store
  | .call me call =>
    match call.send me db with
    | .ok (db', _) => db'
    | .error _ => db
  | .frame d frameType kvs =>
    match dispatchPairs d frameType kvs db with
    | .ok (db', _) => db'
    | .error _ => db
  | .conversation convId => { db with conversations := db.conversations.filter (fun c => c.id ≠ convId) ++ [⟨convId, 0⟩] }

/-- The conversation and the number of a row. -/
def numberOf (m : StoredMessage) : Bytes × ℤ := (m.conversationId, m.seq)

/-- The tables, and the numbers that rows have had so far. -/
structure Ledger where
  db : Store
  given : List (Bytes × ℤ)

namespace Ledger

def initial : Ledger := ⟨⟨[], []⟩, []⟩

def next (q : Ledger) (e : Event) : Ledger :=
  ⟨Numbering.next q.db e, q.given ++ (Numbering.next q.db e).messages.map numberOf⟩

end Ledger

/-! ## What goes wrong -/

theorem one_le_nextSeq {db : Store} (hpos : ∀ m ∈ db.messages, 1 ≤ m.seq) (convId : Bytes) : 1 ≤ db.nextSeq convId := by
  unfold Store.nextSeq
  cases hmax : ((db.messages.filter (fun m => m.conversationId = convId)).map StoredMessage.seq).max? with
  | none => simp
  | some n =>
    obtain ⟨m, hm, hn⟩ := List.mem_map.mp (List.max?_mem hmax)
    have hle := hpos m (List.mem_of_mem_filter hm)
    rw [Option.getD_some]
    omega

section Steps
variable {q : Ledger} {e : Event}

end Steps

def sends (id : UInt8) : Event := .call ⟨fit 32 [8], [id], 0⟩ (.message [5] [10] [])

end ScatterWeb.Client.Numbering
