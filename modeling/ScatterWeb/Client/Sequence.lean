import ScatterWeb.Client.AppFrame
import ScatterWeb.Lib.Transition

/-! # Numbering the messages of a conversation on several threads

`send_message` runs on the threads of the IPC server and `dispatch_app_frame` on that of the inbox client. Both ask `next_seq`
for a number and insert a row with it, in two statements and under no common lock. An interleaving is a list of the
statements of all executions. When nobody inserts while another execution of the conversation stands between its two
statements, every row is stored; two executions that ask before one of them inserts get the same number, and the second
insertion throws. -/
namespace ScatterWeb.Client
open Crypto Lib Lib.Cbor
set_option autoImplicit false

/-- A call that stores a row: `send_message`, or `dispatch_app_frame` with a frame of a stored kind. The frame has been decoded before,
so it is not empty. -/
inductive Execution
  | send (me : Sender) (convId text replyToId : Bytes)
  | receive (d : Delivery) (hframe : d.rawFrame ≠ []) (frameType : Bytes) (kvs : List (Item × Item))

/-- The row that is filled in with the number `next_seq` returns. -/
def Execution.row (db : Store) : Execution → StoredMessage
  | .send me convId text replyToId => pendingMessage me db convId text replyToId
  | .receive d _ frameType kvs => receivedMessage d frameType db kvs

/-- The statements on the table, each atomic. The last three are those of the frames that store nothing, and of the outbox. -/
inductive Statement
  | query (thread : ℕ) (x : Execution)
  | insert (thread : ℕ)
  | delete (id : Bytes)
  | edit (id text : Bytes)
  | setStatus (id status : Bytes)

/-- The table, and the rows of the executions that have their number and have not inserted yet. -/
structure Threads where
  store : Store
  waiting : ℕ → Option StoredMessage := fun _ => none

namespace Threads

def inserted (q : Threads) (thread : ℕ) : Option (Except StoreError (Store × Bool)) := (q.waiting thread).map q.store.insertMessage

/-- An insertion that throws ends its execution too. -/
def next (q : Threads) : Statement → Threads
  | .query thread x => { q with waiting := Function.update q.waiting thread (some (x.row q.store)) }
  | .insert thread =>
    { store := match q.inserted thread with
        | some (.ok (db, _)) => db
        | _ => q.store
      waiting := Function.update q.waiting thread none }
  | .delete id => { q with store := q.store.deleteMessage id }
  | .edit id text => { q with store := q.store.updateMessageText id text }
  | .setStatus id status => { q with store := q.store.updateMessageStatus id status }

/-- A row whose id is new is stored, under a number that no other row of its conversation has. -/
def Stores (q : Threads) : Statement → Prop
  | .insert thread => ∀ m, q.waiting thread = some m → (∀ m' ∈ q.store.messages, m'.id ≠ m.id) →
      q.inserted thread = some (.ok ({ q.store with messages := q.store.messages ++ [m] }, true)) ∧
        ∀ m' ∈ q.store.messages, m'.conversationId = m.conversationId → m'.seq ≠ m.seq
  | _ => True

/-- Nobody inserts while another execution of the conversation has its number and has not used it. -/
def Alone (q : Threads) : Statement → Prop
  | .insert thread => ∀ m, q.waiting thread = some m → ∀ other ≠ thread, ∀ m', q.waiting other = some m' →
      m'.conversationId ≠ m.conversationId
  | _ => True

/-- The numbers that wait are larger than those in use, and no column of the rows that wait would be `NULL`. -/
structure Ahead (q : Threads) : Prop where
  seq : ∀ thread m, q.waiting thread = some m → ∀ m' ∈ q.store.messages, m'.conversationId = m.conversationId → m'.seq < m.seq
  blobs : ∀ thread m, q.waiting thread = some m → m.senderId ≠ [] ∧ m.ciphertext ≠ []

end Threads

/-! ## Back to back -/

theorem next_query_insert (q : Threads) (thread : ℕ) (x : Execution) :
    ((q.next (.query thread x)).next (.insert thread)).store =
      match q.store.insertMessage (x.row q.store) with
      | .ok (db, _) => db
      | .error _ => q.store := by
  unfold Threads.next Threads.inserted
  dsimp only
  rw [Function.update_self, Option.map_some]
  cases q.store.insertMessage (x.row q.store) with
  | error e => rfl
  | ok r => rfl

/-- Without a statement of anybody else in between, the two statements are `send_message`. -/
theorem sendMessage_eq_next (q : Threads) (thread : ℕ) (me : Sender) (convId text replyToId : Bytes) :
    ((q.next (.query thread (.send me convId text replyToId))).next (.insert thread)).store =
      match sendMessage me q.store convId text replyToId with
      | .ok (db, _) => db
      | .error _ => q.store := by
  have hsend : sendMessage me q.store convId text replyToId =
      match q.store.insertMessage ((Execution.send me convId text replyToId).row q.store) with
      | .ok (db', _) => .ok (db', some ⟨.conversation, convId, "message", messageFrame me convId text replyToId, "store", me.frameId⟩)
      | .error e => .error e := rfl
  rw [next_query_insert, hsend]
  cases q.store.insertMessage ((Execution.send me convId text replyToId).row q.store) with
  | error e => rfl
  | ok r => rfl

theorem dispatchPairs_eq_next (q : Threads) (thread : ℕ) (d : Delivery) (hframe : d.rawFrame ≠ []) {frameType : Bytes}
    (hkind : frameType ∈ storedKinds.map ascii) {kvs : List (Item × Item)} (hid : cborGetFieldStr kvs "id" ≠ []) :
    ((q.next (.query thread (.receive d hframe frameType kvs))).next (.insert thread)).store =
      match dispatchPairs d frameType kvs q.store with
      | .ok (db, _) => db
      | .error _ => q.store := by
  have hdelete : frameType ≠ ascii "delete" := by
    rintro rfl
    exact absurd hkind (by decide)
  have hedit : frameType ≠ ascii "edit" := by
    rintro rfl
    exact absurd hkind (by decide)
  have hrow : (receivedMessage d frameType q.store kvs).id ≠ [] := hid
  rw [next_query_insert]
  unfold dispatchPairs Execution.row
  dsimp only
  rw [if_neg hdelete, if_neg hedit, if_pos hkind, if_neg hrow]
  cases q.store.insertMessage (receivedMessage d frameType q.store kvs) with
  | error e => rfl
  | ok r => rfl

/-! ## Any interleaving -/

theorem Execution.row_seq (x : Execution) (db : Store) : (x.row db).seq = db.nextSeq (x.row db).conversationId := by
  cases x with
  | send me convId text replyToId => rfl
  | receive d hframe frameType kvs => rfl

/-- The frame that is sent or received is the ciphertext, and every sender has an id of 32 bytes. -/
theorem Execution.row_blobs (x : Execution) (db : Store) : (x.row db).senderId ≠ [] ∧ (x.row db).ciphertext ≠ [] := by
  cases x with
  | send me convId text replyToId => exact pendingMessage_blobs me db convId text replyToId
  | receive d hframe frameType kvs => exact ⟨List.cons_ne_nil 0 (List.replicate 31 0), hframe⟩

namespace Threads
variable {q : Threads}

/-- What keeps the numbers of a conversation, or takes some away, leaves the ones that wait ahead. -/
theorem Ahead.of_rows (h : q.Ahead) {db : Store}
    (hrows : ∀ m ∈ db.messages, ∃ m' ∈ q.store.messages, m'.conversationId = m.conversationId ∧ m'.seq = m.seq) :
    Ahead { q with store := db } := by
  refine ⟨?_, h.blobs⟩
  intro thread m hm m' hm' hconv
  obtain ⟨old, hold, hsame, hseq⟩ := hrows m' hm'
  rw [← hseq]
  exact h.seq thread m hm old hold (hsame.trans hconv)

theorem mem_updateMessage {db : Store} {id : Bytes} {f : StoredMessage → StoredMessage} {m : StoredMessage}
    (hm : m ∈ (db.updateMessage id f).messages) (hf : ∀ m, (f m).conversationId = m.conversationId ∧ (f m).seq = m.seq) :
    ∃ m' ∈ db.messages, m'.conversationId = m.conversationId ∧ m'.seq = m.seq := by
  obtain ⟨m', hm', rfl⟩ := List.mem_map.mp hm
  refine ⟨m', hm', ?_⟩
  split_ifs
  · exact ⟨(hf m').1.symm, (hf m').2.symm⟩
  · exact ⟨rfl, rfl⟩

/-- The row of an insertion that throws, or that is refused for its id, is not in the table. -/
theorem next_insert_messages {thread : ℕ} {m m' : StoredMessage} (hm : q.waiting thread = some m)
    (hm' : m' ∈ (q.next (.insert thread)).store.messages) : m' ∈ q.store.messages ∨ m' = m := by
  unfold next inserted at hm'
  dsimp only at hm'
  rw [hm, Option.map_some] at hm'
  unfold Store.insertMessage at hm'
  split_ifs at hm'
  · exact Or.inl hm'
  · exact Or.inl hm'
  · exact Or.inl hm'
  · rcases List.mem_append.mp hm' with hold | hnew
    · exact Or.inl hold
    · exact Or.inr (List.mem_singleton.mp hnew)

theorem next_insert_store {thread : ℕ} {db : Store} {b : Bool} (h : q.inserted thread = some (.ok (db, b))) :
    (q.next (.insert thread)).store = db := by
  unfold next
  dsimp only
  rw [h]

theorem Ahead.insert (h : q.Ahead) {thread : ℕ} (halone : q.Alone (.insert thread)) : (q.next (.insert thread)).Ahead := by
  have hstays : ∀ other m, (q.next (.insert thread)).waiting other = some m → other ≠ thread ∧ q.waiting other = some m := by
    intro other m hm
    have hne : other ≠ thread := by
      rintro rfl
      simp [next] at hm
    refine ⟨hne, ?_⟩
    rw [← hm]
    exact (Function.update_of_ne hne none q.waiting).symm
  refine ⟨?_, fun other m hm => h.blobs other m (hstays other m hm).2⟩
  intro other m hm m' hm' hconv
  obtain ⟨hne, hwait⟩ := hstays other m hm
  cases hself : q.waiting thread with
  | none =>
    have hsame : (q.next (.insert thread)).store = q.store := by
      simp [next, inserted, hself]
    rw [hsame] at hm'
    exact h.seq other m hwait m' hm' hconv
  | some row =>
    rcases next_insert_messages hself hm' with hold | rfl
    · exact h.seq other m hwait m' hold hconv
    · exact absurd hconv.symm (halone _ hself other hne m hwait)

theorem Ahead.step (h : q.Ahead) {e : Statement} (halone : q.Alone e) : (q.next e).Ahead := by
  cases e with
  | query thread x =>
    have hold : ∀ other m, (q.next (.query thread x)).waiting other = some m → x.row q.store = m ∨ q.waiting other = some m := by
      intro other m hm
      by_cases hother : other = thread
      · subst hother
        exact Or.inl (by simpa [next] using hm)
      · refine Or.inr ?_
        rw [← hm]
        exact (Function.update_of_ne hother _ q.waiting).symm
    constructor
    · intro other m hm m' hm' hconv
      rcases hold other m hm with rfl | hwait
      · rw [Execution.row_seq, ← hconv]
        exact q.store.seq_lt_nextSeq hm'
      · exact h.seq other m hwait m' hm' hconv
    · intro other m hm
      rcases hold other m hm with rfl | hwait
      · exact x.row_blobs q.store
      · exact h.blobs other m hwait
  | insert thread => exact h.insert halone
  | delete id =>
    refine h.of_rows ?_
    intro m hm
    exact ⟨m, List.mem_of_mem_filter hm, rfl, rfl⟩
  | edit id text =>
    refine h.of_rows ?_
    intro m hm
    exact mem_updateMessage hm (fun _ => ⟨rfl, rfl⟩)
  | setStatus id status =>
    refine h.of_rows ?_
    intro m hm
    exact mem_updateMessage hm (fun _ => ⟨rfl, rfl⟩)

/-- A number that is ahead is free. -/
theorem Ahead.stores (h : q.Ahead) (e : Statement) : q.Stores e := by
  cases e with
  | insert thread =>
    intro m hm hid
    have hlt := h.seq thread m hm
    obtain ⟨hsender, hciphertext⟩ := h.blobs thread m hm
    have hfresh : q.store.messages.any (fun m' => m'.id = m.id) = false := by
      rw [List.any_eq_false]
      intro m' hm'
      simpa using hid m' hm'
    have hfree : q.store.messages.any (fun m' => m'.conversationId = m.conversationId ∧ m'.seq = m.seq) = false := by
      rw [List.any_eq_false]
      intro m' hm' hboth
      simp only [decide_eq_true_eq] at hboth
      exact absurd hboth.2 (ne_of_lt (hlt m' hm' hboth.1))
    refine ⟨?_, fun m' hm' hconv => ne_of_lt (hlt m' hm' hconv)⟩
    unfold inserted Store.insertMessage
    rw [hm, Option.map_some, hfresh, hfree, if_neg Bool.false_ne_true, if_neg (not_or.mpr ⟨hsender, hciphertext⟩),
      if_neg Bool.false_ne_true]
  | query thread x => exact trivial
  | delete id => exact trivial
  | edit id text => exact trivial
  | setStatus id status => exact trivial

/-- In every interleaving in which the executions of a conversation insert alone, every row is stored. -/
theorem stores_of_alone (db : Store) {es : List Statement} (h : Along next Alone ⟨db, fun _ => none⟩ es) :
    Along next Stores ⟨db, fun _ => none⟩ es := by
  refine along_of_invariant Ahead ?_ ?_ h
  · intro q e hahead halone
    exact ⟨hahead.stores e, hahead.step halone⟩
  · constructor
    · intro thread m hm
      cases hm
    · intro thread m hm
      cases hm

/-- Two messages that are written at once. -/
def firstSend : Execution := .send ⟨fit 32 [8], [1], 0⟩ [5] [10] []

def secondSend : Execution := .send ⟨fit 32 [8], [2], 0⟩ [5] [11] []

/-- One after the other. -/
def inTurn : List Statement := [.query 0 firstSend, .insert 0, .query 1 secondSend, .insert 1]

def atOnce : List Statement := [.query 0 firstSend, .query 1 secondSend, .insert 0, .insert 1]

theorem alone_inTurn : Along next Alone ⟨⟨[], []⟩, fun _ => none⟩ inTurn := by
  refine ⟨trivial, ?_, trivial, ?_, trivial⟩
  · intro m _ other hother m' hm'
    simp [next, hother] at hm'
  · intro m _ other hother m' hm'
    simp [next, hother] at hm'

theorem stores_of_alone_inTurn : Along next Stores ⟨⟨[], []⟩, fun _ => none⟩ inTurn := stores_of_alone ⟨[], []⟩ alone_inTurn

/-- The second of two executions that got the same number throws. -/
theorem not_stores_atOnce : ¬Along next Stores ⟨⟨[], []⟩, fun _ => none⟩ atOnce := by
  rintro ⟨_, _, _, hlast, _⟩
  obtain ⟨hsender, hciphertext⟩ := firstSend.row_blobs ⟨[], []⟩
  have hstored : Store.insertMessage ⟨[], []⟩ (firstSend.row ⟨[], []⟩) = .ok (⟨[firstSend.row ⟨[], []⟩], []⟩, true) :=
    Store.insertMessage_nextSeq ⟨[], []⟩ (fun m hm => absurd hm List.not_mem_nil) rfl hsender hciphertext
  have hstore : (next (next (next ⟨⟨[], []⟩, fun _ => none⟩ (.query 0 firstSend)) (.query 1 secondSend)) (.insert 0)).store =
      ⟨[firstSend.row ⟨[], []⟩], []⟩ := by
    have hwaiting : (next (next ⟨⟨[], []⟩, fun _ => none⟩ (.query 0 firstSend)) (.query 1 secondSend)).inserted 0 =
        some (Store.insertMessage ⟨[], []⟩ (firstSend.row ⟨[], []⟩)) := rfl
    rw [hstored] at hwaiting
    exact next_insert_store hwaiting
  have hnew : ∀ m ∈ [firstSend.row ⟨[], []⟩], m.id ≠ (secondSend.row ⟨[], []⟩).id := by
    intro m hm
    rw [List.mem_singleton.mp hm]
    decide
  obtain ⟨hrow, _⟩ := hlast (secondSend.row ⟨[], []⟩) rfl (by rw [hstore]; exact hnew)
  have hthrows : Store.insertMessage ⟨[firstSend.row ⟨[], []⟩], []⟩ (secondSend.row ⟨[], []⟩) = .error .constraint :=
    Store.insertMessage_taken _ hnew List.mem_cons_self rfl rfl
  unfold inserted at hrow
  rw [hstore] at hrow
  have herror := hthrows.symm.trans (Option.some.inj hrow)
  cases herror

end Threads

end ScatterWeb.Client
