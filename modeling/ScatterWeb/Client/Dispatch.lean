import ScatterWeb.Client.AppFrame

/-! # What an app frame does to the stored messages

`dispatch_app_frame` finds the row that is deleted, edited or marked as read by an id that the peer chooses, and by nothing
else. Whether the rows of other conversations, or of other senders, are left alone is then decided by the rows with that
id. The row that a stored frame becomes is always one of its own conversation. -/
namespace ScatterWeb.Client
open Crypto Lib Lib.Cbor
set_option autoImplicit false

/-! ## Orders -/

/-- What an app frame wants from the store. -/
inductive Order
  | delete (id : Bytes)
  | edit (id text : Bytes)
  | insert (id : Bytes)
  | markRead (id : Bytes)
  | nothing
  deriving DecidableEq

def orderOf (frameType : Bytes) (kvs : List (Item × Item)) : Order :=
  let targetId := cborGetFieldStr kvs "target_message_id"
  let newText := cborGetFieldStr kvs "new_text"
  let msgId := cborGetFieldStr kvs "id"
  let upTo := cborGetFieldStr kvs "up_to_message_id"
  if frameType = ascii "delete" then if targetId = [] then .nothing else .delete targetId
  else if frameType = ascii "edit" then if targetId = [] ∨ newText = [] then .nothing else .edit targetId newText
  else if ∃ kind ∈ storedKinds, ascii kind = frameType then if msgId = [] then .nothing else .insert msgId
  else if frameType = ascii "read_receipt" then if upTo = [] then .nothing else .markRead upTo
  else .nothing

namespace Order

/-- A row that will not be the same afterwards. -/
def Changes : Order → StoredMessage → Prop
  | .delete id, m => m.id = id
  | .edit id text, m => m.id = id ∧ m.text ≠ text
  | .markRead id, m => m.id = id ∧ m.status ≠ ascii "read"
  | _, _ => False

def revise : Order → StoredMessage → Option StoredMessage
  | .delete id, m => if m.id = id then none else some m
  | .edit id text, m => some (if m.id = id then { m with text := text } else m)
  | .markRead id, m => some (if m.id = id then { m with status := ascii "read" } else m)
  | _, m => some m

/-- The row of a stored frame whose id is new. -/
def added (d : Delivery) (frameType : Bytes) (kvs : List (Item × Item)) (db : Store) : Order → List StoredMessage
  | .insert id => if ∃ m ∈ db.messages, m.id = id then [] else [receivedMessage d frameType db kvs]
  | _ => []

end Order

/-! ## The store afterwards -/

def Store.obey (db : Store) (o : Order) (rows : List StoredMessage) : Store :=
  { db with messages := db.messages.filterMap o.revise ++ rows }

theorem Store.obey_nothing (db : Store) : db.obey .nothing [] = db := by
  unfold Store.obey
  rw [List.append_nil]
  exact congrArg (fun rows => { db with messages := rows }) List.filterMap_some

theorem deleteMessage_eq_obey (db : Store) (id : Bytes) : db.deleteMessage id = db.obey (.delete id) [] := by
  unfold Store.deleteMessage Store.obey
  rw [List.append_nil]
  congr 1
  rw [← List.filterMap_eq_filter]
  refine List.filterMap_congr ?_
  intro m _
  by_cases h : m.id = id
  · simp [Option.guard, Order.revise, h]
  · simp [Option.guard, Order.revise, h]

theorem updateMessage_eq (db : Store) (id : Bytes) (f : StoredMessage → StoredMessage) : db.updateMessage id f =
    { db with messages := db.messages.filterMap (fun m => some (if m.id = id then f m else m)) } := by
  unfold Store.updateMessage
  rw [List.filterMap_eq_map']

theorem updateMessageText_eq_obey (db : Store) (id text : Bytes) : db.updateMessageText id text = db.obey (.edit id text) [] := by
  unfold Store.updateMessageText Store.obey
  rw [updateMessage_eq, List.append_nil]
  rfl

theorem updateMessageStatus_eq_obey (db : Store) (id : Bytes) :
    db.updateMessageStatus id (ascii "read") = db.obey (.markRead id) [] := by
  unfold Store.updateMessageStatus Store.obey
  rw [updateMessage_eq, List.append_nil]
  rfl

theorem Store.obey_insert (db : Store) (id : Bytes) (rows : List StoredMessage) :
    db.obey (.insert id) rows = { db with messages := db.messages ++ rows } := by
  unfold Store.obey
  exact congrArg (fun old => { db with messages := old ++ rows }) List.filterMap_some

theorem insertMessage_old {db : Store} {m : StoredMessage} (h : ∃ m' ∈ db.messages, m'.id = m.id) :
    db.insertMessage m = .ok (db, false) := by
  have hany : db.messages.any (fun m' => m'.id = m.id) = true := by
    simpa using h
  unfold Store.insertMessage
  rw [hany]
  rfl

/-- A row without a ciphertext breaks a constraint. -/
theorem insertMessage_refused {db : Store} {m : StoredMessage} (h : ¬∃ m' ∈ db.messages, m'.id = m.id) (hciphertext : m.ciphertext = []) :
    db.insertMessage m = .error .constraint := by
  have hany : db.messages.any (fun m' => m'.id = m.id) = false := by
    rw [List.any_eq_false]
    intro m' hm' hid
    exact h ⟨m', hm', of_decide_eq_true hid⟩
  unfold Store.insertMessage
  rw [hany, if_neg Bool.false_ne_true, if_pos (Or.inr hciphertext)]

theorem insertMessage_eq_obey (db : Store) {m : StoredMessage} (hseq : m.seq = db.nextSeq m.conversationId) (hsender : m.senderId ≠ [])
    (hciphertext : m.ciphertext ≠ []) :
    ∃ b, db.insertMessage m = .ok (db.obey (.insert m.id) (if ∃ m' ∈ db.messages, m'.id = m.id then [] else [m]), b) := by
  by_cases hex : ∃ m' ∈ db.messages, m'.id = m.id
  · rw [if_pos hex, Store.obey_insert, List.append_nil]
    exact ⟨false, insertMessage_old hex⟩
  · refine ⟨true, ?_⟩
    have hnew : ∀ m' ∈ db.messages, m'.id ≠ m.id := by
      intro m' hm' hid
      exact hex ⟨m', hm', hid⟩
    rw [if_neg hex, Store.obey_insert, db.insertMessage_nextSeq hnew hseq hsender hciphertext]

/-- What dispatching a map does to the store when nothing is thrown. The user interface hears of it unless there was nothing to do. -/
def Obeyed (d : Delivery) (frameType : Bytes) (kvs : List (Item × Item)) (db : Store) : Prop :=
  ∃ pushes, dispatchPairs d frameType kvs db =
    .ok (db.obey (orderOf frameType kvs) ((orderOf frameType kvs).added d frameType kvs db), pushes) ∧
    (orderOf frameType kvs = .nothing → frameType ≠ ascii "typing" → pushes = [])

/-- A row that is new has no ciphertext, and the insertion throws. -/
structure Refused (d : Delivery) (frameType : Bytes) (kvs : List (Item × Item)) (db : Store) : Prop where
  empty : d.rawFrame = []
  new : ∃ id, orderOf frameType kvs = .insert id ∧ ¬∃ m ∈ db.messages, m.id = id
  thrown : ∃ e, dispatchPairs d frameType kvs db = .error e

/-- The frame becomes a row. -/
theorem obeyed_or_refused_of_stored {frameType : Bytes} (hstored : frameType ∈ storedKinds.map ascii) (d : Delivery)
    (kvs : List (Item × Item)) (db : Store) : Obeyed d frameType kvs db ∨ Refused d frameType kvs db := by
  have hother : ∀ t ∈ storedKinds.map ascii, t ≠ ascii "delete" ∧ t ≠ ascii "edit" := by decide
  obtain ⟨hdelete, hedit⟩ := hother frameType hstored
  have hkind : ∃ kind ∈ storedKinds, ascii kind = frameType := List.mem_map.mp hstored
  have horder : orderOf frameType kvs = if cborGetFieldStr kvs "id" = [] then .nothing else .insert (cborGetFieldStr kvs "id") := by
    unfold orderOf
    simp only [if_neg hdelete, if_neg hedit, if_pos hkind]
  unfold Obeyed
  by_cases hid : cborGetFieldStr kvs "id" = []
  · have hnone : (receivedMessage d frameType db kvs).id = [] := hid
    have hdispatch : dispatchPairs d frameType kvs db = .ok (db, []) := by
      unfold dispatchPairs
      simp only [if_neg hdelete, if_neg hedit, if_pos hstored, if_pos hnone]
    rw [horder, hdispatch, if_pos hid]
    simp only [Order.added, Store.obey_nothing]
    exact Or.inl ⟨[], rfl, fun _ _ => rfl⟩
  · have hnone : ¬(receivedMessage d frameType db kvs).id = [] := hid
    rw [if_neg hid] at horder
    by_cases hrefused : d.rawFrame = [] ∧ ¬∃ m ∈ db.messages, m.id = cborGetFieldStr kvs "id"
    · obtain ⟨hempty, hnew⟩ := hrefused
      have hins := insertMessage_refused (m := receivedMessage d frameType db kvs) hnew hempty
      refine Or.inr ⟨hempty, ⟨_, horder, hnew⟩, .store .constraint, ?_⟩
      unfold dispatchPairs
      simp only [if_neg hdelete, if_neg hedit, if_pos hstored, if_neg hnone, hins]
    · have hins : ∃ b, db.insertMessage (receivedMessage d frameType db kvs) =
          .ok (db.obey (.insert (cborGetFieldStr kvs "id"))
            ((Order.insert (cborGetFieldStr kvs "id")).added d frameType kvs db), b) := by
        by_cases hempty : d.rawFrame = []
        · have hold : ∃ m ∈ db.messages, m.id = cborGetFieldStr kvs "id" := by
            by_contra hnew
            exact hrefused ⟨hempty, hnew⟩
          refine ⟨false, ?_⟩
          rw [insertMessage_old hold, Order.added, if_pos hold, Store.obey_insert, List.append_nil]
        · exact insertMessage_eq_obey db rfl (List.cons_ne_nil 0 (List.replicate 31 0)) hempty
      obtain ⟨b, hins⟩ := hins
      rw [horder]
      refine Or.inl ⟨[⟨"message.received", [("conversation_id", .str d.convId),
        ("message_id", .str (receivedMessage d frameType db kvs).id),
        ("sent_at", .uint (receivedMessage d frameType db kvs).sentAt.toUInt64)]⟩], ?_, fun hne => Order.noConfusion hne⟩
      unfold dispatchPairs
      simp only [if_neg hdelete, if_neg hedit, if_pos hstored, if_neg hnone, hins]

/-- The frame does not become a row. -/
theorem obeyed_of_unstored {frameType : Bytes} (hstored : frameType ∉ storedKinds.map ascii) (d : Delivery) (kvs : List (Item × Item))
    (db : Store) : Obeyed d frameType kvs db := by
  have hsome : ∀ {o : Order} {pushes : List Push}, o ≠ .nothing → o = .nothing → frameType ≠ ascii "typing" → pushes = [] := by
    intro o pushes hne heq
    exact absurd heq hne
  unfold Obeyed dispatchPairs orderOf
  by_cases hdelete : frameType = ascii "delete"
  · simp only [if_pos hdelete]
    by_cases hid : cborGetFieldStr kvs "target_message_id" = []
    · simp only [if_pos hid, Order.added, Store.obey_nothing]
      exact ⟨[], rfl, fun _ _ => rfl⟩
    · simp only [if_neg hid, Order.added, deleteMessage_eq_obey]
      exact ⟨_, rfl, hsome Order.noConfusion⟩
  simp only [if_neg hdelete]
  by_cases hedit : frameType = ascii "edit"
  · simp only [if_pos hedit]
    by_cases hid : cborGetFieldStr kvs "target_message_id" = [] ∨ cborGetFieldStr kvs "new_text" = []
    · simp only [if_pos hid, Order.added, Store.obey_nothing]
      exact ⟨[], rfl, fun _ _ => rfl⟩
    · simp only [if_neg hid, Order.added, updateMessageText_eq_obey]
      exact ⟨_, rfl, hsome Order.noConfusion⟩
  simp only [if_neg hedit]
  have hkind : ¬∃ kind ∈ storedKinds, ascii kind = frameType := fun h => hstored (List.mem_map.mpr h)
  simp only [if_neg hstored, if_neg hkind]
  by_cases hread : frameType = ascii "read_receipt"
  · have htyping : ¬frameType = ascii "typing" := by
      rw [hread]
      decide
    simp only [if_neg htyping, if_pos hread]
    by_cases hid : cborGetFieldStr kvs "up_to_message_id" = []
    · simp only [if_pos hid, Order.added, Store.obey_nothing]
      exact ⟨[], rfl, fun _ _ => rfl⟩
    · simp only [if_neg hid, Order.added, updateMessageStatus_eq_obey]
      exact ⟨_, rfl, hsome Order.noConfusion⟩
  · simp only [if_neg hread, Order.added, Store.obey_nothing]
    by_cases htyping : frameType = ascii "typing"
    · simp only [if_pos htyping]
      exact ⟨_, rfl, fun _ hne => absurd htyping hne⟩
    · simp only [if_neg htyping]
      exact ⟨[], rfl, fun _ _ => rfl⟩

/-- All that dispatching a map can do. -/
theorem obeyed_or_refused (d : Delivery) (frameType : Bytes) (kvs : List (Item × Item)) (db : Store) :
    Obeyed d frameType kvs db ∨ Refused d frameType kvs db := by
  by_cases hstored : frameType ∈ storedKinds.map ascii
  · exact obeyed_or_refused_of_stored hstored d kvs db
  · exact Or.inl (obeyed_of_unstored hstored d kvs db)

/-- The frame that was received is not empty, so its row has a ciphertext. -/
theorem dispatchPairs_obeys {d : Delivery} (hframe : d.rawFrame ≠ []) (frameType : Bytes) (kvs : List (Item × Item)) (db : Store) :
    Obeyed d frameType kvs db := by
  rcases obeyed_or_refused d frameType kvs db with hobeyed | hrefused
  · exact hobeyed
  · exact absurd hrefused.empty hframe

/-! ## Isolation -/

end ScatterWeb.Client
