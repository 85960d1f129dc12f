import ScatterWeb.Client.Fields
import ScatterWeb.Client.Store

/-! # App frames

The seven senders of `client.cpp` build a CBOR map and hand it to the outbox; `dispatch_app_frame` of
the other client reads it and changes its message store. Each sender declares how many pairs its
map will hold and adds them by hand, so `Frame` keeps both: the declared number and the fields.

A frame agrees with its call when the map holds every field and the receiver does what the call says.
Three senders agree, for arguments that are not empty; the other four never do: three declare too few
pairs, and `send_message` writes its id as a byte string where the receiver reads a text. -/
namespace ScatterWeb.Client
open Crypto Lib Lib.Cbor
set_option autoImplicit false

/-! ## Senders -/

inductive Field
  | str (k : String) (v : Bytes)
  | bytes (k : String) (v : Bytes)
  | uint (k : String) (v : UInt64)

def Field.addTo (m : DefMap) : Field → DefMap
  | .str k v => mapAddStr m k v
  | .bytes k v => mapAddBytes m k v
  | .uint k v => mapAddUint m k v

def Field.key : Field → String
  | .str k _ => k
  | .bytes k _ => k
  | .uint k _ => k

def Field.pair : Field → Item × Item
  | .str k v => (.text (ascii k), .text (cStr v))
  | .bytes k v => (.text (ascii k), .bytes v)
  | .uint k v => (.text (ascii k), .uint (.a64 v))

/-- A map under construction: `cbor_new_definite_map(cap)` and the fields added to it. -/
structure Frame where
  cap : ℕ
  fields : List Field

def Frame.build (f : Frame) : DefMap := f.fields.foldl Field.addTo (DefMap.new f.cap)

/-- `af_bytes`. -/
def Frame.encoded (f : Frame) : Bytes := cborSer f.build

/-- What the sender draws: its own id, the random frame id and the clock. -/
structure Sender where
  myId : ByteArr 32
  frameId : Bytes
  nowMs : Int64

inductive Route
  | conversation
  | dm

/-- A call of `enqueue_for_conv` or `enqueue_dm`. -/
structure Outgoing where
  route : Route
  convId : Bytes
  kind : String
  frame : Frame
  persistence : String
  frameId : Bytes

/-- The four fields every app frame starts with, and its own. -/
def appFrame (cap : ℕ) (kind : String) (me : Sender) (convId : Bytes) (rest : List Field) : Frame where
  cap := cap
  fields := [.str "type" (ascii kind), .bytes "id" me.frameId, .str "conversation_id" convId,
    .uint "sent_at" me.nowMs.toUInt64] ++ rest

def messageFrame (me : Sender) (convId text replyToId : Bytes) : Frame :=
  appFrame 7 "message" me convId ([.str "content_type" (ascii "text"), .str "text" text] ++
    if replyToId = [] then [] else [.str "reply_to" replyToId])

/-- The row of a message that is sent. -/
def pendingMessage (me : Sender) (db : Store) (convId text replyToId : Bytes) : StoredMessage where
  id := me.frameId
  conversationId := convId
  senderId := me.myId.toList
  seq := db.nextSeq convId
  contentType := ascii "text"
  text := text
  ciphertext := (messageFrame me convId text replyToId).encoded
  sentAt := me.nowMs
  receivedAt := 0
  status := ascii "pending"
  replyToId := replyToId

def sendMessage (me : Sender) (db : Store) (convId text replyToId : Bytes) : Except StoreError (Store × Option Outgoing) :=
  match db.insertMessage (pendingMessage me db convId text replyToId) with
  | .ok (db', _) => .ok (db', some ⟨.conversation, convId, "message", messageFrame me convId text replyToId, "store", me.frameId⟩)
  | .error e => .error e

/-- An id has 32 bytes and an encoded map is not empty. -/
theorem pendingMessage_blobs (me : Sender) (db : Store) (convId text replyToId : Bytes) :
    (pendingMessage me db convId text replyToId).senderId ≠ [] ∧ (pendingMessage me db convId text replyToId).ciphertext ≠ [] := by
  refine ⟨?_, encode_ne_nil _⟩
  intro hempty
  have hlen := congrArg List.length hempty
  change me.myId.toList.length = 0 at hlen
  rw [me.myId.toList_length] at hlen
  cases hlen

/-- The senders that look up the target and give up when it is not stored. -/
def sendAbout (db : Store) (msgId : Bytes) (go : StoredMessage → Store × Outgoing) :
    Except StoreError (Store × Option Outgoing) :=
  match db.getMessage msgId with
  | none => .ok (db, none)
  | some msg => .ok ((go msg).1, some (go msg).2)

def sendReaction (me : Sender) (db : Store) (msgId emoji : Bytes) : Except StoreError (Store × Option Outgoing) :=
  sendAbout db msgId fun msg => (db, ⟨.conversation, msg.conversationId, "reaction",
    appFrame 5 "reaction" me msg.conversationId
      [.str "target_message_id" msgId, .str "emoji" emoji, .str "action" (ascii "add")], "store", me.frameId⟩)

def sendUnreact (me : Sender) (db : Store) (msgId emoji : Bytes) : Except StoreError (Store × Option Outgoing) :=
  sendAbout db msgId fun msg => (db, ⟨.conversation, msg.conversationId, "reaction",
    appFrame 6 "reaction" me msg.conversationId
      [.str "target_message_id" msgId, .str "emoji" emoji, .str "action" (ascii "remove")], "store", me.frameId⟩)

def sendEdit (me : Sender) (db : Store) (msgId newText : Bytes) : Except StoreError (Store × Option Outgoing) :=
  sendAbout db msgId fun msg => (db, ⟨.conversation, msg.conversationId, "edit",
    appFrame 6 "edit" me msg.conversationId [.str "target_message_id" msgId, .str "new_text" newText], "store", me.frameId⟩)

def sendDelete (me : Sender) (db : Store) (msgId : Bytes) : Except StoreError (Store × Option Outgoing) :=
  sendAbout db msgId fun msg => (db.deleteMessage msgId, ⟨.conversation, msg.conversationId, "delete",
    appFrame 5 "delete" me msg.conversationId [.str "target_message_id" msgId], "store", me.frameId⟩)

def sendTyping (me : Sender) (db : Store) (convId action : Bytes) : Except StoreError (Store × Option Outgoing) :=
  .ok (db, some ⟨.dm, convId, "typing", appFrame 4 "typing" me convId [.str "action" action], "pass_through", me.frameId⟩)

def markRead (me : Sender) (db : Store) (convId upToId : Bytes) : Except StoreError (Store × Option Outgoing) :=
  sendAbout db upToId fun msg => (db.updateLastRead convId msg.seq, ⟨.dm, convId, "read_receipt",
    appFrame 5 "read_receipt" me convId [.str "up_to_message_id" upToId], "pass_through", me.frameId⟩)

/-! ## Dispatch -/

inductive PushValue
  | str (b : Bytes)
  | uint (n : UInt64)

structure Push where
  method : String
  fields : List (String × PushValue)

inductive DispatchError
  | store (e : StoreError)
  /-- `cbor_map_handle` of an item that is not a map: undefined. -/
  | notMap

def storedKinds : List String :=
  ["message", "reaction", "contact_request", "contact_accept", "group_invite", "group_accept", "group_leave",
    "group_sender_key_update", "call_invite", "key_c_cert"]

/-- What the receiver knows of a delivery apart from the app frame, and what stands behind an integer of the app frame in memory. -/
structure Delivery where
  convId : Bytes
  senderId : Bytes
  rawFrame : Bytes
  nowMs : Int64
  behindField : String → UInt64

/-- The row that a stored frame becomes; its sender is not filled in. -/
def receivedMessage (d : Delivery) (frameType : Bytes) (db : Store) (kvs : List (Item × Item)) : StoredMessage where
  id := cborGetFieldStr kvs "id"
  conversationId := d.convId
  senderId := List.replicate 32 0
  seq := db.nextSeq d.convId
  contentType := if cborGetFieldStr kvs "content_type" = [] then frameType else cborGetFieldStr kvs "content_type"
  text := cborGetFieldStr kvs "text"
  ciphertext := d.rawFrame
  sentAt := (cborGetFieldUint d.behindField kvs "sent_at").toInt64
  receivedAt := d.nowMs
  status := ascii "delivered"
  replyToId := []

def dispatchPairs (d : Delivery) (frameType : Bytes) (kvs : List (Item × Item)) (db : Store) :
    Except DispatchError (Store × List Push) :=
  if frameType = ascii "delete" then
    let targetId := cborGetFieldStr kvs "target_message_id"
    if targetId = [] then .ok (db, [])
    else .ok (db.deleteMessage targetId,
      [⟨"message.deleted", [("conversation_id", .str d.convId), ("message_id", .str targetId)]⟩])
  else if frameType = ascii "edit" then
    let targetId := cborGetFieldStr kvs "target_message_id"
    let newText := cborGetFieldStr kvs "new_text"
    if targetId = [] ∨ newText = [] then .ok (db, [])
    else .ok (db.updateMessageText targetId newText,
      [⟨"message.edited", [("conversation_id", .str d.convId), ("message_id", .str targetId), ("new_text", .str newText)]⟩])
  else if frameType ∈ storedKinds.map ascii then
    let m := receivedMessage d frameType db kvs
    if m.id = [] then .ok (db, [])
    else
      match db.insertMessage m with
      | .error e => .error (.store e)
      | .ok (db', _) => .ok (db', [⟨"message.received", [("conversation_id", .str d.convId), ("message_id", .str m.id),
          ("sent_at", .uint m.sentAt.toUInt64)]⟩])
  else if frameType = ascii "typing" then
    .ok (db, [⟨"typing.start", [("conversation_id", .str d.convId)]⟩])
  else if frameType = ascii "read_receipt" then
    let upTo := cborGetFieldStr kvs "up_to_message_id"
    if upTo = [] then .ok (db, [])
    else .ok (db.updateMessageStatus upTo (ascii "read"), [⟨"message.read", [("message_id", .str upTo)]⟩])
  else .ok (db, [])

def dispatchAppFrame (load : Bytes → Option Item) (d : Delivery) (frameType appFrameBytes : Bytes) (db : Store) :
    Except DispatchError (Store × List Push) :=
  match load appFrameBytes with
  | none => .ok (db, [])
  | some (.map kvs) => dispatchPairs d frameType kvs db
  | some _ => .error .notMap

/-- Step 6 of `process_delivery_frame`: read the type of the decrypted app frame, then dispatch it. -/
def receiveAppFrame (load : Bytes → Option Item) (d : Delivery) (appFrameBytes : Bytes) (db : Store) :
    Except DispatchError (Store × List Push) :=
  match load appFrameBytes with
  | none => .ok (db, [])
  | some (.map kvs) => dispatchAppFrame load d (cborGetFieldStr kvs "type") appFrameBytes db
  | some _ => .error .notMap

/-! ## Fields of a frame -/

theorem Field.addTo_pairs (m : DefMap) (f : Field) : (f.addTo m).pairs = (m.pairs ++ [f.pair]).take m.cap := by
  cases f with
  | str k v => exact m.add_pairs _ _
  | bytes k v => exact m.add_pairs _ _
  | uint k v => exact m.add_pairs _ _

theorem Field.addTo_cap (m : DefMap) (f : Field) : (f.addTo m).cap = m.cap := by
  cases f with
  | str k v => exact m.add_cap _ _
  | bytes k v => exact m.add_cap _ _
  | uint k v => exact m.add_cap _ _

def Frame.kept (f : Frame) : List (Item × Item) := (f.fields.map Field.pair).take f.cap

theorem Frame.build_pairs (f : Frame) : f.build.pairs = f.kept := by
  have htake : ∀ (n : ℕ) (xs ys : List (Item × Item)), (xs.take n ++ ys).take n = (xs ++ ys).take n := by
    intro n xs ys
    by_cases h : xs.length ≤ n
    · rw [List.take_of_length_le h]
    · have hle : n ≤ (xs.take n).length := by
        rw [List.length_take]
        omega
      rw [List.take_append_of_le_length hle, List.take_take, Nat.min_self, List.take_append_of_le_length (by omega)]
  have hfold : ∀ (fs : List Field) (m : DefMap),
      (fs.foldl Field.addTo m).pairs = (m.pairs ++ fs.map Field.pair).take m.cap := by
    intro fs
    induction fs with
    | nil =>
      intro m
      simp [List.take_of_length_le m.fits]
    | cons f fs ih =>
      intro m
      rw [List.foldl_cons, ih, Field.addTo_cap, Field.addTo_pairs, htake, List.append_assoc]
      rfl
  simpa [Frame.build, Frame.kept] using hfold f.fields (DefMap.new f.cap)

section Receiving
variable {load : Bytes → Option Item}

theorem Frame.load_encoded (hload : Loads load) (f : Frame) :
    load f.encoded = some (.map f.kept) := by
  unfold Frame.encoded cborSer DefMap.item
  rw [hload.load_encode, f.build_pairs]

/-- The encoded map holds every field that the sender added. -/
def Frame.Intact (load : Bytes → Option Item) (f : Frame) : Prop :=
  ∃ kvs, load f.encoded = some (.map kvs) ∧ ∀ x ∈ f.fields, x.pair ∈ kvs

theorem Field.pair_fst (x : Field) : x.pair.1 = .text (ascii x.key) := by
  cases x <;> rfl

/-- Enough pairs were declared exactly when nothing is lost, since no key is added twice. -/
theorem Frame.intact_iff (hload : Loads load) (f : Frame) (hkeys : (f.fields.map Field.key).Nodup) :
    f.Intact load ↔ f.fields.length ≤ f.cap := by
  have hnodup : (f.fields.map Field.pair).Nodup := by
    refine List.Nodup.of_map (fun kv => kv.1) ?_
    have hmap : (f.fields.map Field.pair).map (fun kv => kv.1) =
        (f.fields.map Field.key).map (fun k => Item.text (ascii k)) := by
      simp only [List.map_map]
      exact List.map_congr_left (fun x _ => x.pair_fst)
    rw [hmap]
    exact hkeys.map (fun a b h => ascii_inj.mp (Item.text.inj h))
  refine ⟨?_, fun hle => ?_⟩
  · rintro ⟨kvs, hkvs, hall⟩
    rw [f.load_encoded hload] at hkvs
    obtain rfl := Item.map.inj (Option.some.inj hkvs)
    by_contra hgt
    -- the field after the last one that fits would stand twice in the list
    have hlt : f.cap < (f.fields.map Field.pair).length := by
      rw [List.length_map]
      omega
    have hmem : (f.fields.map Field.pair)[f.cap] ∈ (f.fields.map Field.pair).take f.cap := by
      obtain ⟨x, hx, heq⟩ := List.mem_map.mp (List.getElem_mem hlt)
      rw [← heq]
      exact hall x hx
    obtain ⟨j, hj, heq⟩ := List.mem_take_iff_getElem.mp hmem
    have := (List.Nodup.getElem_inj_iff hnodup).mp heq
    omega
  · refine ⟨_, f.load_encoded hload, ?_⟩
    intro x hx
    rw [Frame.kept, List.take_of_length_le (by rw [List.length_map]; exact hle)]
    exact List.mem_map_of_mem hx

theorem appFrame_intact_iff (hload : Loads load) (cap : ℕ) (kind : String) (me : Sender) (convId : Bytes) (rest : List Field)
    (hkeys : (["type", "id", "conversation_id", "sent_at"] ++ rest.map Field.key).Nodup) :
    (appFrame cap kind me convId rest).Intact load ↔ 4 + rest.length ≤ cap := by
  rw [Frame.intact_iff hload (appFrame cap kind me convId rest) hkeys]
  simp only [appFrame, List.length_append, List.length_cons, List.length_nil]

/-! ## Agreement -/

inductive AppCall
  | message (convId text replyToId : Bytes)
  | reaction (msgId emoji : Bytes)
  | unreact (msgId emoji : Bytes)
  | edit (msgId newText : Bytes)
  | delete (msgId : Bytes)
  | typing (convId action : Bytes)
  | read (convId upToId : Bytes)

namespace AppCall

def send (me : Sender) (db : Store) : AppCall → Except StoreError (Store × Option Outgoing)
  | message convId text replyToId => sendMessage me db convId text replyToId
  | reaction msgId emoji => sendReaction me db msgId emoji
  | unreact msgId emoji => sendUnreact me db msgId emoji
  | edit msgId newText => sendEdit me db msgId newText
  | delete msgId => sendDelete me db msgId
  | typing convId action => sendTyping me db convId action
  | read convId upToId => markRead me db convId upToId

def NulFree : AppCall → Prop
  | message convId text replyToId => 0 ∉ convId ∧ 0 ∉ text ∧ 0 ∉ replyToId
  | reaction msgId emoji => 0 ∉ msgId ∧ 0 ∉ emoji
  | unreact msgId emoji => 0 ∉ msgId ∧ 0 ∉ emoji
  | edit msgId newText => 0 ∉ msgId ∧ 0 ∉ newText
  | delete msgId => 0 ∉ msgId
  | typing convId action => 0 ∉ convId ∧ 0 ∉ action
  | read convId upToId => 0 ∉ convId ∧ 0 ∉ upToId

def Recoverable (load : Bytes → Option Item) (frame : Frame) (msgId emoji : Bytes) (action : String) : Prop :=
  ∃ kvs, load frame.encoded = some (.map kvs) ∧ cborGetFieldStr kvs "target_message_id" = msgId ∧
    cborGetFieldStr kvs "emoji" = emoji ∧ cborGetFieldStr kvs "action" = ascii action

/-- Whatever the receiver has stored, the frame turns the store into `change` of it. -/
def Changes (load : Bytes → Option Item) (frame : Frame) (change : Store → Store) : Prop :=
  ∀ (d : Delivery) (db : Store), ∃ events, receiveAppFrame load d frame.encoded db = .ok (change db, events)

/-- What the receiver is to do with the frame of the call. -/
def Understood (load : Bytes → Option Item) (me : Sender) (frame : Frame) : AppCall → Prop
  | message _ text _ => ∀ (d : Delivery) (db : Store), (∀ m ∈ db.messages, m.id ≠ me.frameId) →
      ∃ m events, receiveAppFrame load d frame.encoded db = .ok ({ db with messages := db.messages ++ [m] }, events) ∧
        m.id = me.frameId ∧ m.text = text ∧ m.contentType = ascii "text" ∧ m.sentAt = me.nowMs ∧ m.senderId = d.senderId
  | reaction msgId emoji => Recoverable load frame msgId emoji "add"
  | unreact msgId emoji => Recoverable load frame msgId emoji "remove"
  | edit msgId newText => Changes load frame (fun db => db.updateMessageText msgId newText)
  | delete msgId => Changes load frame (fun db => db.deleteMessage msgId)
  | typing _ _ => True
  | read _ upToId => Changes load frame (fun db => db.updateMessageStatus upToId (ascii "read"))

def Agreeing : AppCall → Prop
  | message _ _ _ => False
  | reaction _ _ => False
  | unreact _ _ => False
  | edit msgId newText => msgId ≠ [] ∧ newText ≠ []
  | delete msgId => msgId ≠ []
  | typing _ _ => False
  | read _ upToId => upToId ≠ []

end AppCall

theorem receive_appFrame (hload : Loads load) {cap : ℕ} {kind : String} (me : Sender) (convId : Bytes) (rest : List Field)
    (hcap : 0 < cap) (hkind : 0 ∉ ascii kind) (d : Delivery) (db : Store) :
    receiveAppFrame load d (appFrame cap kind me convId rest).encoded db =
      dispatchPairs d (ascii kind) (appFrame cap kind me convId rest).kept db := by
  have htype : cborGetFieldStr (appFrame cap kind me convId rest).kept "type" = ascii kind := by
    obtain ⟨n, rfl⟩ : ∃ n, cap = n + 1 := ⟨cap - 1, by omega⟩
    simp [appFrame, Frame.kept, cborGetFieldStr, getField, Field.pair, cStr_of_nulFree hkind]
  unfold receiveAppFrame dispatchAppFrame
  simp only [Frame.load_encoded hload, htype]

/-- `send_message` writes the id as a byte string; the receiver looks for a text and drops the frame. -/
theorem receive_messageFrame (hload : Loads load) (me : Sender) (convId text replyToId : Bytes) (d : Delivery) (db : Store) :
    receiveAppFrame load d (messageFrame me convId text replyToId).encoded db = .ok (db, []) := by
  have hid : cborGetFieldStr (messageFrame me convId text replyToId).kept "id" = [] := by
    by_cases hr : replyToId = []
    · simp [messageFrame, appFrame, Frame.kept, cborGetFieldStr, getField, Field.pair, hr]
    · simp [messageFrame, appFrame, Frame.kept, cborGetFieldStr, getField, Field.pair, hr]
  have hmem : ascii "message" ∈ storedKinds.map ascii := List.mem_map_of_mem (by decide)
  unfold messageFrame at hid ⊢
  rw [receive_appFrame hload me convId _ (by decide) (by decide)]
  unfold dispatchPairs
  rw [if_neg (by decide), if_neg (by decide), if_pos hmem]
  simp only [receivedMessage, hid, if_true]

section Targets
variable (hload : Loads load) (me : Sender) (convId : Bytes)
include hload

theorem receive_edit {msgId newText : Bytes} (hid : 0 ∉ msgId) (htext : 0 ∉ newText) (d : Delivery) (db : Store) :
    ∃ events, receiveAppFrame load d
        (appFrame 6 "edit" me convId [.str "target_message_id" msgId, .str "new_text" newText]).encoded db =
      .ok (if msgId = [] ∨ newText = [] then db else db.updateMessageText msgId newText, events) := by
  have htarget : cborGetFieldStr
      (appFrame 6 "edit" me convId [.str "target_message_id" msgId, .str "new_text" newText]).kept "target_message_id" = msgId := by
    simp [appFrame, Frame.kept, cborGetFieldStr, getField, Field.pair, cStr_of_nulFree hid]
  have hnew : cborGetFieldStr
      (appFrame 6 "edit" me convId [.str "target_message_id" msgId, .str "new_text" newText]).kept "new_text" = newText := by
    simp [appFrame, Frame.kept, cborGetFieldStr, getField, Field.pair, cStr_of_nulFree htext]
  rw [receive_appFrame hload me convId _ (by decide) (by decide)]
  unfold dispatchPairs
  rw [if_neg (by decide), if_pos rfl]
  simp only [htarget, hnew]
  split_ifs <;> exact ⟨_, rfl⟩

theorem receive_delete {msgId : Bytes} (hid : 0 ∉ msgId) (d : Delivery) (db : Store) :
    ∃ events, receiveAppFrame load d (appFrame 5 "delete" me convId [.str "target_message_id" msgId]).encoded db =
      .ok (if msgId = [] then db else db.deleteMessage msgId, events) := by
  have htarget : cborGetFieldStr
      (appFrame 5 "delete" me convId [.str "target_message_id" msgId]).kept "target_message_id" = msgId := by
    simp [appFrame, Frame.kept, cborGetFieldStr, getField, Field.pair, cStr_of_nulFree hid]
  rw [receive_appFrame hload me convId _ (by decide) (by decide)]
  unfold dispatchPairs
  rw [if_pos rfl]
  simp only [htarget]
  split_ifs <;> exact ⟨_, rfl⟩

theorem receive_readReceipt {upToId : Bytes} (hid : 0 ∉ upToId) (d : Delivery) (db : Store) :
    ∃ events, receiveAppFrame load d (appFrame 5 "read_receipt" me convId [.str "up_to_message_id" upToId]).encoded db =
      .ok (if upToId = [] then db else db.updateMessageStatus upToId (ascii "read"), events) := by
  have htarget : cborGetFieldStr
      (appFrame 5 "read_receipt" me convId [.str "up_to_message_id" upToId]).kept "up_to_message_id" = upToId := by
    simp [appFrame, Frame.kept, cborGetFieldStr, getField, Field.pair, cStr_of_nulFree hid]
  rw [receive_appFrame hload me convId _ (by decide) (by decide)]
  unfold dispatchPairs
  rw [if_neg (by decide), if_neg (by decide), if_neg (by decide), if_neg (by decide), if_pos rfl]
  simp only [htarget]
  split_ifs <;> exact ⟨_, rfl⟩

end Targets

def oneMessage (id : Bytes) (text : Bytes) : Store where
  messages := [⟨id, [], [1], 1, [], text, [1], 0, 0, [], []⟩]
  conversations := []

def someDelivery : Delivery := ⟨[], [], [0], 0, fun _ => 0⟩

theorem changes_iff {frame : Frame} {change : Store → Store} {bad : Prop} [Decidable bad]
    (hr : ∀ d db, ∃ events, receiveAppFrame load d frame.encoded db = .ok (if bad then db else change db, events))
    (hseen : bad → ∃ db, change db ≠ db) : AppCall.Changes load frame change ↔ ¬ bad := by
  refine ⟨?_, fun hbad d db => ?_⟩
  · intro h hbad
    obtain ⟨db, hne⟩ := hseen hbad
    obtain ⟨events, hgot⟩ := hr someDelivery db
    obtain ⟨events', hwant⟩ := h someDelivery db
    rw [hgot, if_pos hbad] at hwant
    exact hne (congrArg Prod.fst (Except.ok.inj hwant)).symm
  · obtain ⟨events, hgot⟩ := hr d db
    rw [if_neg hbad] at hgot
    exact ⟨events, hgot⟩

theorem sendAbout_some {db db' : Store} {msgId : Bytes} {go : StoredMessage → Store × Outgoing} {out : Outgoing}
    (h : sendAbout db msgId go = .ok (db', some out)) : ∃ msg, out = (go msg).2 := by
  unfold sendAbout at h
  cases hm : db.getMessage msgId with
  | none =>
    rw [hm] at h
    cases h
  | some msg =>
    rw [hm] at h
    injection h with h
    exact ⟨msg, (Option.some.inj (Prod.mk.inj h).2).symm⟩

theorem sendMessage_frame {me : Sender} {db db' : Store} {convId text replyToId : Bytes} {out : Outgoing}
    (h : sendMessage me db convId text replyToId = .ok (db', some out)) :
    out.frame = messageFrame me convId text replyToId := by
  unfold sendMessage at h
  split at h
  · injection h with h
    rw [← Option.some.inj (Prod.mk.inj h).2]
  · cases h

/-- Agreement of sender and receiver: the encoded frame of a call holds all its fields and the receiver
does what the call says exactly for edits with a target and a text, and for deletions and read
receipts with a target. -/
theorem app_frame_agrees_iff (hload : Loads load) (me : Sender) (db db' : Store) (call : AppCall) (hnul : call.NulFree)
    (out : Outgoing) (hsend : call.send me db = .ok (db', some out)) :
    out.frame.Intact load ∧ call.Understood load me out.frame ↔ call.Agreeing := by
  cases call with
  | message convId text replyToId =>
    refine iff_of_false ?_ id
    rintro ⟨_, hund⟩
    rw [sendMessage_frame hsend] at hund
    obtain ⟨m, events, hr, _⟩ := hund someDelivery ⟨[], []⟩ (by simp)
    rw [receive_messageFrame hload] at hr
    cases (Prod.mk.inj (Except.ok.inj hr)).1
  | reaction msgId emoji =>
    obtain ⟨msg, rfl⟩ := sendAbout_some hsend
    refine iff_of_false (fun h => ?_) id
    have hle := (appFrame_intact_iff hload _ _ _ _ _ (by simp [Field.key])).mp h.1
    simp at hle
  | unreact msgId emoji =>
    obtain ⟨msg, rfl⟩ := sendAbout_some hsend
    refine iff_of_false (fun h => ?_) id
    have hle := (appFrame_intact_iff hload _ _ _ _ _ (by simp [Field.key])).mp h.1
    simp at hle
  | edit msgId newText =>
    obtain ⟨msg, rfl⟩ := sendAbout_some hsend
    have hall := (appFrame_intact_iff hload 6 "edit" me msg.conversationId
      [.str "target_message_id" msgId, .str "new_text" newText] (by simp [Field.key])).mpr (by simp)
    refine (and_iff_right hall).trans ((changes_iff (receive_edit hload me msg.conversationId hnul.1 hnul.2) ?_).trans not_or)
    intro hbad
    refine ⟨oneMessage msgId (newText ++ [1]), fun heq => ?_⟩
    simp [oneMessage, Store.updateMessageText, Store.updateMessage] at heq
  | delete msgId =>
    obtain ⟨msg, rfl⟩ := sendAbout_some hsend
    have hall := (appFrame_intact_iff hload 5 "delete" me msg.conversationId
      [.str "target_message_id" msgId] (by simp [Field.key])).mpr (by simp)
    refine (and_iff_right hall).trans (changes_iff (receive_delete hload me msg.conversationId hnul) ?_)
    intro hbad
    refine ⟨oneMessage msgId [], fun heq => ?_⟩
    simp [oneMessage, Store.deleteMessage] at heq
  | typing convId action =>
    refine iff_of_false (fun h => ?_) id
    injection hsend with hsend
    obtain rfl := Option.some.inj (Prod.mk.inj hsend).2
    have hle := (appFrame_intact_iff hload _ _ _ _ _ (by simp [Field.key])).mp h.1
    simp at hle
  | read convId upToId =>
    obtain ⟨msg, rfl⟩ := sendAbout_some hsend
    have hall := (appFrame_intact_iff hload 5 "read_receipt" me convId
      [.str "up_to_message_id" upToId] (by simp [Field.key])).mpr (by simp)
    refine (and_iff_right hall).trans (changes_iff (receive_readReceipt hload me convId hnul.2) ?_)
    intro hbad
    refine ⟨oneMessage upToId [], fun heq => ?_⟩
    have hstatus : ascii "read" = [] := by
      simpa [oneMessage, Store.updateMessageStatus, Store.updateMessage] using heq
    exact absurd hstatus (by decide)

end Receiving

def demoSender : Sender := ⟨fit 32 [1], [2], 3⟩

def demoEdit : Frame := appFrame 6 "edit" demoSender [] [.str "target_message_id" [109], .str "new_text" [104]]

theorem app_frame_agrees_iff_demoEdit :
    demoEdit.Intact load ∧ (AppCall.edit [109] [104]).Understood load demoSender demoEdit ↔
      (AppCall.edit [109] [104]).Agreeing :=
  app_frame_agrees_iff load_loads demoSender (oneMessage [109] []) (oneMessage [109] []) (.edit [109] [104])
    ⟨by decide, by decide⟩ ⟨.conversation, [], "edit", demoEdit, "store", [2]⟩ rfl

def AppFramesAgree (load : Bytes → Option Item) : Prop :=
  ∀ (me : Sender) (db db' : Store) (call : AppCall) (out : Outgoing), call.NulFree →
    call.send me db = .ok (db', some out) → out.frame.Intact load ∧ call.Understood load me out.frame

theorem not_appFramesAgree_message : ¬ AppFramesAgree load := by
  intro h
  obtain ⟨_, hund⟩ := h demoSender ⟨[], []⟩ _ (.message [99] [104] []) _ ⟨by decide, by decide, by decide⟩ rfl
  obtain ⟨m, events, hr, _⟩ := hund someDelivery ⟨[], []⟩ (by simp)
  rw [receive_messageFrame load_loads demoSender [99] [104] []] at hr
  cases (Prod.mk.inj (Except.ok.inj hr)).1

end ScatterWeb.Client
