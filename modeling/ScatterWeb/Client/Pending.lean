import ScatterWeb.Client.Allowlist

/-! # Messages that wait in the inbox

At unlock the Client asks its inbox for what is pending and looks for maps with an id in a list `"messages"`. The inbox answers with
texts in a list `"message_ids"`. So nothing is fetched, whatever the inbox has. -/
namespace ScatterWeb.Client
open Crypto Lib Lib.Cbor Ratchet Mailbox Ipc.CborValue
set_option autoImplicit false

/-- The client and its inbox, and the calls of `process_delivery_frame` with their arguments. -/
structure Fetch where
  client : ClientState
  inbox : Inbox.InboxStore
  processed : List (Bytes × Bytes) := []

/-- One call of `on_inbox_message`: the inbox while it answers, and what `process_delivery_frame` finds. -/
structure FetchTurn where
  get : Answer
  ack : Answer
  junk : Uninit
  nowS : Int64
  nowMs : Int64

section Fetching
variable (P : Primitives wire) (load : Bytes → Option Item) (sha3 : Bytes → ByteArr 32)

def callInbox (a : Answer) (s : Inbox.InboxStore) (method : String) (params : Ipc.CborMap) : Inbox.InboxStore × Except Bytes Ipc.CborMap :=
  Ipc.call load (Ipc.itemHandler a.dbError (Inbox.handle a.env)) a.junk s ⟨a.id, ascii "client", ascii method, params⟩

def messageParams (messageId : Bytes) : Ipc.CborMap := Ipc.CborMap.empty.set "message_id" (.string messageId) (keyed_string _)

/-- `process_delivery_frame` with the acknowledgement at its end. -/
def processFetched (t : FetchTurn) (f : Fetch) (messageId frame : Bytes) : Fetch :=
  let r := processDeliveryFrame P load sha3 f.client ⟨messageId, frame, t.junk, t.nowS, t.nowMs⟩
  let inbox := if r.acked then (callInbox load t.ack f.inbox "inbox.ack" (messageParams messageId)).1 else f.inbox
  ⟨r.state, inbox, f.processed ++ [(messageId, frame)]⟩

def onInboxMessage (t : FetchTurn) (f : Fetch) (messageId : Bytes) : Fetch :=
  match callInbox load t.get f.inbox "inbox.get" (messageParams messageId) with
  | (inbox, .error _) => { f with inbox }
  | (inbox, .ok result) =>
    match result.find "delivery_frame" with
    | some (.bytes frame) => processFetched P load sha3 t { f with inbox } messageId frame
    | _ => { f with inbox }

/-- An entry of the list; one that is not a map with a text for its id is skipped. -/
def fetchEntry (turn : Bytes → FetchTurn) (f : Fetch) : Ipc.CborValue → Fetch
  | .map m =>
    match m.find? (fun e => decide (e.1 = ascii "message_id")) with
    | some (_, .string mid) => onInboxMessage P load sha3 (turn mid) f mid
    | _ => f
  | _ => f

def fetchPendingMessages (a : Answer) (turn : Bytes → FetchTurn) (f : Fetch) : Fetch :=
  match callInbox load a f.inbox "inbox.get_pending" .empty with
  | (inbox, .error _) => { f with inbox }
  | (inbox, .ok result) =>
    match result.find "messages" with
    | some (.array arr) => arr.foldl (fetchEntry P load sha3 turn) { f with inbox }
    | _ => { f with inbox }

/-- Every message that was not delivered is processed once, with its id and its frame. -/
def AllFetched (s : Inbox.InboxStore) (f : Fetch) : Prop :=
  f.processed.Perm ((s.messages.rows.filter (fun m => !m.deliveredToClient)).map (fun m => (m.messageId, m.deliveryFrame)))

variable {P load sha3}

/-- Nothing is fetched. -/
theorem fetchPendingMessages_eq (hload : Loads load) (a : Answer) (turn : Bytes → FetchTurn) (f : Fetch) :
    fetchPendingMessages P load sha3 a turn f = f := by
  have hhandle : Inbox.handle a.env f.inbox "inbox.get_pending" (Ipc.pairsToItems Ipc.CborMap.empty.received.entries) =
      .ok (f.inbox, Inbox.getPendingIds f.inbox) := by simp [Inbox.handle]
  have hcall : callInbox load a f.inbox "inbox.get_pending" .empty = (f.inbox, .ok (Ipc.replyMap (Inbox.getPendingIds f.inbox)).received) :=
    Ipc.call_items_of_ok hload (by decide +kernel) hhandle a.junk a.id (ascii "client")
  have hkeys : (Ipc.replyMap (Inbox.getPendingIds f.inbox)).KeysNulFree := by
    refine Ipc.keysNulFree_replyMap ?_
    intro e he
    rw [List.mem_singleton.mp he]
    dsimp only
    decide +kernel
  have hfind : (Ipc.replyMap (Inbox.getPendingIds f.inbox)).received.find "messages" = none := by
    rw [Ipc.CborMap.find_received hkeys, Ipc.find_replyMap_none, Option.map_none]
    intro e he
    rw [List.mem_singleton.mp he]
    dsimp only
    decide
  unfold fetchPendingMessages
  rw [hcall]
  dsimp only
  rw [hfind]

end Fetching

/-- What is pending is fetched exactly if nothing is pending. -/
theorem allFetched_iff (P : Primitives wire) (load : Bytes → Option Item) (hload : Loads load) (sha3 : Bytes → ByteArr 32) (a : Answer)
    (turn : Bytes → FetchTurn) (c : ClientState) (s : Inbox.InboxStore) :
    AllFetched s (fetchPendingMessages P load sha3 a turn ⟨c, s, []⟩) ↔ ∀ m ∈ s.messages.rows, m.deliveredToClient = true := by
  rw [fetchPendingMessages_eq hload, AllFetched, List.nil_perm, List.map_eq_nil_iff, List.filter_eq_nil_iff]
  simp

def waitingMessage (delivered : Bool) : Inbox.StoredMessage where
  messageId := bytesToHex (List.replicate 16 1)
  senderId := bytesToHex (List.replicate 32 2)
  deliveryFrame := [160]
  persistence := ascii "store"
  deliveredToClient := delivered

def waitingInbox (delivered : Bool) : Inbox.InboxStore :=
  { Inbox.InboxStore.empty with messages := ⟨[waitingMessage delivered], List.nodup_singleton _⟩ }

def aTurn (_ : Bytes) : FetchTurn := ⟨anAnswer, anAnswer, zeroed, 0, 0⟩

theorem allFetched_iff_delivered : AllFetched (waitingInbox true)
    (fetchPendingMessages counting Cbor.load (fit 32) anAnswer aTurn ⟨(newLink "active").client, waitingInbox true, []⟩) := by
  refine (allFetched_iff counting Cbor.load load_loads (fit 32) anAnswer aTurn _ (waitingInbox true)).mpr ?_
  intro m hm
  rw [List.mem_singleton.mp hm]
  rfl

/-- A message waits, and the Client does not see it. -/
theorem not_allFetched_waiting : ¬AllFetched (waitingInbox false)
    (fetchPendingMessages counting Cbor.load (fit 32) anAnswer aTurn ⟨(newLink "active").client, waitingInbox false, []⟩) := by
  rw [fetchPendingMessages_eq load_loads, AllFetched, List.nil_perm]
  exact List.cons_ne_nil _ _

end ScatterWeb.Client
