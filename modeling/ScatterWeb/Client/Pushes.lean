import ScatterWeb.Client.Pending
import ScatterWeb.Inbox.Pushes
import ScatterWeb.Outbox.Pushes

/-! # Push handlers that wait for themselves

The Client fetches a message on the receive thread of the connection to its inbox, over this connection. It is the same with the
acknowledgements of the inbox and with the answers of inbox and outbox to polls. -/
namespace ScatterWeb.Client.OnRecv
open Crypto Lib Lib.Cbor Lib.HandlerThread Lib.HandlerThread.Prog Ratchet Mailbox Ipc
set_option autoImplicit false

/-- The state of the client, and the calls of `process_delivery_frame` with their arguments. -/
structure Daemon where
  client : ClientState
  processed : List (Bytes × Bytes) := []

section Scripts
variable (P : Primitives wire) (load : Bytes → Option Item) (sha3 : Bytes → ByteArr 32)

def processFetched (t : FetchTurn) (messageId frame : Bytes) : Script Daemon Unit := do
  let d ← get
  let r := processDeliveryFrame P load sha3 d.client ⟨messageId, frame, t.junk, t.nowS, t.nowMs⟩
  Prog.modify (fun d => ⟨r.state, d.processed ++ [(messageId, frame)]⟩)
  if r.acked then
    let _ ← callMethod "inbox.ack" (messageParams messageId)
    pure ()
  else pure ()

def onInboxMessage (connected : Bool) (t : FetchTurn) (messageId : Bytes) : Script Daemon Unit :=
  if connected then do
    match ← callMethod "inbox.get" (messageParams messageId) with
    | .error _ => pure ()
    | .ok result =>
      match result.find "delivery_frame" with
      | some (.bytes frame) => processFetched P load sha3 t messageId frame
      | _ => pure ()
  else pure ()

/-- The id of a push that announces a message. -/
def availableId (p : Ipc.Push) : Option Bytes :=
  if p.event = ascii "inbox.message_available" then
    match p.payload.find "message_id" with
    | some (.string messageId) => some messageId
    | _ => none
  else none

def onInboxPush (connected : Bool) (t : FetchTurn) (p : Ipc.Push) : Script Daemon Unit :=
  match availableId p with
  | none => pure ()
  | some messageId => onInboxMessage P load sha3 connected t messageId

/-- The inbox while it answers the two calls. -/
def inboxAnswers (t : FetchTurn) (s : Inbox.InboxStore) (c : CallArgs) : Inbox.InboxStore × Except Bytes Ipc.CborMap :=
  callInbox load (if c.method = "inbox.get" then t.get else t.ack) s c.method c.params

variable {P load sha3}

theorem replay_processFetched (t : FetchTurn) (messageId frame : Bytes) (f : Fetch) :
    (processFetched P load sha3 t messageId frame).replay (inboxAnswers load t) ⟨f.client, f.processed⟩ f.inbox =
      (⟨(Client.processFetched P load sha3 t f messageId frame).client, (Client.processFetched P load sha3 t f messageId frame).processed⟩,
        (Client.processFetched P load sha3 t f messageId frame).inbox, ()) := by
  unfold processFetched Client.processFetched
  simp only [bind_eq, get_bind, modify_bind, replay, id]
  cases (processDeliveryFrame P load sha3 f.client ⟨messageId, frame, t.junk, t.nowS, t.nowMs⟩).acked with
  | true => rfl
  | false => rfl

/-- With the answers of the inbox, a message is fetched as at unlock. -/
theorem replay_onInboxMessage (t : FetchTurn) (messageId : Bytes) (f : Fetch) :
    (onInboxMessage P load sha3 true t messageId).replay (inboxAnswers load t) ⟨f.client, f.processed⟩ f.inbox =
      (⟨(Client.onInboxMessage P load sha3 t f messageId).client, (Client.onInboxMessage P load sha3 t f messageId).processed⟩,
        (Client.onInboxMessage P load sha3 t f messageId).inbox, ()) := by
  have hcall : inboxAnswers load t f.inbox ⟨"inbox.get", messageParams messageId⟩ =
      callInbox load t.get f.inbox "inbox.get" (messageParams messageId) := rfl
  unfold onInboxMessage Client.onInboxMessage
  simp only [if_true, callMethod, bind_eq, request_bind, replay, hcall]
  obtain ⟨inbox, result⟩ := callInbox load t.get f.inbox "inbox.get" (messageParams messageId)
  cases result with
  | error what => rfl
  | ok result =>
    cases hfind : result.find "delivery_frame" with
    | none => simp [hfind, replay]
    | some v =>
      cases v with
      | bytes frame =>
        simp only [hfind]
        exact replay_processFetched t messageId frame { f with inbox }
      | _ => simp [hfind, replay]

/-- The pushes for which the client calls. -/
def Calls (_ : Daemon) (p : FetchTurn × Ipc.Push) : Prop := (availableId p.2).isSome = true

theorem onInboxPush_pauses_iff (d : Daemon) (p : FetchTurn × Ipc.Push) :
    (onInboxPush P load sha3 true p.1 p.2).Pauses (fun _ => none) d ↔ Calls d p := by
  unfold onInboxPush Calls
  cases availableId p.2 with
  | none => simp
  | some messageId => simp [onInboxMessage, callMethod]

end Scripts

/-! ## The three daemons -/

section Daemons
variable (P : Primitives wire) (load : Bytes → Option Item) (sha3 : Bytes → ByteArr 32)

/-- The receive thread of the Client's connection to its inbox. -/
def ClientThread := Step callFailures (fun connected (p : FetchTurn × Ipc.Push) => onInboxPush P load sha3 connected p.1 p.2)

/-- That of the inbox's connection to the AnonRouter. -/
def InboxThread (cfg : Inbox.Config) := Step callFailures (fun _ (p : Inbox.Env × Ipc.Push) => Inbox.OnRecv.onArPush load cfg p.1 p.2)

def InboxCalls (d : Inbox.OnRecv.Daemon) (p : Inbox.Env × Ipc.Push) : Prop := Inbox.OnRecv.Calls load d p.2

/-- And of the outbox's. -/
def OutboxThread := Step callFailures (fun _ (p : Ipc.Push) => Outbox.OnRecv.onArPush load p)

end Daemons

/-- A receive thread waits for itself after a push exactly if the connection is up and the push makes the handler call; and where no push
does, it never waits for itself. -/
theorem selfWaits_only_after_calls (P : Primitives wire) (load : Bytes → Option Item) (sha3 : Bytes → ByteArr 32) (cfg : Inbox.Config) :
    ((∀ store s, Reachable (fun s e s' => ClientThread P load sha3 s e s' ∧ Quiet Calls s e) (State.initial store) s → ¬s.SelfWaits) ∧
      ∀ s p s', ClientThread P load sha3 s (.push p) s' → (s'.SelfWaits ↔ s.running = true ∧ Calls s.store p)) ∧
    ((∀ store s, Reachable (fun s e s' => InboxThread load cfg s e s' ∧ Quiet (InboxCalls load) s e) (State.initial store) s →
        ¬s.SelfWaits) ∧
      ∀ s p s', InboxThread load cfg s (.push p) s' → (s'.SelfWaits ↔ s.running = true ∧ InboxCalls load s.store p)) ∧
    ((∀ store s, Reachable (fun s e s' => OutboxThread load s e s' ∧ Quiet (Outbox.OnRecv.Calls load) s e) (State.initial store) s →
        ¬s.SelfWaits) ∧
      ∀ s p s', OutboxThread load s (.push p) s' → (s'.SelfWaits ↔ s.running = true ∧ Outbox.OnRecv.Calls load s.store p)) := by
  refine ⟨⟨?_, ?_⟩, ⟨?_, ?_⟩, ⟨?_, ?_⟩⟩
  · intro store s h
    exact not_selfWaits_of_quiet onInboxPush_pauses_iff h
  · intro s p s' h
    exact push_selfWaits_iff onInboxPush_pauses_iff h
  · intro store s h
    exact not_selfWaits_of_quiet (fun d p => Inbox.OnRecv.onArPush_pauses_iff d p.2) h
  · intro s p s' h
    exact push_selfWaits_iff (fun d p => Inbox.OnRecv.onArPush_pauses_iff d p.2) h
  · intro store s h
    exact not_selfWaits_of_quiet Outbox.OnRecv.onArPush_pauses_iff h
  · intro s p s' h
    exact push_selfWaits_iff Outbox.OnRecv.onArPush_pauses_iff h

/-! ### A poll and a message -/

def framePush (body : Bytes) : Ipc.Push := ⟨ascii "frame.recv", frameParams (ascii "c1") body⟩

theorem frameRecv_framePush (body : Bytes) : frameRecv (framePush body) = some (ascii "c1", body) := by
  simp [frameRecv, framePush, frameParams]

def ackKvs : List (Item × Item) := [(.text (ascii "type"), .text (ascii "delivery_ack"))]

def pollKvs : List (Item × Item) := [(.text (ascii "type"), .text (ascii "outbox_poll")), (.text (ascii "inbox_key_c_pubkey"), .bytes [7])]

theorem not_calls_ack (d : Outbox.OnRecv.Daemon) : ¬Outbox.OnRecv.Calls Cbor.load d (framePush (encode (.map ackKvs))) := by
  rintro ⟨channelId, body, hframe, kvs, hload, htype, _⟩
  rw [frameRecv_framePush] at hframe
  cases hframe
  rw [load_loads.load_encode] at hload
  cases hload
  revert htype
  decide +kernel

theorem selfWaits_only_after_calls_ack : ∃ s, Reachable
    (fun s e s' => OutboxThread Cbor.load s e s' ∧ Quiet (Outbox.OnRecv.Calls Cbor.load) s e) (State.initial ⟨.empty, []⟩) s ∧ ¬s.SelfWaits := by
  have hstep : OutboxThread Cbor.load (State.initial ⟨.empty, []⟩) (.push (framePush (encode (.map ackKvs)))) _ := .push rfl
  have hreach := (Reachable.refl (fun s e s' => OutboxThread Cbor.load s e s' ∧ Quiet (Outbox.OnRecv.Calls Cbor.load) s e) _).tail
    ⟨hstep, fun _ => not_calls_ack _⟩
  exact ⟨_, hreach, (selfWaits_only_after_calls counting Cbor.load (fit 32) {}).2.2.1 _ _ hreach⟩

/-- What the inbox pushes for a new message. -/
def availablePush : Ipc.Push where
  event := ascii "inbox.message_available"
  payload :=
    let m := Ipc.CborMap.empty.set "message_id" (.string (bytesToHex (List.replicate 16 1))) (CborValue.keyed_string _)
    m.set "sender_id" (.string (bytesToHex (List.replicate 32 2))) (CborValue.keyed_string _)

/-- The Client waits for itself on the first message that is announced, the inbox and the outbox on the first poll. -/
theorem selfWaits_on_first_push :
    (∃ s, Reachable (ClientThread counting Cbor.load (fit 32)) (State.initial ⟨(newLink "active").client, []⟩) s ∧ s.SelfWaits) ∧
    (∃ s, Reachable (InboxThread Cbor.load {}) (State.initial ⟨.empty, []⟩) s ∧ s.SelfWaits) ∧
    (∃ s, Reachable (OutboxThread Cbor.load) (State.initial ⟨.empty, []⟩) s ∧ s.SelfWaits) := by
  have htype : frameType (.map pollKvs) = ascii "outbox_poll" := by decide +kernel
  have hload : Cbor.load (encode (.map pollKvs)) = some (.map pollKvs) := load_loads.load_encode _
  refine ⟨?_, ?_, ?_⟩
  · have hcalls : Calls ⟨(newLink "active").client, []⟩ (aTurn [], availablePush) := by
      simp [Calls, availableId, availablePush]
    exact exists_selfWaits onInboxPush_pauses_iff hcalls
  · have hcalls : InboxCalls Cbor.load ⟨.empty, []⟩ (anAnswer.env, framePush (encode (.map pollKvs))) :=
      ⟨_, _, frameRecv_framePush _, Or.inl ⟨_, hload, htype⟩⟩
    exact exists_selfWaits (fun d p => Inbox.OnRecv.onArPush_pauses_iff d p.2) hcalls
  · have hcalls : Outbox.OnRecv.Calls Cbor.load ⟨.empty, []⟩ (framePush (encode (.map pollKvs))) :=
      ⟨_, _, frameRecv_framePush _, pollKvs, hload, htype, by decide +kernel⟩
    exact exists_selfWaits Outbox.OnRecv.onArPush_pauses_iff hcalls

end ScatterWeb.Client.OnRecv
