import ScatterWeb.Client.Queueing

/-! # An outbox that serves a Client

A Client makes four requests of its outbox. None of them brings the inbox of a recipient or a sibling, so there is never anything to
try, to hand out or to copy: whatever frames arrive and however the tasks take turns, the outbox only ever answers a poll, with an empty list.
What it announces as delivered was named in an `outbox_poll_ack`, which nobody has to have sent a message for. -/
namespace ScatterWeb.Client.Silence
open Crypto Lib Lib.Cbor Mailbox Client
set_option autoImplicit false

/-! ## The requests -/

inductive ClientRequest : Ipc.Request → Prop
  /-- `enqueue_dm` and `enqueue_for_conv`. -/
  | send (id : UInt64) (send : Send) : ClientRequest (send.request id)
  /-- `provision_devices` and `check_renew_key_c`. -/
  | updateAuthCert (id : UInt64) (params : Ipc.CborMap) : ClientRequest ⟨id, ascii "client", ascii "outbox.update_auth_cert", params⟩
  /-- `get_outbox_status`. -/
  | stats (id : UInt64) : ClientRequest ⟨id, ascii "client", ascii "outbox.stats", .empty⟩

/-- A request that the outbox gets is one of these, encoded and decoded. -/
def FromClient (load : Bytes → Option Item) : Outbox.Event → Prop
  | .ipc _ method params => ∃ req r, ClientRequest req ∧ Ipc.decodeRequest load (Ipc.encodeRequest req) = .ok r ∧
      method = Ipc.nameOf r.method ∧ params = Ipc.pairsToItems r.params.entries
  | _ => True

/-- The answer to a poll for which there is nothing. -/
def emptyPollResponse : Bytes :=
  cborSer ((mapAddStr (DefMap.new 2) "type" (ascii "outbox_poll_response")).add (.text (ascii "messages")) (.array []))

/-- Nothing is tried, an empty list is all that is sent, to the channel of a frame, and a message is announced only where a frame claims it. -/
structure Silent (load : Bytes → Option Item) (e : Outbox.Event) (out : Outbox.Output) : Prop where
  attempts : out.attempts = []
  sent : ∀ x ∈ out.sent, ∃ channelId body, e = .frame channelId body ∧ x = (channelId, emptyPollResponse)
  pushes : ∀ id ∈ out.pushes, ∃ channelId body kvs, e = .frame channelId body ∧ load body = some (.map kvs) ∧
    frameType (.map kvs) = ascii "outbox_poll_ack" ∧ id ∈ Outbox.pollAckIds kvs

/-! ## What holds of such an outbox -/

def QuietAfter : Option Outbox.Broadcast → Prop
  | none => True
  | some b => ∀ v ∈ b.todo, Outbox.readRecipient v = none

def QuietOrigin : Outbox.Origin → Prop
  | .loop _ _ => True
  | .immediate andThen => QuietAfter andThen

/-- A task that has no inbox to try and no recipient to read. -/
def QuietTask : Outbox.Task → Prop
  | .read _ andThen => QuietAfter andThen
  | .loop _ _ => True
  | .inboxes origin _ todo => QuietOrigin origin ∧ todo = []
  | .failed origin _ => QuietOrigin origin
  | .replicate _ andThen => QuietAfter andThen
  | .broadcast b => QuietAfter (some b)

structure QuietStore (s : Outbox.OutboxStore) : Prop where
  recipients : s.recipients.rows = []
  siblings : s.siblings.rows = []

structure Quiet (p : Outbox.Process) : Prop where
  store : QuietStore p.store
  tasks : ∀ task ∈ p.tasks, QuietTask task

section Tasks
variable {cfg : Outbox.Config} {env : Outbox.Env} {s s' : Outbox.OutboxStore} {task : Outbox.Task} {andThen : Option Outbox.Broadcast}

theorem QuietStore.congr (h : QuietStore s) (hr : s'.recipients = s.recipients) (hs : s'.siblings = s.siblings) : QuietStore s' where
  recipients := by
    rw [hr]
    exact h.recipients
  siblings := by
    rw [hs]
    exact h.siblings

theorem QuietStore.getRecipientInboxes (h : QuietStore s) (id : Bytes) : s.getRecipientInboxes id = [] := by
  unfold Outbox.OutboxStore.getRecipientInboxes
  rw [h.recipients]
  rfl

theorem QuietStore.isValidRecipientInbox (h : QuietStore s) (id key : Bytes) : s.isValidRecipientInbox id key = false := by
  unfold Outbox.OutboxStore.isValidRecipientInbox Table.find
  rw [h.recipients]
  rfl

theorem QuietStore.replicateToSiblings (h : QuietStore s) (id : Bytes) : Outbox.replicateToSiblings env s id = [] := by
  unfold Outbox.replicateToSiblings
  split
  · rfl
  · rw [h.siblings]
    rfl

/-- What a piece of work leaves and puts out. -/
structure QuietWork (result : Outbox.OutboxStore × Option Outbox.Task × Outbox.Output) : Prop where
  store : QuietStore result.1
  task : ∀ task', result.2.1 = some task' → QuietTask task'
  attempts : result.2.2.attempts = []
  sent : result.2.2.sent = []
  pushes : result.2.2.pushes = []

theorem quietWork_goesOn (h : QuietStore s) (htask : QuietTask task) : QuietWork (s, some task, {}) where
  store := h
  task _ heq := Option.some.inj heq ▸ htask
  attempts := rfl
  sent := rfl
  pushes := rfl

theorem quietWork_ends (h : QuietStore s) {out : Outbox.Output} (hattempts : out.attempts = []) (hsent : out.sent = []) (hpushes : out.pushes = []) :
    QuietWork (s, none, out) where
  store := h
  task task' heq := by cases heq
  attempts := hattempts
  sent := hsent
  pushes := hpushes

theorem quietWork_finish (h : QuietStore s) (id : Bytes) (hafter : QuietAfter andThen) : QuietWork (s, Outbox.finish id andThen) := by
  cases andThen with
  | none => exact quietWork_ends h rfl rfl rfl
  | some b => exact quietWork_goesOn h hafter

theorem quietWork_broadcastNext (h : QuietStore s) {b : Outbox.Broadcast} (hb : QuietAfter (some b)) : QuietWork (Outbox.broadcastNext s b) := by
  cases htodo : b.todo with
  | nil =>
    rw [Outbox.broadcastNext_nil htodo]
    exact quietWork_ends h rfl rfl rfl
  | cons v rest =>
    rw [Outbox.broadcastNext_unread htodo (hb v (by rw [htodo]; exact List.mem_cons_self))]
    refine quietWork_goesOn h ?_
    intro v' hv'
    exact hb v' (by rw [htodo]; exact List.mem_cons_of_mem v hv')

theorem quietTask_afterSuccess {msg : Outbox.QueuedMessage} {origin : Outbox.Origin} (h : QuietOrigin origin) :
    QuietTask (Outbox.afterSuccess msg origin) := by
  cases origin with
  | loop kind rest => exact trivial
  | immediate andThen => exact h

theorem quietTask_afterInboxes {msg : Outbox.QueuedMessage} {origin : Outbox.Origin} (h : QuietOrigin origin) :
    QuietTask (Outbox.afterInboxes msg origin) := by
  cases origin with
  | loop kind rest =>
    cases kind with
    | burst => exact trivial
    | retry => exact trivial
  | immediate andThen => exact h

theorem quietWork (cfg : Outbox.Config) (env : Outbox.Env) (h : QuietStore s) (htask : QuietTask task) : QuietWork (Outbox.work cfg env s task) := by
  cases task with
  | read id andThen =>
    rw [Outbox.work]
    split
    · exact quietWork_finish h id htask
    · split
      · exact quietWork_goesOn h ⟨htask, h.getRecipientInboxes id⟩
      · exact quietWork_finish h id htask
  | loop kind queue =>
    cases queue with
    | nil => exact quietWork_ends h rfl rfl rfl
    | cons msg rest => exact quietWork_goesOn h ⟨trivial, h.getRecipientInboxes msg.messageId⟩
  | inboxes origin msg todo =>
    obtain ⟨horigin, rfl⟩ := htask
    exact quietWork_goesOn h (quietTask_afterInboxes horigin)
  | failed origin msg =>
    obtain ⟨nextAt, hcount⟩ := Outbox.countAttempt_eq cfg env s origin msg
    rw [Outbox.work, hcount]
    exact quietWork_goesOn (h.congr rfl rfl) (quietTask_afterSuccess htask)
  | replicate id andThen =>
    have hfinish := quietWork_finish h id htask
    rw [Outbox.work]
    exact ⟨h, hfinish.task, hfinish.attempts, h.replicateToSiblings id, hfinish.pushes⟩
  | broadcast b => exact quietWork_broadcastNext h htask

end Tasks

/-! ## Frames -/

section Frames
variable {load : Bytes → Option Item} {s : Outbox.OutboxStore} {channelId body : Bytes}

theorem handlePoll_quiet (h : QuietStore s) (channelId : Bytes) (kvs : List (Item × Item)) :
    ∀ x ∈ Outbox.handlePoll s channelId kvs, x = (channelId, emptyPollResponse) := by
  unfold Outbox.handlePoll
  dsimp only
  split
  · exact fun _ hx => nomatch hx
  · have hnone : s.listPending.filter (fun m => s.isValidRecipientInbox m.messageId ((lastField asBytes kvs "inbox_key_c_pubkey").getD [])) = [] := by
      rw [List.filter_eq_nil_iff]
      intro m _
      rw [h.isValidRecipientInbox]
      exact Bool.false_ne_true
    rw [hnone]
    intro x hx
    exact List.mem_singleton.mp hx

theorem handleDeliveryAck_quiet (h : QuietStore s) (kvs : List (Item × Item)) : Outbox.handleDeliveryAck s kvs = (s, {}) := by
  unfold Outbox.handleDeliveryAck
  dsimp only
  rw [h.isValidRecipientInbox]
  split
  · rfl
  · rfl

theorem quietStore_acked (h : QuietStore s) (ids : List Bytes) : QuietStore (ids.foldl (fun s id => s.setStatus id .delivered) s) := by
  induction ids generalizing s with
  | nil => exact h
  | cons id ids ih => exact ih (h.congr rfl rfl)

theorem silent_of_nothing {e : Outbox.Event} {out : Outbox.Output} (hattempts : out.attempts = []) (hsent : out.sent = []) (hpushes : out.pushes = []) :
    Silent load e out where
  attempts := hattempts
  sent x hx := by
    rw [hsent] at hx
    cases hx
  pushes id hid := by
    rw [hpushes] at hid
    cases hid

theorem onFrame_quiet (load : Bytes → Option Item) (h : QuietStore s) (channelId body : Bytes) : QuietStore (Outbox.onFrame load s channelId body).1 ∧
    Silent load (.frame channelId body) (Outbox.onFrame load s channelId body).2 := by
  have hnothing : QuietStore s ∧ Silent load (.frame channelId body) {} := ⟨h, silent_of_nothing rfl rfl rfl⟩
  unfold Outbox.onFrame
  split
  · rename_i kvs hload
    split
    · rw [handleDeliveryAck_quiet h]
      exact hnothing
    · split
      · refine ⟨h, rfl, ?_, (fun _ hid => nomatch hid)⟩
        intro x hx
        exact ⟨channelId, body, rfl, handlePoll_quiet h channelId kvs x hx⟩
      · split
        · rename_i htype
          refine ⟨quietStore_acked h (Outbox.pollAckIds kvs), rfl, (fun _ hx => nomatch hx), ?_⟩
          intro id hid
          exact ⟨channelId, body, kvs, rfl, hload, htype, hid⟩
        · exact hnothing
  · exact hnothing

end Frames

/-! ## Requests and steps -/

section Steps
variable {load : Bytes → Option Item} {cfg : Outbox.Config} {env : Outbox.Env} {s : Outbox.OutboxStore} {p : Outbox.Process}

/-- What is left of a request that the Client makes. -/
def QuietOutcome : Outbox.Outcome → Prop
  | .started s task => QuietStore s ∧ QuietTask task
  | .done s _ => QuietStore s

theorem quiet_enqueueBroadcast {members : List GroupMember} {frameId frame : Bytes} {task : Outbox.Task}
    (henqueue : Outbox.enqueueBroadcast load env (Ipc.pairsToItems (broadcastParams members frameId frame).received.entries) = .ok task) :
    QuietTask task := by
  obtain ⟨frame', _, hrest⟩ := bind_eq_ok.mp henqueue
  obtain ⟨hdr, _, hrest⟩ := bind_eq_ok.mp hrest
  rw [find_recipients] at hrest
  cases hrest
  intro v hv
  obtain ⟨x, hx, rfl⟩ := Ipc.mem_received_array hv
  obtain ⟨mem, _, rfl⟩ := List.mem_map.mp hx
  exact readRecipient_recipientParam mem.theirKeyBKem

theorem quiet_enqueue (h : QuietStore s) {messageId kem frame : Bytes} {s₁ : Outbox.OutboxStore} {task : Outbox.Task}
    (henqueue : Outbox.enqueue load env s (Ipc.pairsToItems (enqueueParams messageId kem frame).received.entries) = .ok (s₁, task)) :
    QuietStore s₁ ∧ QuietTask task := by
  obtain ⟨frame', _, hrest⟩ := bind_eq_ok.mp henqueue
  obtain ⟨hdr, _, hrest⟩ := bind_eq_ok.mp hrest
  rw [recipientInboxes_enqueueParams] at hrest
  split at hrest
  · cases hrest
  · rename_i s₂ hins
    cases hrest
    have hstore : s₂ = (s.insertMessage (Outbox.queuedMessage env frame' hdr
        (Ipc.pairsToItems (enqueueParams messageId kem frame).received.entries))).1 := by rw [hins]
    rw [List.foldl_nil, hstore]
    exact ⟨h.congr rfl rfl, trivial⟩

/-- What the outbox makes of a method and its parameters. -/
theorem decoded_request (hload : Loads load) {req r : Ipc.Request} (method : String) (hmethod : req.method = ascii method) (hnul : 0 ∉ ascii method)
    (hdecode : Ipc.decodeRequest load (Ipc.encodeRequest req) = .ok r) : Ipc.nameOf r.method = method ∧ r.params = req.params.received := by
  rw [Ipc.decodeRequest_encodeRequest hload] at hdecode
  cases hdecode
  dsimp only
  rw [hmethod, cStr_of_nulFree hnul, Ipc.nameOf_ascii]
  exact ⟨rfl, rfl⟩

theorem quiet_handle (hload : Loads load) (h : QuietStore s) {req r : Ipc.Request} (hreq : ClientRequest req)
    (hdecode : Ipc.decodeRequest load (Ipc.encodeRequest req) = .ok r) {outcome : Outbox.Outcome}
    (hhandle : Outbox.handle load env s (Ipc.nameOf r.method) (Ipc.pairsToItems r.params.entries) = .ok outcome) : QuietOutcome outcome := by
  cases hreq with
  | send id send =>
    cases send with
    | group members frameId frame =>
      obtain ⟨hmethod, hparams⟩ := decoded_request hload "outbox.enqueue_broadcast" rfl (by decide +kernel) hdecode
      rw [hmethod, hparams, Outbox.handle_enqueueBroadcast] at hhandle
      cases henqueue : Outbox.enqueueBroadcast load env (Ipc.pairsToItems (broadcastParams members frameId frame).received.entries) with
      | error e =>
        rw [Send.request, henqueue] at hhandle
        cases hhandle
      | ok task =>
        rw [Send.request, henqueue] at hhandle
        cases hhandle
        exact ⟨h, quiet_enqueueBroadcast henqueue⟩
    | dm messageId kem frame =>
      obtain ⟨hmethod, hparams⟩ := decoded_request hload "outbox.enqueue" rfl (by decide +kernel) hdecode
      rw [hmethod, hparams, Outbox.handle_enqueue] at hhandle
      cases henqueue : Outbox.enqueue load env s (Ipc.pairsToItems (enqueueParams messageId kem frame).received.entries) with
      | error e =>
        rw [Send.request, henqueue] at hhandle
        cases hhandle
      | ok result =>
        rw [Send.request, henqueue] at hhandle
        cases hhandle
        exact quiet_enqueue h henqueue
  | updateAuthCert id params =>
    obtain ⟨hmethod, hparams⟩ := decoded_request hload "outbox.update_auth_cert" rfl (by decide +kernel) hdecode
    have hcert : Outbox.handle load env s "outbox.update_auth_cert" (Ipc.pairsToItems r.params.entries) =
        (Outbox.updateAuthCert (Ipc.pairsToItems r.params.entries)).map (.done s) := by simp [Outbox.handle]
    rw [hmethod, hcert] at hhandle
    cases hupdate : Outbox.updateAuthCert (Ipc.pairsToItems r.params.entries) with
    | error e =>
      rw [hupdate] at hhandle
      cases hhandle
    | ok reply =>
      rw [hupdate] at hhandle
      cases hhandle
      exact h
  | stats id =>
    obtain ⟨hmethod, hparams⟩ := decoded_request hload "outbox.stats" rfl (by decide +kernel) hdecode
    have hstats : Outbox.handle load env s "outbox.stats" (Ipc.pairsToItems r.params.entries) =
        .ok (.done s [("pending_count", Outbox.uintItem s.listPending.length)]) := by simp [Outbox.handle]
    rw [hmethod, hstats] at hhandle
    cases hhandle
    exact h

theorem Quiet.add {store : Outbox.OutboxStore} {task : Outbox.Task} (h : Quiet p) (hstore : QuietStore store) (htask : QuietTask task) :
    Quiet ⟨store, p.tasks ++ [task]⟩ where
  store := hstore
  tasks task' htask' := by
    obtain hold | hnew := List.mem_append.mp htask'
    · exact h.tasks task' hold
    · rw [List.mem_singleton.mp hnew]
      exact htask

theorem quiet_step (cfg : Outbox.Config) (hload : Loads load) (h : Quiet p) {e : Outbox.Event} (he : FromClient load e) :
    Quiet (Outbox.step load cfg p e).1 ∧ Silent load e (Outbox.step load cfg p e).2 := by
  cases e with
  | frame channelId body =>
    obtain ⟨hstore, hsilent⟩ := onFrame_quiet load h.store channelId body
    exact ⟨⟨hstore, h.tasks⟩, hsilent⟩
  | ipc env method params =>
    obtain ⟨req, r, hreq, hdecode, rfl, rfl⟩ := he
    rw [Outbox.step]
    cases hhandle : Outbox.handle load env p.store (Ipc.nameOf r.method) (Ipc.pairsToItems r.params.entries) with
    | error err => exact ⟨h, silent_of_nothing rfl rfl rfl⟩
    | ok outcome =>
      have houtcome := quiet_handle hload h.store hreq hdecode hhandle
      cases outcome with
      | started store task => exact ⟨h.add houtcome.1 houtcome.2, silent_of_nothing rfl rfl rfl⟩
      | done store reply => exact ⟨⟨houtcome, h.tasks⟩, silent_of_nothing rfl rfl rfl⟩
  | retry env =>
    rw [Outbox.step]
    split
    · exact ⟨h, silent_of_nothing rfl rfl rfl⟩
    · exact ⟨h.add h.store trivial, silent_of_nothing rfl rfl rfl⟩
  | maintenance env => exact ⟨⟨h.store.congr rfl rfl, h.tasks⟩, silent_of_nothing rfl rfl rfl⟩
  | work env index =>
    rw [Outbox.step]
    cases htask : p.tasks[index]? with
    | none => exact ⟨h, silent_of_nothing rfl rfl rfl⟩
    | some task =>
      have hwork := quietWork cfg env h.store (h.tasks task (List.mem_of_getElem? htask))
      dsimp only
      split
      · rename_i store out heq
        rw [heq] at hwork
        refine ⟨⟨hwork.store, ?_⟩, silent_of_nothing hwork.attempts hwork.sent hwork.pushes⟩
        exact fun task' htask' => h.tasks task' (List.mem_of_mem_eraseIdx htask')
      · rename_i store task' out heq
        rw [heq] at hwork
        refine ⟨⟨hwork.store, ?_⟩, silent_of_nothing hwork.attempts hwork.sent hwork.pushes⟩
        intro task'' htask''
        obtain hold | rfl := List.mem_or_eq_of_mem_set htask''
        · exact h.tasks task'' hold
        · exact hwork.task _ rfl
  | restart =>
    refine ⟨⟨h.store, ?_⟩, silent_of_nothing rfl rfl rfl⟩
    intro task' htask'
    rw [List.mem_singleton.mp htask']
    exact trivial

theorem quiet_run (cfg : Outbox.Config) (hload : Loads load) {es : List Outbox.Event} (hes : ∀ e ∈ es, FromClient load e) (h : Quiet p) :
    Quiet (es.foldl (fun p e => (Outbox.step load cfg p e).1) p) := by
  induction es generalizing p with
  | nil => exact h
  | cons e es ih =>
    exact ih (fun e' he' => hes e' (List.mem_cons_of_mem e he')) (quiet_step cfg hload h (hes e List.mem_cons_self)).1

end Steps

/-- However many messages a Client hands to its outbox, the outbox never tries to deliver one and never sends anything but empty answers
to polls; what it announces as delivered was named by an `outbox_poll_ack` and nothing else. -/
theorem client_outbox_silent (load : Bytes → Option Item) (hload : Loads load) (cfg : Outbox.Config) (es : List Outbox.Event) (e : Outbox.Event)
    (hes : ∀ e' ∈ es ++ [e], FromClient load e') :
    Silent load e (Outbox.step load cfg (es.foldl (fun p e => (Outbox.step load cfg p e).1) .initial) e).2 := by
  have hinitial : Quiet .initial := ⟨⟨rfl, rfl⟩, fun _ h => nomatch h⟩
  have hquiet := quiet_run cfg hload (fun e' he' => hes e' (List.mem_append_left [e] he')) hinitial
  exact (quiet_step cfg hload hquiet (hes e (List.mem_append_right es (List.mem_singleton_self e)))).2

def queueing : Outbox.Event := .ipc outboxNow "outbox.enqueue" (Ipc.pairsToItems (enqueueParams gameId [] gameFrame).received.entries)

/-- One message is queued and taken up. -/
theorem client_outbox_silent_queued : Silent Cbor.load (.work outboxNow 0)
    (Outbox.step Cbor.load {} ([queueing].foldl (fun p e => (Outbox.step Cbor.load {} p e).1) .initial) (.work outboxNow 0)).2 := by
  have hmethod : Ipc.nameOf (cStr (ascii "outbox.enqueue")) = "outbox.enqueue" := by
    rw [cStr_of_nulFree (by decide +kernel), Ipc.nameOf_ascii]
  have hqueueing : FromClient Cbor.load queueing :=
    ⟨_, _, .send 1 (.dm gameId [] gameFrame), Ipc.decodeRequest_encodeRequest load_loads _, hmethod.symm, rfl⟩
  refine client_outbox_silent Cbor.load load_loads {} [queueing] (.work outboxNow 0) ?_
  intro e he
  obtain rfl | he := List.mem_cons.mp he
  · exact hqueueing
  · rw [List.mem_singleton.mp he]
    exact trivial

end ScatterWeb.Client.Silence
