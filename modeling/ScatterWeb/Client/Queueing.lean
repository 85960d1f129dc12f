import ScatterWeb.Client.Groups
import ScatterWeb.Ipc.Call
import ScatterWeb.Outbox.Enqueue

/-! # Messages on their way to the outbox

`enqueue_for_conv` gives the outbox the keys of a group's members as byte strings under `"key_b_kem_pubkey"`, where the outbox asks for
texts under `"recipient_key_b_kem_pubkey_hex"` and skips every other entry. `enqueue_dm` gives it no `"recipient_inboxes"`. So
for a group no message is queued, and the one for a contact has no inbox to which it could be delivered. The lifetime is as it
should be: `"ttl_seconds"` is not read, and the default is a week as well. -/
namespace ScatterWeb.Client
open Crypto Lib Lib.Cbor Mailbox Ipc.CborValue
set_option autoImplicit false

/-- What `enqueue_for_conv` and `enqueue_dm` hand over, for the members other than the sender or for a contact's key. -/
inductive Send
  | group (members : List GroupMember) (frameId frame : Bytes)
  | dm (messageId theirDmKeyBKem frame : Bytes)

def recipientParam (keyBKem : Bytes) : Ipc.CborMap := Ipc.CborMap.empty.set "key_b_kem_pubkey" (.bytes keyBKem) (keyed_bytes _)

def broadcastParams (members : List GroupMember) (frameId frame : Bytes) : Ipc.CborMap :=
  let params := Ipc.CborMap.empty.set "message_id" (.string frameId) (keyed_string _)
  let params := params.set "recipients" (.array (members.map (fun mem => .map (recipientParam mem.theirKeyBKem).entries))) (keyed_array (by
    intro x hx
    obtain ⟨mem, _, rfl⟩ := List.mem_map.mp hx
    exact (recipientParam mem.theirKeyBKem).keyed))
  let params := params.set "delivery_frame" (.bytes frame) (keyed_bytes _)
  let params := params.set "priority" (.string (ascii "normal")) (keyed_string _)
  params.set "ttl_seconds" (.uint 604800) (keyed_uint _)

def enqueueParams (messageId theirDmKeyBKem frame : Bytes) : Ipc.CborMap :=
  let params := Ipc.CborMap.empty.set "message_id" (.string messageId) (keyed_string _)
  let params := params.set "recipient_key_b_kem_pubkey" (.bytes theirDmKeyBKem) (keyed_bytes _)
  let params := params.set "delivery_frame" (.bytes frame) (keyed_bytes _)
  let params := params.set "priority" (.string (ascii "normal")) (keyed_string _)
  params.set "ttl_seconds" (.uint 604800) (keyed_uint _)

def Send.request (id : UInt64) : Send → Ipc.Request
  | .group members frameId frame => ⟨id, ascii "client", ascii "outbox.enqueue_broadcast", broadcastParams members frameId frame⟩
  | .dm messageId kem frame => ⟨id, ascii "client", ascii "outbox.enqueue", enqueueParams messageId kem frame⟩

/-- What a conversation's message is handed over as; `kem` is the key of the contact of a direct conversation. -/
def sendForConv (sha3 : Bytes → ByteArr 32) (g : GroupState) (convId frameId frame kem : Bytes) : Except GroupError Send :=
  (enqueueForConv sha3 g convId).map (fun broadcast =>
    match broadcast with
    | some b => .group b.members frameId frame
    | none => .dm frameId kem frame)

/-- The outbox decodes the request and works it off. -/
def Answers (load : Bytes → Option Item) (cfg : Outbox.Config) (env : Outbox.Env) (s : Outbox.OutboxStore) (req : Ipc.Request)
    (s' : Outbox.OutboxStore) : Prop :=
  ∃ r, Ipc.decodeRequest load (Ipc.encodeRequest req) = .ok r ∧
    match Outbox.handle load env s (Ipc.nameOf r.method) (Ipc.pairsToItems r.params.entries) with
    | .error _ => s' = s
    | .ok (.done s₁ _) => s' = s₁
    | .ok (.started s₁ task) => Outbox.Finishes cfg s₁ task s'

/-- The messages that are new. -/
def addedRows (s s' : Outbox.OutboxStore) : List Outbox.QueuedMessage :=
  s'.messages.rows.filter (fun m => (s.messages.find m.messageId).isNone)

def Lasts (m : Outbox.QueuedMessage) : Prop := m.expiresAtMs = m.enqueuedAtMs + 604800 * 1000

/-- One pending message for each member, addressed to its key; or one for the contact, with an inbox to deliver it to. -/
def Send.Queued (s s' : Outbox.OutboxStore) : Send → Prop
  | .group members _ _ =>
    ((addedRows s s').map Outbox.QueuedMessage.recipientKeyBKemPubkeyHex).Perm (members.map (fun mem => bytesToHex mem.theirKeyBKem)) ∧
      ∀ m ∈ addedRows s s', m.status = .pending ∧ Lasts m
  | .dm _ _ _ => ∃ m, addedRows s s' = [m] ∧ m.status = .pending ∧ s'.getRecipientInboxes m.messageId ≠ [] ∧ Lasts m

/-- There is nobody to send to. -/
def Send.Nobody : Send → Prop
  | .group members _ _ => members = []
  | .dm _ _ _ => False

section Queueing
variable {load : Bytes → Option Item} {cfg : Outbox.Config} {env : Outbox.Env} {s s' : Outbox.OutboxStore}

theorem answers_iff (hload : Loads load) {id : UInt64} {method : String} (hmethod : 0 ∉ ascii method) (params : Ipc.CborMap) :
    Answers load cfg env s ⟨id, ascii "client", ascii method, params⟩ s' ↔
      match Outbox.handle load env s method (Ipc.pairsToItems params.received.entries) with
      | .error _ => s' = s
      | .ok (.done s₁ _) => s' = s₁
      | .ok (.started s₁ task) => Outbox.Finishes cfg s₁ task s' := by
  unfold Answers
  rw [Ipc.decodeRequest_encodeRequest hload]
  simp only [Except.ok.injEq, exists_eq_left', cStr_of_nulFree hmethod, Ipc.nameOf_ascii]

/-! ## Groups -/

theorem keysNulFree_recipientParam (keyBKem : Bytes) : (recipientParam keyBKem).KeysNulFree :=
  Ipc.CborMap.keysNulFree_empty.set (by decide +kernel) _ _

theorem keysNulFree_broadcastParams (members : List GroupMember) (frameId frame : Bytes) : (broadcastParams members frameId frame).KeysNulFree := by
  unfold broadcastParams
  refine Ipc.CborMap.KeysNulFree.set (Ipc.CborMap.KeysNulFree.set (Ipc.CborMap.KeysNulFree.set (Ipc.CborMap.KeysNulFree.set
    (Ipc.CborMap.KeysNulFree.set Ipc.CborMap.keysNulFree_empty ?_ _ _) ?_ _ _) ?_ _ _) ?_ _ _) ?_ _ _
  all_goals decide +kernel

/-- The outbox reads no recipient from what it gets for a member. -/
theorem readRecipient_recipientParam (keyBKem : Bytes) :
    Outbox.readRecipient (Ipc.valueToItem (Ipc.CborValue.received (.map (recipientParam keyBKem).entries))) = none := by
  have hfind := Ipc.find_received_items (keysNulFree_recipientParam keyBKem) "recipient_key_b_kem_pubkey_hex"
  rw [show (recipientParam keyBKem).find "recipient_key_b_kem_pubkey_hex" = none by simp [recipientParam]] at hfind
  change Outbox.readRecipient (.map (Ipc.pairsToItems (recipientParam keyBKem).received.entries)) = none
  unfold Outbox.readRecipient
  dsimp only
  rw [hfind]
  rfl

theorem find_recipients (members : List GroupMember) (frameId frame : Bytes) :
    CborMap.find (Ipc.pairsToItems (broadcastParams members frameId frame).received.entries) "recipients" =
      some (.array (Ipc.valuesToItems (receivedAll (members.map (fun mem => .map (recipientParam mem.theirKeyBKem).entries))))) := by
  rw [Ipc.find_received_items (keysNulFree_broadcastParams members frameId frame)]
  simp [broadcastParams, received, Ipc.valueToItem]

/-- A broadcast leaves the outbox as it was. -/
theorem answers_group_iff (hload : Loads load) (id : UInt64) (members : List GroupMember) (frameId frame : Bytes) :
    Answers load cfg env s ((Send.group members frameId frame).request id) s' ↔ s' = s := by
  rw [Send.request, answers_iff hload (by decide +kernel)]
  rw [Outbox.handle_enqueueBroadcast]
  cases henqueue : Outbox.enqueueBroadcast load env (Ipc.pairsToItems (broadcastParams members frameId frame).received.entries) with
  | error e => exact Iff.rfl
  | ok task =>
    obtain ⟨frame', _, hrest⟩ := bind_eq_ok.mp henqueue
    obtain ⟨hdr, _, hrest⟩ := bind_eq_ok.mp hrest
    rw [find_recipients] at hrest
    cases hrest
    refine Outbox.finishes_unreadable_iff ?_ env
    intro v hv
    obtain ⟨x, hx, rfl⟩ := Ipc.mem_received_array hv
    obtain ⟨mem, _, rfl⟩ := List.mem_map.mp hx
    exact readRecipient_recipientParam mem.theirKeyBKem

theorem addedRows_self (s : Outbox.OutboxStore) : addedRows s s = [] := by
  unfold addedRows
  rw [List.filter_eq_nil_iff]
  intro m hm
  simp [Table.find_of_mem hm]

theorem queued_group_iff (members : List GroupMember) (frameId frame : Bytes) : (Send.group members frameId frame).Queued s s ↔ members = [] := by
  rw [Send.Queued, addedRows_self, List.map_nil, List.nil_perm, List.map_eq_nil_iff]
  exact and_iff_left (fun _ hm => (nomatch hm))

/-! ## Contacts -/

theorem keysNulFree_enqueueParams (messageId kem frame : Bytes) : (enqueueParams messageId kem frame).KeysNulFree := by
  unfold enqueueParams
  refine Ipc.CborMap.KeysNulFree.set (Ipc.CborMap.KeysNulFree.set (Ipc.CborMap.KeysNulFree.set (Ipc.CborMap.KeysNulFree.set
    (Ipc.CborMap.KeysNulFree.set Ipc.CborMap.keysNulFree_empty ?_ _ _) ?_ _ _) ?_ _ _) ?_ _ _) ?_ _ _
  all_goals decide +kernel

theorem recipientInboxes_enqueueParams (messageId kem frame id : Bytes) :
    Outbox.recipientInboxes id (Ipc.pairsToItems (enqueueParams messageId kem frame).received.entries) = [] := by
  have hfind := Ipc.find_received_items (keysNulFree_enqueueParams messageId kem frame) "recipient_inboxes"
  rw [show (enqueueParams messageId kem frame).find "recipient_inboxes" = none by simp [enqueueParams]] at hfind
  unfold Outbox.recipientInboxes
  rw [hfind]
  rfl

/-- The lifetime in seconds is not looked for, and the default is the same. -/
theorem ttlMs_enqueueParams (messageId kem frame : Bytes) :
    Outbox.ttlMs (Ipc.pairsToItems (enqueueParams messageId kem frame).received.entries) = 604800 * 1000 := by
  have hfind := Ipc.find_received_items (keysNulFree_enqueueParams messageId kem frame) "ttl_ms"
  rw [show (enqueueParams messageId kem frame).find "ttl_ms" = none by simp [enqueueParams]] at hfind
  unfold Outbox.ttlMs
  rw [hfind]
  rfl

/-- A message that `outbox.enqueue` takes is queued for a week, without inboxes. -/
theorem enqueue_enqueueParams {messageId kem frame : Bytes} {s₁ : Outbox.OutboxStore} {task : Outbox.Task}
    (h : Outbox.enqueue load env s (Ipc.pairsToItems (enqueueParams messageId kem frame).received.entries) = .ok (s₁, task)) :
    task.Single ∧ ∃ m, Lasts m ∧ s₁ = (s.insertMessage m).1 := by
  obtain ⟨frame', _, hrest⟩ := bind_eq_ok.mp h
  obtain ⟨hdr, _, hrest⟩ := bind_eq_ok.mp hrest
  rw [recipientInboxes_enqueueParams] at hrest
  split at hrest
  · cases hrest
  · rename_i s₂ hins
    cases hrest
    refine ⟨trivial, _, ?_, by rw [hins]; rfl⟩
    rw [Lasts, Outbox.queuedMessage, ttlMs_enqueueParams]

/-- What a request for a contact leaves: no new inbox, and what is new lasts for a week. -/
theorem answers_dm (hload : Loads load) {id : UInt64} {messageId kem frame : Bytes}
    (h : Answers load cfg env s ((Send.dm messageId kem frame).request id) s') :
    s'.recipients = s.recipients ∧ ∀ m ∈ addedRows s s', Lasts m := by
  rw [Send.request, answers_iff hload (by decide +kernel)] at h
  rw [Outbox.handle_enqueue] at h
  cases henqueue : Outbox.enqueue load env s (Ipc.pairsToItems (enqueueParams messageId kem frame).received.entries) with
  | error e =>
    rw [henqueue] at h
    obtain rfl : s' = s := h
    rw [addedRows_self]
    exact ⟨rfl, fun _ hm => (nomatch hm)⟩
  | ok r =>
    obtain ⟨s₁, task⟩ := r
    rw [henqueue] at h
    obtain ⟨hsingle, m, hlasts, rfl⟩ := enqueue_enqueueParams henqueue
    have hsame := Outbox.Finishes.sameRows h hsingle
    refine ⟨hsame.recipients, ?_⟩
    intro m' hm'
    obtain ⟨hmem, hnew⟩ := List.mem_filter.mp hm'
    obtain ⟨m₁, hm₁, henqueued, hexpires⟩ := hsame.rows _ m' (Table.find_of_mem hmem)
    unfold Outbox.OutboxStore.insertMessage at hm₁
    dsimp only at hm₁
    rw [Table.find_insertNew, Option.isNone_iff_eq_none.mp hnew] at hm₁
    split at hm₁
    · cases hm₁
      rw [Lasts, henqueued, hexpires]
      exact hlasts
    · cases hm₁

/-- A new message has no inbox when the inboxes are the old ones. -/
theorem not_queued_dm (hknown : Outbox.RecipientsKnown s) (hrecipients : s'.recipients = s.recipients) (messageId kem frame : Bytes) :
    ¬(Send.dm messageId kem frame).Queued s s' := by
  intro ⟨m, hadded, _, hinboxes, _⟩
  have hm : m ∈ addedRows s s' := by
    rw [hadded]
    exact List.mem_singleton_self m
  obtain ⟨_, hnew⟩ := List.mem_filter.mp hm
  obtain ⟨r, hr⟩ := List.exists_mem_of_ne_nil _ hinboxes
  obtain ⟨hr, hid⟩ := List.mem_filter.mp hr
  rw [hrecipients] at hr
  have hfound := hknown r hr
  rw [of_decide_eq_true hid] at hfound
  exact hfound (Option.isNone_iff_eq_none.mp hnew)

theorem exists_answers (hload : Loads load) (cfg : Outbox.Config) (env : Outbox.Env) (s : Outbox.OutboxStore) (id : UInt64) (send : Send) :
    ∃ s', Answers load cfg env s (send.request id) s' := by
  cases send with
  | group members frameId frame => exact ⟨s, (answers_group_iff hload id members frameId frame).mpr rfl⟩
  | dm messageId kem frame =>
    simp only [Send.request, answers_iff hload (show (0 : UInt8) ∉ ascii "outbox.enqueue" by decide +kernel)]
    rw [Outbox.handle_enqueue]
    cases henqueue : Outbox.enqueue load env s (Ipc.pairsToItems (enqueueParams messageId kem frame).received.entries) with
    | error e => exact ⟨s, rfl⟩
    | ok r => exact Outbox.exists_finishes cfg env r.1 (enqueue_enqueueParams henqueue).1

end Queueing

/-- In every state of an outbox: the message of a conversation is queued as it should be exactly if there is nobody to send it to. What is
queued expires after a week. -/
theorem send_queued_iff (load : Bytes → Option Item) (hload : Loads load) (sha3 : Bytes → ByteArr 32) (cfg : Outbox.Config) (env : Outbox.Env)
    (q : Outbox.Process) (hq : Outbox.Reached load cfg q) (g : GroupState) (convId frameId frame kem : Bytes) (id : UInt64) (send : Send)
    (hsend : sendForConv sha3 g convId frameId frame kem = .ok send) :
    (∃ s', Answers load cfg env q.store (send.request id) s') ∧
      ∀ s', Answers load cfg env q.store (send.request id) s' →
        (send.Queued q.store s' ↔ send.Nobody) ∧ ∀ m ∈ addedRows q.store s', Lasts m := by
  refine ⟨exists_answers hload cfg env q.store id send, ?_⟩
  intro s' hs'
  cases send with
  | group members frameId frame =>
    obtain rfl := (answers_group_iff hload id members frameId frame).mp hs'
    rw [addedRows_self]
    exact ⟨queued_group_iff members frameId frame, fun _ hm => (nomatch hm)⟩
  | dm messageId kem frame =>
    obtain ⟨hrecipients, hlasts⟩ := answers_dm hload hs'
    refine ⟨?_, hlasts⟩
    have hnot := not_queued_dm (Outbox.recipientsKnown_of_reached hq) hrecipients messageId kem frame
    exact ⟨hnot, False.elim⟩

/-- A new server, and the same once Bob has joined. -/
def newGame : GroupState := ([.createGroup (drawing 1) (ascii "game") (ascii "server")].foldl (nextRun (fit 32)) ⟨owner, []⟩).state

def gameWithBob : GroupState :=
  ([.createGroup (drawing 1) (ascii "game") (ascii "server"), .upsertMember bob].foldl (nextRun (fit 32)) ⟨owner, []⟩).state

def gameId : Bytes := bytesToHex (List.replicate 16 1)

/-- A frame as `enqueue_for_conv` makes it. -/
def gameFrame : Bytes := encodeDeliveryFrame
  { messageId := List.replicate 16 1, persistence := ascii "store", senderId := (fit 32 [7]).toList, certFingerprint := [], senderOutboxCert := [],
    envelopeType := ascii "sender_key", encryptedEnvelope := [1] }

def outboxNow : Outbox.Env := ⟨0, fun _ => none, false⟩

/-- The owner is the only member. -/
theorem send_queued_iff_newGame : ∃ s', Answers Cbor.load {} outboxNow Outbox.OutboxStore.empty ((Send.group [] gameId gameFrame).request 1) s' ∧
    (Send.group [] gameId gameFrame).Queued .empty s' := by
  have hsend : sendForConv (fit 32) newGame gameServer gameId gameFrame [] = .ok (.group [] gameId gameFrame) := rfl
  obtain ⟨⟨s', hs'⟩, hiff⟩ := send_queued_iff Cbor.load load_loads (fit 32) {} outboxNow .initial (Reachable.refl _ _) newGame gameServer gameId gameFrame []
    1 _ hsend
  exact ⟨s', hs', (hiff s' hs').1.mpr rfl⟩

/-- Nothing is queued for Bob. -/
theorem not_queued_gameWithBob : sendForConv (fit 32) gameWithBob gameServer gameId gameFrame [] = .ok (.group [bob] gameId gameFrame) ∧
    ¬∃ s', Answers Cbor.load {} outboxNow Outbox.OutboxStore.empty ((Send.group [bob] gameId gameFrame).request 1) s' ∧
      (Send.group [bob] gameId gameFrame).Queued .empty s' := by
  refine ⟨rfl, ?_⟩
  intro ⟨s', hs', hqueued⟩
  obtain rfl := (answers_group_iff load_loads 1 [bob] gameId gameFrame).mp hs'
  exact absurd ((queued_group_iff [bob] gameId gameFrame).mp hqueued) (List.cons_ne_nil _ _)

end ScatterWeb.Client
