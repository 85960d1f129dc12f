import ScatterWeb.Outbox.Enqueue

/-! # The rows of a broadcast

`enqueue_broadcast` makes the id of a row from the id of the frame and the first eight bytes of the recipient's key, and
`insert_message` skips a row whose id is taken. `accepted` are the recipients that get a row; the others are lost without an
error, although the answer leaves their ids out. -/
namespace ScatterWeb.Outbox
open Crypto Lib Lib.Cbor Client Mailbox
set_option autoImplicit false

/-- The task, worked off step by step with nothing else in between, leaves the store and is answered. -/
inductive Answers (cfg : Config) : OutboxStore → Task → OutboxStore → Except IpcError Reply → Prop
  | last {s s' : OutboxStore} {task : Task} {env : Env} {out : Output} {reply : Except IpcError Reply}
      (h : work cfg env s task = (s', none, out)) (hreply : out.reply = some reply) : Answers cfg s task s' reply
  | next {s s₁ s' : OutboxStore} {task task' : Task} {env : Env} {out : Output} {reply : Except IpcError Reply}
      (h : work cfg env s task = (s₁, some task', out)) (hrest : Answers cfg s₁ task' s' reply) : Answers cfg s task s' reply

/-- The key of a recipient and its inbox, as `readRecipient` returns them. -/
abbrev Recipient := Bytes × Option (Bytes × Bytes)

def inboxRows (messageId : Bytes) : Option (Bytes × Bytes) → List RecipientInbox
  | none => []
  | some (keyCPubkey, authCert) => [{ messageId, keyCPubkey, authCert }]

/-- The row is one for the recipient, with its key and its inbox. -/
structure RowFor (frame : Bytes) (s : OutboxStore) (r : Recipient) (m : QueuedMessage) : Prop where
  key : m.recipientKeyBKemPubkeyHex = r.1
  frame : m.deliveryFrame = frame
  pending : m.status = .pending
  inbox : s.getRecipientInboxes m.messageId = inboxRows m.messageId r.2

def enqueuedReply (ids : List Bytes) : Except IpcError Reply :=
  .ok [("enqueued_ids", .array (ids.map .text)), ("ok", .bool true)]

/-- One new row for each recipient, no other, and the answer lists their ids. -/
def FansOut (s : OutboxStore) (frame : Bytes) (rs : List Recipient) (s' : OutboxStore) (reply : Except IpcError Reply) : Prop :=
  ∃ ms, s'.messages.rows = s.messages.rows ++ ms ∧ List.Forall₂ (RowFor frame s') rs ms ∧
    reply = enqueuedReply (ms.map QueuedMessage.messageId)

/-- No row has the id, or an id that begins with it. -/
def Fresh (s : OutboxStore) (id : Bytes) : Prop := ∀ m ∈ s.messages.rows, ¬id <+: m.messageId

/-- The recipients whose ids are not among the known ones when it is their turn. -/
def accepted (id : Recipient → Bytes) : List Bytes → List Recipient → List Recipient
  | _, [] => []
  | known, r :: rs => if ∃ k ∈ known, k = id r then accepted id known rs else r :: accepted id (known ++ [id r]) rs

/-- The inbox is given with a key and a certificate, or not at all. -/
def Recipient.InboxKept (r : Recipient) : Prop := ∀ kc ∈ r.2, kc.1 ≠ [] ∧ kc.2 ≠ []

section Accepted
variable {id : Recipient → Bytes} {known : List Bytes} {rs : List Recipient}

theorem accepted_cons_of_mem {r : Recipient} (h : id r ∈ known) : accepted id known (r :: rs) = accepted id known rs := if_pos ⟨id r, h, rfl⟩

theorem accepted_cons_of_notMem {r : Recipient} (h : id r ∉ known) :
    accepted id known (r :: rs) = r :: accepted id (known ++ [id r]) rs := by
  refine if_neg ?_
  rintro ⟨k, hk, rfl⟩
  exact h hk

theorem accepted_sublist (id : Recipient → Bytes) (known : List Bytes) (rs : List Recipient) : (accepted id known rs).Sublist rs := by
  induction rs generalizing known with
  | nil => exact List.Sublist.refl _
  | cons r rs ih =>
    rw [accepted]
    split
    · exact (ih known).cons r
    · exact (ih _).cons_cons r

/-- No recipient is lost exactly when the ids are new and differ from each other. -/
theorem accepted_eq_self_iff : accepted id known rs = rs ↔ (rs.map id).Nodup ∧ ∀ r ∈ rs, id r ∉ known := by
  induction rs generalizing known with
  | nil => simp [accepted]
  | cons r rs ih =>
    by_cases hknown : id r ∈ known
    · rw [accepted_cons_of_mem hknown]
      constructor
      · intro h
        have hlen := (accepted_sublist id known rs).length_le
        rw [h, List.length_cons] at hlen
        omega
      · intro h
        exact absurd hknown (h.2 r List.mem_cons_self)
    · rw [accepted_cons_of_notMem hknown, List.cons.injEq, ih, List.map_cons, List.nodup_cons]
      constructor
      · rintro ⟨_, hnodup, hnew⟩
        have hnew' : ∀ r' ∈ rs, id r' ∉ known ∧ id r' ≠ id r := by
          intro r' hr'
          have h := hnew r' hr'
          rw [List.mem_append, List.mem_singleton, not_or] at h
          exact h
        refine ⟨⟨?_, hnodup⟩, ?_⟩
        · intro hmem
          obtain ⟨r', hr', heq⟩ := List.mem_map.mp hmem
          exact (hnew' r' hr').2 heq
        · intro r' hr'
          obtain rfl | hr' := List.mem_cons.mp hr'
          · exact hknown
          · exact (hnew' r' hr').1
      · rintro ⟨⟨hr, hnodup⟩, hnew⟩
        refine ⟨rfl, hnodup, ?_⟩
        intro r' hr' hmem
        obtain hold | heq := List.mem_append.mp hmem
        · exact hnew r' (List.mem_cons_of_mem _ hr') hold
        · exact hr (List.mem_singleton.mp heq ▸ List.mem_map_of_mem hr')

end Accepted

/-! ## One recipient -/

section Attempt
variable {cfg : Config} {s s' : OutboxStore} {reply : Except IpcError Reply} {b : Broadcast}

theorem Answers.work {task : Task} (h : Answers cfg s task s' reply) : ∃ env, (∃ out, work cfg env s task = (s', none, out) ∧ out.reply = some reply) ∨
    ∃ s₁ task' out, work cfg env s task = (s₁, some task', out) ∧ Answers cfg s₁ task' s' reply := by
  cases h with
  | last h hreply => exact ⟨_, Or.inl ⟨_, h, hreply⟩⟩
  | next h hrest => exact ⟨_, Or.inr ⟨_, _, _, h, hrest⟩⟩

/-- A task that goes on in one way only. -/
theorem Answers.next_of {task task' : Task} {s₁ : OutboxStore} (h : Answers cfg s task s' reply)
    (hwork : ∀ env, ∃ out, Outbox.work cfg env s task = (s₁, some task', out)) : Answers cfg s₁ task' s' reply := by
  obtain ⟨env, ⟨out, hlast, _⟩ | ⟨s₂, task₂, out, hnext, hrest⟩⟩ := h.work
  · obtain ⟨out', h'⟩ := hwork env
    rw [h'] at hlast
    cases hlast
  · obtain ⟨out', h'⟩ := hwork env
    rw [h'] at hnext
    cases hnext
    exact hrest

/-- The store after an attempt for the message: an attempt that failed is counted. -/
def AfterAttempt (id : Bytes) (s s₁ : OutboxStore) : Prop := s₁ = s ∨ ∃ count nextAt, s₁ = s.updateAttempt id count nextAt

def Broadcast.listed (b : Broadcast) (id : Bytes) : Broadcast := { b with enqueuedIds := b.enqueuedIds ++ [id] }

theorem Answers.replicate {id : Bytes} (h : Answers cfg s (.replicate id (some b)) s' reply) :
    Answers cfg s (.broadcast (b.listed id)) s' reply :=
  h.next_of (fun _ => ⟨_, rfl⟩)

theorem Answers.failed {msg : QueuedMessage} (h : Answers cfg s (.failed (.immediate (some b)) msg) s' reply) :
    ∃ s₁, AfterAttempt msg.messageId s s₁ ∧ Answers cfg s₁ (.broadcast (b.listed msg.messageId)) s' reply := by
  obtain ⟨env, ⟨out, hlast, _⟩ | ⟨s₁, task', out, hnext, hrest⟩⟩ := h.work
  · cases hlast
  · obtain ⟨nextAt, hcount⟩ := countAttempt_eq cfg env s (.immediate (some b)) msg
    rw [Outbox.work, hcount] at hnext
    cases hnext
    exact ⟨_, Or.inr ⟨_, _, rfl⟩, hrest.replicate⟩

/-- The loop over the inboxes, by induction on those still to be tried. -/
theorem Answers.inboxes {msg : QueuedMessage} {todo : List RecipientInbox}
    (h : Answers cfg s (.inboxes (.immediate (some b)) msg todo) s' reply) :
    ∃ s₁, AfterAttempt msg.messageId s s₁ ∧ Answers cfg s₁ (.broadcast (b.listed msg.messageId)) s' reply := by
  induction todo with
  | nil => exact (h.next_of (fun _ => ⟨_, rfl⟩)).failed
  | cons ri todo ih =>
    obtain ⟨env, ⟨out, hlast, _⟩ | ⟨s₁, task', out, hnext, hrest⟩⟩ := h.work
    · rw [Outbox.work] at hlast
      split at hlast
      · cases hlast
      · cases hlast
    · rw [Outbox.work] at hnext
      split at hnext
      · cases hnext
        exact ⟨s, Or.inl rfl, hrest.replicate⟩
      · cases hnext
        exact ih hrest

/-- `immediate_attempt` for a message that is queued, back into the loop over the recipients. -/
theorem Answers.read {id : Bytes} {msg : QueuedMessage} (hmsg : s.getMessage id = some msg) (hpending : msg.status = .pending)
    (h : Answers cfg s (.read id (some b)) s' reply) :
    ∃ s₁, AfterAttempt id s s₁ ∧ Answers cfg s₁ (.broadcast (b.listed id)) s' reply := by
  obtain rfl : msg.messageId = id := Table.key_of_find hmsg
  have hinboxes : Answers cfg s (.inboxes (.immediate (some b)) msg (s.getRecipientInboxes msg.messageId)) s' reply := by
    refine h.next_of (fun env => ⟨{}, ?_⟩)
    rw [Outbox.work, hmsg]
    exact if_pos hpending
  exact hinboxes.inboxes

end Attempt

/-! ## The loop over the recipients -/

/-- The inbox of a recipient as far as it is stored. -/
def keptInbox (messageId : Bytes) (inbox : Option (Bytes × Bytes)) : List RecipientInbox :=
  (inboxRows messageId inbox).filter (fun r => decide (r.keyCPubkey ≠ [] ∧ r.authCert ≠ []))

theorem keptInbox_eq_inboxRows_iff (messageId : Bytes) (r : Recipient) : keptInbox messageId r.2 = inboxRows messageId r.2 ↔ r.InboxKept := by
  unfold keptInbox inboxRows Recipient.InboxKept
  cases r.2 with
  | none => simp
  | some kc => simp

/-- `broadcastId`, for a recipient. -/
def rowId (baseId : Bytes) (r : Recipient) : Bytes := baseId ++ ascii "_" ++ r.1.take 8

/-- The row of an accepted recipient. -/
structure QueuedFor (baseId frame : Bytes) (s : OutboxStore) (r : Recipient) (m : QueuedMessage) : Prop where
  messageId : m.messageId = rowId baseId r
  key : m.recipientKeyBKemPubkeyHex = r.1
  frame : m.deliveryFrame = frame
  pending : m.status = .pending
  inbox : s.getRecipientInboxes m.messageId = keptInbox m.messageId r.2

section Rows
variable {cfg : Config} {s s₁ s' : OutboxStore} {b : Broadcast}

theorem getRecipientInboxes_eq_nil (hknown : RecipientsKnown s) {id : Bytes} (h : s.messages.find id = none) : s.getRecipientInboxes id = [] := by
  unfold OutboxStore.getRecipientInboxes
  rw [List.filter_eq_nil_iff]
  intro r hr hid
  rw [← of_decide_eq_true hid] at h
  exact hknown r hr h

/-- What `add_recipient_inbox` adds for a message without inboxes. -/
theorem getRecipientInboxes_addInbox {id : Bytes} (h : s.getRecipientInboxes id = []) (inbox : Option (Bytes × Bytes)) (id' : Bytes) :
    (addInbox s id inbox).getRecipientInboxes id' = if id = id' then keptInbox id inbox else s.getRecipientInboxes id' := by
  have hsame : s.getRecipientInboxes id' = if id = id' then [] else s.getRecipientInboxes id' := by
    by_cases hid : id = id'
    · rw [if_pos hid, ← hid, h]
    · rw [if_neg hid]
  unfold keptInbox inboxRows addInbox
  cases inbox with
  | none => exact hsame
  | some kc =>
    obtain ⟨key, cert⟩ := kc
    dsimp only
    unfold OutboxStore.addRecipientInbox
    by_cases hempty : key = [] ∨ cert = []
    · have hdrop : ¬(key ≠ [] ∧ cert ≠ []) := fun hne => hempty.elim hne.1 hne.2
      rw [if_pos hempty, List.filter_cons_of_neg (by simpa using hdrop), List.filter_nil]
      exact hsame
    · have hnew : s.recipients.find (RecipientInbox.key ⟨id, key, cert⟩) = none := by
        rw [Table.find_eq_none_iff]
        intro r hr hkey
        have hmem : r ∈ s.getRecipientInboxes id := List.mem_filter.mpr ⟨hr, decide_eq_true (congrArg Prod.fst hkey)⟩
        rw [h] at hmem
        cases hmem
      rw [if_neg hempty, List.filter_cons_of_pos (by simpa using not_or.mp hempty), List.filter_nil]
      unfold OutboxStore.getRecipientInboxes at hsame ⊢
      dsimp only
      rw [Table.rows_insertNew hnew, List.filter_append, hsame]
      by_cases hid : id = id'
      · simp [hid]
      · simp [hid]

/-- Counting an attempt leaves the row where it is, and its id, key, frame and status. -/
theorem AfterAttempt.rows {id : Bytes} {old : List QueuedMessage} {m : QueuedMessage} (h : AfterAttempt id s s₁)
    (hrows : s.messages.rows = old ++ [m]) (hold : ∀ m' ∈ old, m'.messageId ≠ id) :
    s₁.recipients = s.recipients ∧ ∃ m', s₁.messages.rows = old ++ [m'] ∧ m'.messageId = m.messageId ∧
      m'.recipientKeyBKemPubkeyHex = m.recipientKeyBKemPubkeyHex ∧ m'.deliveryFrame = m.deliveryFrame ∧ m'.status = m.status := by
  obtain rfl | ⟨count, nextAt, rfl⟩ := h
  · exact ⟨rfl, m, hrows, rfl, rfl, rfl, rfl⟩
  · refine ⟨rfl, if m.messageId = id then { m with attemptCount := count, nextAttemptAt := nextAt } else m, ?_, ?_⟩
    · have hsame : old.map (fun m' => if m'.messageId = id then { m' with attemptCount := count, nextAttemptAt := nextAt } else m') = old := by
        refine (List.map_congr_left ?_).trans (List.map_id old)
        intro m' hm'
        exact if_neg (hold m' hm')
      change s.messages.rows.map _ = _
      rw [hrows, List.map_append, hsame]
      rfl
    · split
      · exact ⟨rfl, rfl, rfl, rfl⟩
      · exact ⟨rfl, rfl, rfl, rfl⟩

/-! ### What one recipient comes to -/

variable {v : Item} {rest : List Item} {kb : Bytes} {inbox : Option (Bytes × Bytes)} {reply : Except IpcError Reply}

theorem Answers.skipped {m : QueuedMessage} (htodo : b.todo = v :: rest) (hread : readRecipient v = some (kb, inbox))
    (htaken : s.messages.find (broadcastId b kb) = some m) (h : Answers cfg s (.broadcast b) s' reply) :
    Answers cfg s (.broadcast { b with todo := rest }) s' reply := by
  refine h.next_of (fun env => ⟨{}, ?_⟩)
  rw [Outbox.work, broadcastNext_taken htodo hread htaken]

theorem Answers.queued (htodo : b.todo = v :: rest) (hread : readRecipient v = some (kb, inbox))
    (hnew : s.messages.find (broadcastId b kb) = none) (h : Answers cfg s (.broadcast b) s' reply) :
    Answers cfg (addInbox (s.insertMessage (broadcastMessage { b with todo := rest } kb)).1 (broadcastId b kb) inbox)
      (.read (broadcastId b kb) (some { b with todo := rest })) s' reply := by
  refine h.next_of (fun env => ⟨{}, ?_⟩)
  rw [Outbox.work, broadcastNext_new htodo hread hnew]

theorem getRecipientInboxes_queued (hknown : RecipientsKnown s) (hnew : s.messages.find (broadcastId b kb) = none)
    (inbox : Option (Bytes × Bytes)) (id : Bytes) :
    (addInbox (s.insertMessage (broadcastMessage b kb)).1 (broadcastId b kb) inbox).getRecipientInboxes id =
      if broadcastId b kb = id then keptInbox id inbox else s.getRecipientInboxes id := by
  have hnone : (s.insertMessage (broadcastMessage b kb)).1.getRecipientInboxes (broadcastId b kb) = [] := getRecipientInboxes_eq_nil hknown hnew
  rw [getRecipientInboxes_addInbox hnone]
  by_cases hid : broadcastId b kb = id
  · rw [if_pos hid, if_pos hid, hid]
  · rw [if_neg hid, if_neg hid]
    rfl

/-- A new row may have inboxes of its own. -/
theorem recipientsKnown_of_append {m : QueuedMessage} (hknown : RecipientsKnown s) (hrows : s₁.messages.rows = s.messages.rows ++ [m])
    (hothers : ∀ id, id ≠ m.messageId → s₁.getRecipientInboxes id = s.getRecipientInboxes id) : RecipientsKnown s₁ := by
  intro r hr hnone
  rw [Table.find_eq_none_iff, hrows] at hnone
  have hother : r.messageId ≠ m.messageId := fun hid => hnone m (List.mem_append_right _ List.mem_cons_self) hid.symm
  have hmem : r ∈ s₁.getRecipientInboxes r.messageId := List.mem_filter.mpr ⟨hr, decide_eq_true rfl⟩
  rw [hothers _ hother] at hmem
  refine hknown r (List.mem_filter.mp hmem).1 (Table.find_eq_none_iff.mpr ?_)
  intro m' hm'
  exact hnone m' (List.mem_append_left _ hm')

/-- A new row for the recipient, with its inbox, and the loop over the others goes on behind it. -/
theorem Answers.next_recipient (htodo : b.todo = v :: rest) (hread : readRecipient v = some (kb, inbox)) (hknown : RecipientsKnown s)
    (hnew : s.messages.find (broadcastId b kb) = none) (h : Answers cfg s (.broadcast b) s' reply) :
    ∃ s₁ m, Answers cfg s₁ (.broadcast (Broadcast.listed { b with todo := rest } (broadcastId b kb))) s' reply ∧ RecipientsKnown s₁ ∧
      s₁.messages.rows = s.messages.rows ++ [m] ∧ QueuedFor b.baseId b.frame s₁ (kb, inbox) m ∧
      ∀ id, id ≠ broadcastId b kb → s₁.getRecipientInboxes id = s.getRecipientInboxes id := by
  have hq := h.queued htodo hread hnew
  have hinbox := getRecipientInboxes_queued (b := { b with todo := rest }) hknown hnew inbox
  generalize hs0 : addInbox (s.insertMessage (broadcastMessage { b with todo := rest } kb)).1 (broadcastId b kb) inbox = s0 at hq
  have hrows : s0.messages.rows = s.messages.rows ++ [broadcastMessage { b with todo := rest } kb] := by
    rw [← hs0, addInbox_messages]
    exact (insertMessage_of_find_none hnew).1
  have hmsg : s0.getMessage (broadcastId b kb) = some (broadcastMessage { b with todo := rest } kb) := by
    have hmem : broadcastMessage { b with todo := rest } kb ∈ s0.messages.rows := by
      rw [hrows]
      exact List.mem_append_right _ List.mem_cons_self
    exact Table.find_of_mem hmem
  obtain ⟨s₁, hafter, hrest⟩ := hq.read hmsg rfl
  have hold : ∀ m' ∈ s.messages.rows, m'.messageId ≠ broadcastId b kb := Table.find_eq_none_iff.mp hnew
  obtain ⟨hrecipients, m, hrows₁, hid, hkey, hframe, hstatus⟩ := hafter.rows hrows hold
  have hinbox₁ : ∀ id, s₁.getRecipientInboxes id = if broadcastId b kb = id then keptInbox id inbox else s.getRecipientInboxes id := by
    intro id
    refine Eq.trans ?_ (hinbox id)
    unfold OutboxStore.getRecipientInboxes
    rw [hrecipients, ← hs0]
    rfl
  have hothers : ∀ id, id ≠ broadcastId b kb → s₁.getRecipientInboxes id = s.getRecipientInboxes id := by
    intro id hne
    rw [hinbox₁, if_neg (Ne.symm hne)]
  refine ⟨s₁, m, hrest, ?_, hrows₁, ⟨hid, hkey, hframe, hstatus, ?_⟩, hothers⟩
  · exact recipientsKnown_of_append hknown hrows₁ (fun id hne => hothers id (fun heq => hne (heq.trans hid.symm)))
  · rw [hinbox₁, if_pos (show broadcastId b kb = m.messageId from hid.symm)]

end Rows

/-! ### All recipients -/

section Loop
variable {cfg : Config} {s s' : OutboxStore} {b : Broadcast} {rs : List Recipient} {reply : Except IpcError Reply}

/-- What the loop leaves, by induction on the recipients. -/
theorem Answers.rows (hread : b.todo.map readRecipient = rs.map some) (hknown : RecipientsKnown s)
    (h : Answers cfg s (.broadcast b) s' reply) :
    ∃ ms, s'.messages.rows = s.messages.rows ++ ms ∧
      List.Forall₂ (QueuedFor b.baseId b.frame s') (accepted (rowId b.baseId) (s.messages.rows.map QueuedMessage.messageId) rs) ms ∧
      reply = enqueuedReply (b.enqueuedIds ++ ms.map QueuedMessage.messageId) ∧
      ∀ id ∈ s.messages.rows.map QueuedMessage.messageId, s'.getRecipientInboxes id = s.getRecipientInboxes id := by
  induction rs generalizing s b with
  | nil =>
    have htodo : b.todo = [] := List.map_eq_nil_iff.mp hread
    obtain ⟨env, ⟨out, hlast, hreply⟩ | ⟨s₁, task', out, hnext, _⟩⟩ := h.work
    · rw [Outbox.work, broadcastNext_nil htodo] at hlast
      cases hlast
      cases hreply
      refine ⟨[], (List.append_nil _).symm, List.Forall₂.nil, ?_, fun _ _ => rfl⟩
      rw [List.map_nil, List.append_nil]
      rfl
    · rw [Outbox.work, broadcastNext_nil htodo] at hnext
      cases hnext
  | cons r rs ih =>
    obtain ⟨v, rest, htodo, hv, hrest⟩ := List.map_eq_cons_iff.mp hread
    by_cases htaken : rowId b.baseId r ∈ s.messages.rows.map QueuedMessage.messageId
    · obtain ⟨m, hm, hid⟩ := List.mem_map.mp htaken
      have hfind : s.messages.find (broadcastId b r.1) = some m := (congrArg s.messages.find hid).symm.trans (Table.find_of_mem hm)
      rw [accepted_cons_of_mem htaken]
      exact ih (b := { b with todo := rest }) hrest hknown (h.skipped htodo hv hfind)
    · have hnew : s.messages.find (broadcastId b r.1) = none := by
        rw [Table.find_eq_none_iff]
        intro m hm hid
        exact htaken (List.mem_map.mpr ⟨m, hm, hid⟩)
      obtain ⟨s₁, m, hnext, hknown₁, hrows₁, hqueued, hothers⟩ := h.next_recipient htodo hv hknown hnew
      obtain ⟨ms, hrows, hall, hreply, hsame⟩ := ih (b := Broadcast.listed { b with todo := rest } (broadcastId b r.1)) hrest hknown₁ hnext
      have hids : s₁.messages.rows.map QueuedMessage.messageId = s.messages.rows.map QueuedMessage.messageId ++ [rowId b.baseId r] := by
        rw [hrows₁, List.map_append, List.map_singleton, hqueued.messageId]
      rw [hids] at hall hsame
      refine ⟨m :: ms, ?_, ?_, ?_, ?_⟩
      · rw [hrows, hrows₁, List.append_assoc, List.singleton_append]
      · rw [accepted_cons_of_notMem htaken]
        refine List.Forall₂.cons ⟨hqueued.messageId, hqueued.key, hqueued.frame, hqueued.pending, ?_⟩ hall
        rw [hqueued.messageId, hsame _ (List.mem_append_right _ List.mem_cons_self), ← hqueued.messageId]
        exact hqueued.inbox
      · rw [hreply, List.map_cons, hqueued.messageId]
        exact congrArg enqueuedReply (List.append_assoc _ _ _)
      · intro id hid
        rw [hsame id (List.mem_append_left _ hid)]
        refine hothers id ?_
        rintro rfl
        exact htaken hid

end Loop

/-! ### It comes to its end -/

/-- An attempt comes back into the loop over the recipients, whatever the network does. -/
theorem exists_answers_read (cfg : Config) (env : Env) {s : OutboxStore} {b : Broadcast} {id : Bytes}
    (h : ∀ s, ∃ s' reply, Answers cfg s (.broadcast (b.listed id)) s' reply) : ∃ s' reply, Answers cfg s (.read id (some b)) s' reply := by
  have hstep : ∀ {s s₁ task task' out}, work cfg env s task = (s₁, some task', out) → (∃ s' reply, Answers cfg s₁ task' s' reply) →
      ∃ s' reply, Answers cfg s task s' reply := by
    rintro s s₁ task task' out hwork ⟨s', reply, hrest⟩
    exact ⟨s', reply, .next hwork hrest⟩
  have hreplicate : ∀ s, ∃ s' reply, Answers cfg s (.replicate id (some b)) s' reply := by
    intro s
    exact hstep (show work cfg env s (.replicate id (some b)) = (s, some (.broadcast (b.listed id)), _) from rfl) (h s)
  exact read_of_replicate hstep hreplicate s (fun hwork => hstep hwork (h s))

/-- The request is answered, by induction on the items it lists. -/
theorem exists_answers (cfg : Config) (env : Env) (s : OutboxStore) (b : Broadcast) : ∃ s' reply, Answers cfg s (.broadcast b) s' reply := by
  obtain ⟨frame, baseId, nowMs, todo, ids⟩ := b
  induction todo generalizing s ids with
  | nil =>
    have hwork : work cfg env s (.broadcast ⟨frame, baseId, nowMs, [], ids⟩) = (s, none, { reply := some (enqueuedReply ids) }) := rfl
    exact ⟨s, _, .last hwork rfl⟩
  | cons v rest ih =>
    have hskip : work cfg env s (.broadcast ⟨frame, baseId, nowMs, v :: rest, ids⟩) = (s, some (.broadcast ⟨frame, baseId, nowMs, rest, ids⟩), {}) →
        ∃ s' reply, Answers cfg s (.broadcast ⟨frame, baseId, nowMs, v :: rest, ids⟩) s' reply := by
      intro hwork
      obtain ⟨s', reply, hrest⟩ := ih s ids
      exact ⟨s', reply, .next hwork hrest⟩
    cases hread : readRecipient v with
    | none =>
      refine hskip ?_
      rw [work, broadcastNext_unread rfl hread]
    | some r =>
      obtain ⟨kb, inbox⟩ := r
      cases hfind : s.messages.find (broadcastId ⟨frame, baseId, nowMs, v :: rest, ids⟩ kb) with
      | some m =>
        refine hskip ?_
        rw [work, broadcastNext_taken rfl hread hfind]
      | none =>
        have hwork : work cfg env s (.broadcast ⟨frame, baseId, nowMs, v :: rest, ids⟩) = _ := broadcastNext_new rfl hread hfind
        have hattempt : ∀ s₁, ∃ s' reply, Answers cfg s₁ (.read (broadcastId ⟨frame, baseId, nowMs, v :: rest, ids⟩ kb)
            (some ⟨frame, baseId, nowMs, rest, ids⟩)) s' reply :=
          fun s₁ => exists_answers_read cfg env (fun s => ih s _)
        obtain ⟨s', reply, hrest⟩ := hattempt _
        exact ⟨s', reply, .next hwork hrest⟩

/-! ## When every recipient has its row -/

section FansOut
variable {load : Bytes → Option Item} {cfg : Config} {s s' : OutboxStore} {b : Broadcast} {rs : List Recipient}
  {reply : Except IpcError Reply}

theorem nodup_map_rowId_iff (baseId : Bytes) (rs : List Recipient) :
    (rs.map (rowId baseId)).Nodup ↔ (rs.map (fun r => r.1.take 8)).Nodup := by
  have hmap : rs.map (rowId baseId) = (rs.map (fun r => r.1.take 8)).map (fun key => baseId ++ ascii "_" ++ key) := by
    rw [List.map_map]
    rfl
  rw [hmap, List.nodup_map_iff (List.append_right_injective _)]

theorem rowId_notMem_of_fresh {baseId : Bytes} (h : Fresh s baseId) (r : Recipient) : rowId baseId r ∉ s.messages.rows.map QueuedMessage.messageId := by
  intro hmem
  obtain ⟨m, hm, hid⟩ := List.mem_map.mp hmem
  refine h m hm ?_
  rw [hid]
  exact ⟨ascii "_" ++ r.1.take 8, (List.append_assoc _ _ _).symm⟩

theorem handle_enqueueBroadcast_ok (env : Env) {p : CborMap} {frame : Bytes} {hdr : DeliveryFrameHeader} {items : List Item}
    (hframe : reqBytes p "delivery_frame" = .ok frame) (hparse : parseDeliveryFrame load frame = some hdr)
    (hitems : p.find "recipients" = some (.array items)) :
    handle load env s "outbox.enqueue_broadcast" p =
      .ok (.started s (.broadcast { frame, baseId := hdr.messageId, nowMs := env.nowMs, todo := items })) := by
  have hparse' : parseOrThrow load frame = .ok hdr := by
    unfold parseOrThrow
    rw [hparse]
  rw [handle_enqueueBroadcast]
  unfold enqueueBroadcast
  rw [hframe]
  simp only [bind, Except.bind, hparse', hitems]
  rfl

/-- One run of the loop: every recipient has its row if and only if no two of the ids are the same and every inbox is kept. -/
theorem Answers.fansOut_iff (hread : b.todo.map readRecipient = rs.map some) (hids : b.enqueuedIds = []) (hknown : RecipientsKnown s)
    (hfresh : Fresh s b.baseId) (h : Answers cfg s (.broadcast b) s' reply) :
    FansOut s b.frame rs s' reply ↔ (rs.map (fun r => r.1.take 8)).Nodup ∧ ∀ r ∈ rs, r.InboxKept := by
  obtain ⟨ms, hrows, hall, hreply, _⟩ := h.rows hread hknown
  have hself : accepted (rowId b.baseId) (s.messages.rows.map QueuedMessage.messageId) rs = rs ↔ (rs.map (fun r => r.1.take 8)).Nodup := by
    rw [accepted_eq_self_iff, nodup_map_rowId_iff]
    exact and_iff_left (fun r _ => rowId_notMem_of_fresh hfresh r)
  constructor
  · rintro ⟨ms', hrows', hall', _⟩
    obtain rfl : ms = ms' := List.append_cancel_left (hrows.symm.trans hrows')
    have heq : accepted (rowId b.baseId) (s.messages.rows.map QueuedMessage.messageId) rs = rs :=
      (accepted_sublist _ _ rs).eq_of_length (hall.length_eq.trans hall'.length_eq.symm)
    refine ⟨hself.mp heq, ?_⟩
    rw [heq] at hall
    intro r hr
    obtain ⟨i, hi, rfl⟩ := List.getElem_of_mem hr
    have hlen : i < ms.length := hall.length_eq ▸ hi
    have hkept := (hall.get hi hlen).inbox
    have hgiven := (hall'.get hi hlen).inbox
    exact (keptInbox_eq_inboxRows_iff _ _).mp (hkept.symm.trans hgiven)
  · rintro ⟨hnodup, hkept⟩
    rw [hself.mpr hnodup] at hall
    rw [hids, List.nil_append] at hreply
    refine ⟨ms, hrows, ?_, hreply⟩
    refine List.forall₂_iff_get.mpr ⟨hall.length_eq, ?_⟩
    intro i hi hlen
    have hrow := hall.get hi hlen
    exact ⟨hrow.key, hrow.frame, hrow.pending, hrow.inbox.trans ((keptInbox_eq_inboxRows_iff _ _).mpr (hkept _ (List.get_mem _ _)))⟩

/-- Every recipient of a broadcast gets one row with its key and its inbox, and the answer lists the ids of these rows, if and only if
no two keys begin with the same eight bytes and no inbox is given with an empty key or certificate. -/
theorem enqueueBroadcast_fansOut_iff {q : Process} (hq : Reached load cfg q) (env : Env) {p : CborMap} {frame : Bytes}
    {hdr : DeliveryFrameHeader} {items : List Item} (hframe : reqBytes p "delivery_frame" = .ok frame)
    (hparse : parseDeliveryFrame load frame = some hdr) (hitems : p.find "recipients" = some (.array items))
    (hread : items.map readRecipient = rs.map some) (hfresh : Fresh q.store hdr.messageId) :
    ∃ task, handle load env q.store "outbox.enqueue_broadcast" p = .ok (.started q.store task) ∧
      (∃ s' reply, Answers cfg q.store task s' reply) ∧
      ∀ s' reply, Answers cfg q.store task s' reply →
        (FansOut q.store frame rs s' reply ↔ (rs.map (fun r => r.1.take 8)).Nodup ∧ ∀ r ∈ rs, r.InboxKept) := by
  have hhandle := handle_enqueueBroadcast_ok (s := q.store) env hframe hparse hitems
  refine ⟨_, hhandle, exists_answers cfg env q.store _, ?_⟩
  intro s' reply hanswers
  exact hanswers.fansOut_iff hread rfl (recipientsKnown_of_reached hq) hfresh

end FansOut

/-! ## Two keys that begin alike -/

/-- A recipient with the inbox key `[9]`. -/
def recipientItem (kb : Bytes) : Item :=
  .map [(.text (ascii "recipient_key_b_kem_pubkey_hex"), .text kb), (.text (ascii "key_c_pubkey"), .bytes [9]), (.text (ascii "auth_cert"), .bytes [9])]

theorem readRecipient_recipientItem (kb : Bytes) : readRecipient (recipientItem kb) = some (kb, some ([9], [9])) := by
  simp [readRecipient, CborMap.find, lastField, lastWith, recipientItem]

def broadcastParams (kbs : List Bytes) : CborMap :=
  [(.text (ascii "delivery_frame"), .bytes queuedFrame), (.text (ascii "recipients"), .array (kbs.map recipientItem))]

theorem reqBytes_broadcastParams (kbs : List Bytes) : reqBytes (broadcastParams kbs) "delivery_frame" = .ok queuedFrame := by
  simp [reqBytes, CborMap.find, lastField, lastWith, broadcastParams]

theorem find_broadcastParams (kbs : List Bytes) : (broadcastParams kbs).find "recipients" = some (.array (kbs.map recipientItem)) := by
  simp [CborMap.find, lastField, lastWith, broadcastParams]

theorem map_readRecipient (kbs : List Bytes) :
    (kbs.map recipientItem).map readRecipient = (kbs.map (fun kb => (kb, some ([9], [9])))).map some := by
  rw [List.map_map, List.map_map]
  exact List.map_congr_left (fun kb _ => readRecipient_recipientItem kb)

theorem reached_initial (load : Bytes → Option Item) (cfg : Config) : Reached load cfg .initial := Reachable.refl _ _

theorem fresh_empty (id : Bytes) : Fresh .empty id := by
  intro m hm
  cases hm

def keysAlike : List Bytes := [ascii "aabbccdd11", ascii "aabbccdd22"]

def keysApart : List Bytes := [ascii "11aabbccdd", ascii "22aabbccdd"]

/-- The second of two recipients whose keys begin alike gets no row. -/
theorem not_fansOut_keysAlike : ¬ ∀ (q : Process) (p : CborMap) (frame : Bytes) (hdr : DeliveryFrameHeader) (items : List Item)
    (rs : List Recipient) (task : Task) (s' : OutboxStore) (reply : Except IpcError Reply), Reached load {} q →
    reqBytes p "delivery_frame" = .ok frame → parseDeliveryFrame load frame = some hdr → p.find "recipients" = some (.array items) →
    items.map readRecipient = rs.map some → Fresh q.store hdr.messageId → (rs.map Prod.fst).Nodup →
    handle load clockZero q.store "outbox.enqueue_broadcast" p = .ok (.started q.store task) → Answers {} q.store task s' reply →
      FansOut q.store frame rs s' reply := by
  intro h
  have hhandle := handle_enqueueBroadcast_ok (s := .empty) clockZero (reqBytes_broadcastParams keysAlike) parseDeliveryFrame_queuedFrame
    (find_broadcastParams keysAlike)
  obtain ⟨s', reply, hanswers⟩ := exists_answers {} clockZero .empty
    { frame := queuedFrame, baseId := queuedId, nowMs := 0, todo := keysAlike.map recipientItem }
  have hread := map_readRecipient keysAlike
  have hfans := h .initial (broadcastParams keysAlike) queuedFrame _ _ _ _ s' reply (reached_initial load {}) (reqBytes_broadcastParams keysAlike)
    parseDeliveryFrame_queuedFrame (find_broadcastParams keysAlike) hread (fresh_empty _) (by decide) hhandle hanswers
  have hnodup := (hanswers.fansOut_iff hread rfl (recipientsKnown_of_reached (reached_initial load {}))
    (fresh_empty _)).mp hfans
  exact absurd hnodup.1 (by decide)

theorem enqueueBroadcast_fansOut_iff_keysApart : ∃ task, handle load clockZero .empty "outbox.enqueue_broadcast" (broadcastParams keysApart) =
      .ok (.started .empty task) ∧ ∀ s' reply, Answers {} .empty task s' reply →
        FansOut .empty queuedFrame (keysApart.map (fun kb => (kb, some ([9], [9])))) s' reply := by
  obtain ⟨task, hhandle, _, hiff⟩ := enqueueBroadcast_fansOut_iff (q := .initial) (reached_initial load {}) clockZero
    (reqBytes_broadcastParams keysApart) parseDeliveryFrame_queuedFrame (find_broadcastParams keysApart) (map_readRecipient keysApart)
    (fresh_empty _)
  refine ⟨task, hhandle, ?_⟩
  intro s' reply hanswers
  refine (hiff s' reply hanswers).mpr ⟨by decide, ?_⟩
  intro r hr kc hkc
  obtain ⟨kb, _, rfl⟩ := List.mem_map.mp hr
  cases hkc
  exact ⟨List.cons_ne_nil _ _, List.cons_ne_nil _ _⟩

end ScatterWeb.Outbox
