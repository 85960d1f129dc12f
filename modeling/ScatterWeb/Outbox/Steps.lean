import ScatterWeb.Outbox.Acks

/-! # What a step of the outbox does to the queue

`statusWrites` lists the statuses that an event writes. `Follows` says that a store comes from another one with these writes
and otherwise only grows: no row is lost, a new one is pending, and recipients are added. `Task.held` is what a task has read
and may still try to deliver. `broadcastNext_cases` lists what one turn of the loop over the recipients can do. -/
namespace ScatterWeb.Outbox
open Crypto Lib Lib.Cbor Client Mailbox
set_option autoImplicit false

structure Follows (writes : List (Bytes × MsgStatus)) (s s' : OutboxStore) : Prop where
  status : ∀ id m, s.messages.find id = some m →
    ∃ m', s'.messages.find id = some m' ∧ (m'.status = m.status ∨ (id, m'.status) ∈ writes)
  fresh : ∀ id m', s.messages.find id = none → s'.messages.find id = some m' → m'.status = .pending
  recipients : ∀ id key, s.isValidRecipientInbox id key = true → s'.isValidRecipientInbox id key = true

namespace Follows
variable {writes writes' : List (Bytes × MsgStatus)} {s s' s'' : OutboxStore}

theorem of_messages (hm : s'.messages = s.messages) (hr : s'.recipients = s.recipients) : Follows writes s s' where
  status := by
    intro id m h
    rw [hm]
    exact ⟨m, h, Or.inl rfl⟩
  fresh := by
    intro id m' hnone hsome
    rw [hm, hnone] at hsome
    cases hsome
  recipients := by
    intro id key h
    unfold OutboxStore.isValidRecipientInbox
    rw [hr]
    exact h

theorem refl : Follows writes s s := of_messages rfl rfl

theorem mono (h : Follows [] s s') : Follows writes s s' where
  status := by
    intro id m hm
    obtain ⟨m', hm', hsame | hwritten⟩ := h.status id m hm
    · exact ⟨m', hm', Or.inl hsame⟩
    · cases hwritten
  fresh := h.fresh
  recipients := h.recipients

/-- Writes that change rows in place, without touching the recipients. -/
theorem of_map {f : Bytes → QueuedMessage → QueuedMessage} (hr : s'.recipients = s.recipients)
    (hfind : ∀ id, s'.messages.find id = (s.messages.find id).map (f id))
    (hstatus : ∀ id m, s.messages.find id = some m → (f id m).status = m.status ∨ (id, (f id m).status) ∈ writes) :
    Follows writes s s' where
  status := by
    intro id m hm
    rw [hfind, hm]
    exact ⟨_, rfl, hstatus id m hm⟩
  fresh := by
    intro id m' hnone hsome
    rw [hfind, hnone] at hsome
    cases hsome
  recipients := by
    intro id key h
    unfold OutboxStore.isValidRecipientInbox
    rw [hr]
    exact h

theorem insertMessage (s : OutboxStore) {msg : QueuedMessage} (h : msg.status = .pending) :
    Follows [] s (s.insertMessage msg).1 where
  status := fun _ m hm => ⟨m, Table.find_insertNew_of_some hm, Or.inl rfl⟩
  fresh := by
    intro id m' hnone hsome
    unfold OutboxStore.insertMessage at hsome
    dsimp only at hsome
    rw [Table.find_insertNew, hnone] at hsome
    split at hsome
    · cases hsome
      exact h
    · cases hsome
  recipients := fun _ _ h => h

theorem addRecipientInbox (h : Follows [] s s') (r : RecipientInbox) : Follows [] s (s'.addRecipientInbox r) where
  status := by
    rw [s'.addRecipientInbox_messages]
    exact h.status
  fresh := by
    rw [s'.addRecipientInbox_messages]
    exact h.fresh
  recipients := fun id key hvalid => s'.isValidRecipientInbox_addRecipientInbox (h.recipients id key hvalid)

end Follows

/-! ## One turn of the loop over the recipients -/

section Turn
variable {s : OutboxStore} {b : Broadcast} {v : Item} {rest : List Item} {kb : Bytes} {inbox : Option (Bytes × Bytes)}

theorem insertMessage_of_find_none {msg : QueuedMessage} (h : s.messages.find msg.messageId = none) :
    (s.insertMessage msg).1.messages.rows = s.messages.rows ++ [msg] ∧ (s.insertMessage msg).2 = true :=
  ⟨Table.rows_insertNew h, Table.insertNew_of_find_none h⟩

theorem insertMessage_of_find_some {msg m : QueuedMessage} (h : s.messages.find msg.messageId = some m) : s.insertMessage msg = (s, false) := by
  unfold OutboxStore.insertMessage
  rw [Table.insertNew_of_find_some h]

theorem addInbox_messages (s : OutboxStore) (id : Bytes) (inbox : Option (Bytes × Bytes)) : (addInbox s id inbox).messages = s.messages := by
  cases inbox with
  | none => rfl
  | some kc => exact s.addRecipientInbox_messages _

theorem broadcastNext_nil (htodo : b.todo = []) : broadcastNext s b =
    (s, none, { reply := some (.ok [("enqueued_ids", .array (b.enqueuedIds.map .text)), ("ok", .bool true)]) }) := by
  rw [broadcastNext, htodo]

theorem broadcastNext_unread (htodo : b.todo = v :: rest) (hread : readRecipient v = none) :
    broadcastNext s b = (s, some (.broadcast { b with todo := rest }), {}) := by
  rw [broadcastNext, htodo]
  dsimp only
  rw [hread]

theorem broadcastNext_taken {m : QueuedMessage} (htodo : b.todo = v :: rest) (hread : readRecipient v = some (kb, inbox))
    (htaken : s.messages.find (broadcastId b kb) = some m) :
    broadcastNext s b = (s, some (.broadcast { b with todo := rest }), {}) := by
  have hins : s.insertMessage (broadcastMessage { b with todo := rest } kb) = (s, false) := insertMessage_of_find_some htaken
  rw [broadcastNext, htodo]
  dsimp only
  rw [hread]
  dsimp only
  rw [hins]

theorem broadcastNext_new (htodo : b.todo = v :: rest) (hread : readRecipient v = some (kb, inbox))
    (hnew : s.messages.find (broadcastId b kb) = none) : broadcastNext s b =
      (addInbox (s.insertMessage (broadcastMessage { b with todo := rest } kb)).1 (broadcastId b kb) inbox,
        some (.read (broadcastId b kb) (some { b with todo := rest })), {}) := by
  have hins : s.insertMessage (broadcastMessage { b with todo := rest } kb) =
      ((s.insertMessage (broadcastMessage { b with todo := rest } kb)).1, true) :=
    Prod.ext rfl (insertMessage_of_find_none hnew).2
  rw [broadcastNext, htodo]
  dsimp only
  rw [hread]
  dsimp only
  rw [hins]
  rfl

/-- The loop ends, passes an item over without a write, or queues a row that is new. -/
theorem broadcastNext_cases (s : OutboxStore) (b : Broadcast) :
    broadcastNext s b = (s, none, { reply := some (.ok [("enqueued_ids", .array (b.enqueuedIds.map .text)), ("ok", .bool true)]) }) ∨
      (∃ rest, broadcastNext s b = (s, some (.broadcast { b with todo := rest }), {})) ∨
      ∃ rest kb inbox, s.messages.find (broadcastId b kb) = none ∧ broadcastNext s b =
        (addInbox (s.insertMessage (broadcastMessage { b with todo := rest } kb)).1 (broadcastId b kb) inbox,
          some (.read (broadcastId b kb) (some { b with todo := rest })), {}) := by
  cases htodo : b.todo with
  | nil => exact Or.inl (broadcastNext_nil htodo)
  | cons v rest =>
    refine Or.inr ?_
    cases hread : readRecipient v with
    | none => exact Or.inl ⟨rest, broadcastNext_unread htodo hread⟩
    | some r =>
      obtain ⟨kb, inbox⟩ := r
      cases hfind : s.messages.find (broadcastId b kb) with
      | some m => exact Or.inl ⟨rest, broadcastNext_taken htodo hread hfind⟩
      | none => exact Or.inr ⟨rest, kb, inbox, hfind, broadcastNext_new htodo hread hfind⟩

end Turn

/-! ## Tasks -/

def Origin.held : Origin → List Bytes
  | .loop _ rest => rest.map QueuedMessage.messageId
  | .immediate _ => []

def Task.held : Task → List Bytes
  | .loop _ queue => queue.map QueuedMessage.messageId
  | .inboxes origin msg _ => msg.messageId :: origin.held
  | .failed origin _ => origin.held
  | _ => []

section Work
variable (cfg : Config) (env : Env) (s : OutboxStore)

def PendingRow (s : OutboxStore) (id : Bytes) : Prop := ∃ m, s.messages.find id = some m ∧ m.status = .pending

theorem follows_updateAttempt (id : Bytes) (count nextAt : ℤ) : Follows [] s (s.updateAttempt id count nextAt) := by
  refine Follows.of_map (f := fun i m => if id = i then { m with attemptCount := count, nextAttemptAt := nextAt } else m) rfl ?_ ?_
  · intro i
    rw [s.find_updateAttempt]
    split
    · rfl
    · rw [Option.map_id']
  · intro i m _
    split
    · exact Or.inl rfl
    · exact Or.inl rfl

theorem held_finish {id : Bytes} {andThen : Option Broadcast} {task : Task} (h : (finish id andThen).1 = some task) :
    task.held = [] := by
  cases andThen with
  | none => cases h
  | some b =>
    cases h
    rfl

theorem attempts_finish (id : Bytes) (andThen : Option Broadcast) : (finish id andThen).2.attempts = [] := by
  cases andThen with
  | none => rfl
  | some b => rfl

theorem held_afterSuccess (msg : QueuedMessage) (origin : Origin) : (afterSuccess msg origin).held = origin.held := by
  cases origin with
  | loop kind rest => rfl
  | immediate andThen => rfl

theorem held_afterInboxes (msg : QueuedMessage) (origin : Origin) : (afterInboxes msg origin).held = origin.held := by
  cases origin with
  | loop kind rest =>
    cases kind with
    | burst => rfl
    | retry => rfl
  | immediate andThen => rfl

theorem attempts_attemptDelivery (msg : QueuedMessage) (ri : RecipientInbox) :
    (attemptDelivery env msg ri).2.attempts = [msg.messageId] := by
  unfold attemptDelivery
  split
  · rfl
  · rfl

theorem countAttempt_eq (origin : Origin) (msg : QueuedMessage) :
    ∃ nextAt, countAttempt cfg env s origin msg = s.updateAttempt msg.messageId (msg.attemptCount + 1) nextAt := by
  unfold countAttempt
  dsimp only
  split
  · exact ⟨0, rfl⟩
  · exact ⟨_, rfl⟩

/-- What a task leaves in the store: a failed round is counted and a broadcast queues a message; everything else only reads. -/
theorem store_work_cases (task : Task) : (work cfg env s task).1 = s ∨
    (∃ origin msg nextAt, task = .failed origin msg ∧ (work cfg env s task).1 = s.updateAttempt msg.messageId (msg.attemptCount + 1) nextAt) ∨
    (∃ b, task = .broadcast b ∧ (work cfg env s task).1 = (broadcastNext s b).1) := by
  cases task with
  | read id andThen =>
    rw [work]
    split
    · exact Or.inl rfl
    · split
      · exact Or.inl rfl
      · exact Or.inl rfl
  | loop kind queue =>
    cases queue with
    | nil => exact Or.inl rfl
    | cons msg rest => exact Or.inl rfl
  | inboxes origin msg todo =>
    cases todo with
    | nil => exact Or.inl rfl
    | cons ri todo =>
      rw [work]
      split
      · exact Or.inl rfl
      · exact Or.inl rfl
  | failed origin msg =>
    obtain ⟨nextAt, hcount⟩ := countAttempt_eq cfg env s origin msg
    exact Or.inr (Or.inl ⟨origin, msg, nextAt, rfl, hcount⟩)
  | replicate id andThen => exact Or.inl rfl
  | broadcast b => exact Or.inr (Or.inr ⟨b, rfl, rfl⟩)

/-- What a task does: it writes no status, takes up only pending messages, and tries only what it holds. -/
structure Works (s : OutboxStore) (task : Task) (result : OutboxStore × Option Task × Output) : Prop where
  follows : Follows [] s result.1
  taken : ∀ task', result.2.1 = some task' → ∀ id ∈ task'.held, id ∈ task.held ∨ PendingRow s id
  tried : ∀ id ∈ result.2.2.attempts, id ∈ task.held

theorem works_finish (task : Task) (id : Bytes) (andThen : Option Broadcast) : Works s task (s, finish id andThen) where
  follows := Follows.refl
  taken := by
    intro task' h id' hid'
    rw [held_finish h] at hid'
    cases hid'
  tried := by
    intro id' hid'
    rw [show (s, finish id andThen).2.2.attempts = (finish id andThen).2.attempts from rfl, attempts_finish] at hid'
    cases hid'

/-- A task that tries nothing and holds no more than before. -/
theorem works_of_held {task task' : Task} {s' : OutboxStore} {out : Output} (hfollows : Follows [] s s')
    (hheld : ∀ id ∈ task'.held, id ∈ task.held) (hout : out.attempts = []) : Works s task (s', some task', out) where
  follows := hfollows
  taken := by
    intro task'' h id hid
    cases h
    exact Or.inl (hheld id hid)
  tried := by
    intro id hid
    rw [show (s', some task', out).2.2.attempts = out.attempts from rfl, hout] at hid
    cases hid

theorem works_broadcastNext (b : Broadcast) : Works s (.broadcast b) (broadcastNext s b) := by
  obtain hnext | ⟨rest, hnext⟩ | ⟨rest, kb, inbox, _, hnext⟩ := broadcastNext_cases s b
  · rw [hnext]
    refine ⟨Follows.refl, ?_, ?_⟩
    · intro task' h
      cases h
    · intro id h
      cases h
  · rw [hnext]
    exact works_of_held s Follows.refl (fun _ h => absurd h List.not_mem_nil) rfl
  · rw [hnext]
    refine works_of_held s ?_ (fun _ h => absurd h List.not_mem_nil) rfl
    cases inbox with
    | none => exact Follows.insertMessage s rfl
    | some kc => exact (Follows.insertMessage s rfl).addRecipientInbox _

theorem works_inboxes (origin : Origin) (msg : QueuedMessage) (ri : RecipientInbox) (todo : List RecipientInbox) :
    Works s (.inboxes origin msg (ri :: todo)) (work cfg env s (.inboxes origin msg (ri :: todo))) := by
  have hattempts := attempts_attemptDelivery env msg ri
  rw [work]
  cases hattempt : attemptDelivery env msg ri with
  | mk ok out =>
    rw [hattempt] at hattempts
    have htried : ∀ id ∈ out.attempts, id ∈ (Task.inboxes origin msg (ri :: todo)).held := by
      intro id hid
      rw [hattempts, List.mem_singleton] at hid
      rw [hid]
      exact List.mem_cons_self
    cases ok with
    | true =>
      refine ⟨Follows.refl, ?_, htried⟩
      intro task' h id hid
      cases h
      rw [held_afterSuccess] at hid
      exact Or.inl (List.mem_cons_of_mem _ hid)
    | false =>
      refine ⟨Follows.refl, ?_, htried⟩
      intro task' h id hid
      cases h
      exact Or.inl hid

theorem works_work (task : Task) : Works s task (work cfg env s task) := by
  cases task with
  | read id andThen =>
    rw [work]
    cases hmsg : s.getMessage id with
    | none => exact works_finish s _ id andThen
    | some msg =>
      dsimp only
      split
      · rename_i hpending
        refine ⟨Follows.refl, ?_, fun _ h => (nomatch h)⟩
        intro task' h id' hid'
        cases h
        rw [Task.held, Origin.held, List.mem_singleton] at hid'
        subst hid'
        exact Or.inr ⟨msg, Table.find_of_mem (Table.mem_of_find hmsg), hpending⟩
      · exact works_finish s _ id andThen
  | loop kind queue =>
    cases queue with
    | nil => exact ⟨Follows.refl, fun _ h => (nomatch h), fun _ h => (nomatch h)⟩
    | cons msg rest => exact works_of_held s Follows.refl (fun _ h => h) rfl
  | inboxes origin msg todo =>
    cases todo with
    | nil =>
      refine works_of_held s Follows.refl ?_ rfl
      intro id hid
      rw [held_afterInboxes] at hid
      exact List.mem_cons_of_mem _ hid
    | cons ri todo => exact works_inboxes cfg env s origin msg ri todo
  | failed origin msg =>
    obtain ⟨nextAt, hcount⟩ := countAttempt_eq cfg env s origin msg
    rw [work, hcount]
    refine works_of_held s (follows_updateAttempt s _ _ _) ?_ rfl
    intro id hid
    rw [held_afterSuccess] at hid
    exact hid
  | replicate id andThen =>
    obtain ⟨hfollows, htaken, htried⟩ := works_finish s (.replicate id andThen) id andThen
    exact ⟨hfollows, htaken, htried⟩
  | broadcast b => exact works_broadcastNext s b

end Work

/-! ## Events -/

section Events
variable (load : Bytes → Option Item)

def statusWrites (s : OutboxStore) : Event → List (Bytes × MsgStatus)
  | .frame _ body => (deliveredIds load s body).map (fun id => (id, .delivered))
  | .ipc _ method p =>
    if method = "outbox.cancel" then
      match reqString p "message_id" with
      | .ok id => [(id, .cancelled)]
      | .error _ => []
    else []
  | .maintenance env => (s.messages.rows.filter (OutboxStore.isExpired env.nowMs)).map (fun m => (m.messageId, .expired))
  | _ => []

variable {load} {cfg : Config} {env : Env} {s s' : OutboxStore} {p : CborMap} {r : Reply} {method : String}

theorem follows_frame (load : Bytes → Option Item) (s : OutboxStore) (channelId body : Bytes) :
    Follows (statusWrites load s (.frame channelId body)) s (onFrame load s channelId body).1 := by
  refine Follows.of_map (f := fun id m => if id ∈ deliveredIds load s body then { m with status := .delivered } else m) ?_ ?_ ?_
  · rw [onFrame_store, foldl_setStatus_recipients]
  · intro id
    rw [find_onFrame]
    split
    · rfl
    · rw [Option.map_id']
  · intro id m _
    split
    · rename_i hmem
      exact Or.inr (List.mem_map_of_mem hmem)
    · exact Or.inl rfl

theorem follows_maintenance (load : Bytes → Option Item) (env : Env) (s : OutboxStore) :
    Follows (statusWrites load s (.maintenance env)) s (s.expireMessages env.nowMs) := by
  refine Follows.of_map rfl (s.find_expireMessages env.nowMs) ?_
  intro id m hm
  split
  · rename_i hexpired
    obtain rfl := Table.key_of_find hm
    exact Or.inr (List.mem_map_of_mem (List.mem_filter.mpr ⟨Table.mem_of_find hm, hexpired⟩))
  · exact Or.inl rfl

theorem follows_cancel (h : cancel s p = .ok (s', r)) : Follows (statusWrites load s (.ipc env "outbox.cancel" p)) s s' := by
  obtain ⟨id, hid, h⟩ := bind_eq_ok.mp h
  split at h
  · cases h
    refine Follows.of_map (f := fun i m => if id = i then { m with status := .cancelled } else m) rfl ?_ ?_
    · intro i
      rw [s.find_setStatus]
      split
      · rfl
      · rw [Option.map_id']
    · intro i m _
      split
      · rename_i heq
        subst heq
        rw [statusWrites, if_pos rfl, hid]
        exact Or.inr (List.mem_singleton.mpr rfl)
      · exact Or.inl rfl
  · cases h

theorem follows_enqueue {task : Task} (h : enqueue load env s p = .ok (s', task)) :
    Follows [] s s' ∧ ∃ id, task = .read id none := by
  obtain ⟨frame, _, h⟩ := bind_eq_ok.mp h
  obtain ⟨hdr, _, h⟩ := bind_eq_ok.mp h
  split at h
  · cases h
  · rename_i s1 hins
    cases h
    refine ⟨?_, _, rfl⟩
    obtain rfl : (s.insertMessage (queuedMessage env frame hdr p)).1 = s1 := by rw [hins]
    have hfold : ∀ (rs : List RecipientInbox) (s1 : OutboxStore), Follows [] s s1 →
        Follows [] s (rs.foldl OutboxStore.addRecipientInbox s1) := by
      intro rs
      induction rs with
      | nil => exact fun _ h1 => h1
      | cons ri rs ih => exact fun s1 h1 => ih _ (h1.addRecipientInbox ri)
    exact hfold _ _ (Follows.insertMessage s rfl)

theorem keeps_addSibling (h : addSibling s p = .ok (s', r)) : s'.messages = s.messages ∧ s'.recipients = s.recipients := by
  obtain ⟨pub, _, h⟩ := bind_eq_ok.mp h
  obtain ⟨cert, _, h⟩ := bind_eq_ok.mp h
  obtain ⟨s1, hset, h⟩ := bind_eq_ok.mp h
  cases h
  unfold OutboxStore.upsertSibling at hset
  split at hset
  · cases hset
  · cases hset
    exact ⟨rfl, rfl⟩

theorem keeps_removeSibling (h : removeSibling s p = .ok (s', r)) : s'.messages = s.messages ∧ s'.recipients = s.recipients := by
  obtain ⟨id, _, h⟩ := bind_eq_ok.mp h
  cases h
  exact ⟨rfl, rfl⟩

/-- What a request has done once it is answered. Apart from the two that queue and the one that cancels, requests touch no message. -/
inductive Handled (load : Bytes → Option Item) (env : Env) (s : OutboxStore) (p : CborMap) : String → Outcome → Prop
  | enqueue {method : String} {s' : OutboxStore} {task : Task} (h : enqueue load env s p = .ok (s', task)) :
      Handled load env s p method (.started s' task)
  | broadcast {method : String} (b : Broadcast) : Handled load env s p method (.started s (.broadcast b))
  | cancel {s' : OutboxStore} {r : Reply} (h : cancel s p = .ok (s', r)) : Handled load env s p "outbox.cancel" (.done s' r)
  | keeps {method : String} {s' : OutboxStore} {r : Reply} (h : s'.messages = s.messages ∧ s'.recipients = s.recipients) :
      Handled load env s p method (.done s' r)

theorem enqueueBroadcast_eq_broadcast {task : Task} (h : enqueueBroadcast load env p = .ok task) : ∃ b, task = .broadcast b := by
  obtain ⟨frame, _, h⟩ := bind_eq_ok.mp h
  obtain ⟨hdr, _, h⟩ := bind_eq_ok.mp h
  split at h
  · cases h
    exact ⟨_, rfl⟩
  · cases h

/-- The methods of the outbox, by what their answers come from. -/
theorem handle_cases {out : Outcome} (h : handle load env s method p = .ok out) :
    (∃ s' task, out = .started s' task ∧ enqueue load env s p = .ok (s', task)) ∨
    (∃ task, out = .started s task ∧ enqueueBroadcast load env p = .ok task) ∨
    (∃ s' r, out = .done s' r ∧ method = "outbox.cancel" ∧ cancel s p = .ok (s', r)) ∨
    (∃ s' r, out = .done s' r ∧ s'.messages = s.messages ∧ s'.recipients = s.recipients) := by
  unfold handle at h
  obtain ⟨_, h⟩ | ⟨_, h⟩ := ite_eq_iff.mp h
  · obtain ⟨r, hr, rfl⟩ := map_ok h
    exact Or.inl ⟨_, _, rfl, hr⟩
  refine Or.inr ?_
  obtain ⟨_, h⟩ | ⟨_, h⟩ := ite_eq_iff.mp h
  · obtain ⟨task, hr, rfl⟩ := map_ok h
    exact Or.inl ⟨task, rfl, hr⟩
  refine Or.inr ?_
  obtain ⟨_, h⟩ | ⟨_, h⟩ := ite_eq_iff.mp h
  · obtain ⟨r, _, rfl⟩ := map_ok h
    exact Or.inr ⟨s, r, rfl, rfl, rfl⟩
  obtain ⟨_, h⟩ | ⟨_, h⟩ := ite_eq_iff.mp h
  · obtain ⟨r, _, rfl⟩ := map_ok h
    exact Or.inr ⟨s, r, rfl, rfl, rfl⟩
  obtain ⟨hcancel, h⟩ | ⟨_, h⟩ := ite_eq_iff.mp h
  · obtain ⟨r, hr, rfl⟩ := map_ok h
    exact Or.inl ⟨_, _, rfl, hcancel, hr⟩
  refine Or.inr ?_
  obtain ⟨_, h⟩ | ⟨_, h⟩ := ite_eq_iff.mp h
  · cases h
    exact ⟨s, _, rfl, rfl, rfl⟩
  obtain ⟨_, h⟩ | ⟨_, h⟩ := ite_eq_iff.mp h
  · cases h
    exact ⟨s, _, rfl, rfl, rfl⟩
  obtain ⟨_, h⟩ | ⟨_, h⟩ := ite_eq_iff.mp h
  · obtain ⟨r, hr, rfl⟩ := map_ok h
    exact ⟨r.1, r.2, rfl, keeps_addSibling hr⟩
  obtain ⟨_, h⟩ | ⟨_, h⟩ := ite_eq_iff.mp h
  · obtain ⟨r, hr, rfl⟩ := map_ok h
    exact ⟨r.1, r.2, rfl, keeps_removeSibling hr⟩
  obtain ⟨_, h⟩ | ⟨_, h⟩ := ite_eq_iff.mp h
  · obtain ⟨r, _, rfl⟩ := map_ok h
    exact ⟨s, r, rfl, rfl, rfl⟩
  · cases h

theorem handled_of_handle {out : Outcome} (h : handle load env s method p = .ok out) : Handled load env s p method out := by
  obtain ⟨s', task, rfl, hr⟩ | ⟨task, rfl, hr⟩ | ⟨s', r, rfl, rfl, hr⟩ | ⟨s', r, rfl, hkeeps⟩ := handle_cases h
  · exact .enqueue hr
  · obtain ⟨b, rfl⟩ := enqueueBroadcast_eq_broadcast hr
    exact .broadcast b
  · exact .cancel hr
  · exact .keeps hkeeps

def Outcome.store : Outcome → OutboxStore
  | .started s _ => s
  | .done s _ => s

/-- A request writes the status of the message it cancels, and a task that it starts holds nothing yet. -/
theorem handle_spec {out : Outcome} (h : handle load env s method p = .ok out) :
    Follows (statusWrites load s (.ipc env method p)) s out.store ∧
      ∀ s' task, out = .started s' task → task.held = [] := by
  cases handled_of_handle h with
  | enqueue hr =>
    obtain ⟨hfollows, id, rfl⟩ := follows_enqueue hr
    refine ⟨hfollows.mono, ?_⟩
    intro s1 task hout
    cases hout
    rfl
  | broadcast b =>
    refine ⟨Follows.refl, ?_⟩
    intro s1 task hout
    cases hout
    rfl
  | cancel hr => exact ⟨follows_cancel hr, fun _ _ hout => (nomatch hout)⟩
  | keeps hkeeps => exact ⟨Follows.of_messages hkeeps.1 hkeeps.2, fun _ _ hout => (nomatch hout)⟩

/-- A task goes on in its place. -/
theorem next_work (load : Bytes → Option Item) (cfg : Config) (env : Env) {q : Process} {index : ℕ} {task : Task} (h : q.tasks[index]? = some task) :
    ∃ l r, q.tasks = l ++ task :: r ∧ next load cfg q (.work env index) =
      ⟨(work cfg env q.store task).1, l ++ (work cfg env q.store task).2.1.toList ++ r⟩ := by
  obtain ⟨hlt, hget⟩ := List.getElem?_eq_some_iff.mp h
  have hsplit : q.tasks = q.tasks.take index ++ task :: q.tasks.drop (index + 1) := by
    rw [← hget, List.getElem_cons_drop, List.take_append_drop]
  refine ⟨q.tasks.take index, q.tasks.drop (index + 1), hsplit, ?_⟩
  unfold next
  rw [step, h]
  dsimp only
  rcases hwork : work cfg env q.store task with ⟨store, _ | task', out⟩
  · dsimp only
    rw [List.eraseIdx_eq_take_drop_succ, Option.toList_none, List.append_nil]
  · dsimp only
    rw [List.set_eq_take_append_cons_drop, if_pos hlt, Option.toList_some, List.append_assoc, List.singleton_append]

/-- Where a task comes from: it was there, a request or the retry loop started it, a restart did, or a task went on with it. -/
theorem mem_tasks_next {cfg : Config} {q : Process} {e : Event} {task : Task} (h : task ∈ (next load cfg q e).tasks) :
    task ∈ q.tasks ∨
    (∃ env method p s', e = .ipc env method p ∧ handle load env q.store method p = .ok (.started s' task)) ∨
    (∃ env, e = .retry env ∧ task = .loop .retry (q.store.listDue env.nowMs)) ∨
    (∃ env index current, e = .work env index ∧ current ∈ q.tasks ∧ (work cfg env q.store current).2.1 = some task) ∨
    (e = .restart ∧ task = .loop .burst q.store.listPending) := by
  cases e with
  | frame channelId body => exact Or.inl h
  | ipc env method p =>
    unfold next at h
    rw [step] at h
    cases hhandle : handle load env q.store method p with
    | error err =>
      rw [hhandle] at h
      exact Or.inl h
    | ok out =>
      rw [hhandle] at h
      cases out with
      | done store reply => exact Or.inl h
      | started store started =>
        refine (List.mem_append.mp h).imp_right (fun hnew => Or.inl ?_)
        rw [List.mem_singleton.mp hnew]
        exact ⟨env, method, p, store, rfl, hhandle⟩
  | retry env =>
    unfold next at h
    rw [step] at h
    split at h
    · exact Or.inl h
    · exact (List.mem_append.mp h).imp_right (fun hnew => Or.inr (Or.inl ⟨env, rfl, List.mem_singleton.mp hnew⟩))
  | maintenance env => exact Or.inl h
  | work env index =>
    cases hindex : q.tasks[index]? with
    | none =>
      unfold next at h
      rw [step, hindex] at h
      exact Or.inl h
    | some current =>
      obtain ⟨l, r, hsplit, hnext⟩ := next_work load cfg env hindex
      rw [hnext] at h
      rw [hsplit]
      obtain hl | hr := List.mem_append.mp h
      · obtain hl | hgoes := List.mem_append.mp hl
        · exact Or.inl (List.mem_append_left _ hl)
        · exact Or.inr (Or.inr (Or.inr (Or.inl ⟨env, index, current, rfl, List.mem_append_right _ List.mem_cons_self, Option.mem_toList.mp hgoes⟩)))
      · exact Or.inl (List.mem_append_right _ (List.mem_cons_of_mem _ hr))
  | restart => exact Or.inr (Or.inr (Or.inr (Or.inr ⟨rfl, List.mem_singleton.mp h⟩)))

/-- Where the store after a step comes from. -/
theorem store_next_cases (load : Bytes → Option Item) (cfg : Config) (q : Process) (e : Event) :
    (next load cfg q e).store = q.store ∨
    (∃ channelId body, e = .frame channelId body ∧ (next load cfg q e).store = (onFrame load q.store channelId body).1) ∨
    (∃ env method p out, e = .ipc env method p ∧ handle load env q.store method p = .ok out ∧ (next load cfg q e).store = out.store) ∨
    (∃ env, e = .maintenance env ∧ (next load cfg q e).store = q.store.expireMessages env.nowMs) ∨
    (∃ env index task, e = .work env index ∧ q.tasks[index]? = some task ∧ (next load cfg q e).store = (work cfg env q.store task).1) := by
  unfold next
  cases e with
  | frame channelId body => exact Or.inr (Or.inl ⟨channelId, body, rfl, rfl⟩)
  | ipc env method p =>
    rw [step]
    cases hhandle : handle load env q.store method p with
    | error err => exact Or.inl rfl
    | ok out =>
      refine Or.inr (Or.inr (Or.inl ⟨env, method, p, out, rfl, hhandle, ?_⟩))
      cases out with
      | done store reply => rfl
      | started store task => rfl
  | retry env =>
    rw [step]
    split
    · exact Or.inl rfl
    · exact Or.inl rfl
  | maintenance env => exact Or.inr (Or.inr (Or.inr (Or.inl ⟨env, rfl, rfl⟩)))
  | work env index =>
    cases htask : q.tasks[index]? with
    | none =>
      rw [step, htask]
      exact Or.inl rfl
    | some task =>
      obtain ⟨l, r, _, hnext⟩ := next_work load cfg env htask
      refine Or.inr (Or.inr (Or.inr (Or.inr ⟨env, index, task, rfl, htask, ?_⟩)))
      exact congrArg Process.store hnext
  | restart => exact Or.inl rfl

/-- Every step writes the statuses it is listed with, and nothing else is lost. -/
theorem step_follows (load : Bytes → Option Item) (cfg : Config) (q : Process) (e : Event) :
    Follows (statusWrites load q.store e) q.store (next load cfg q e).store := by
  obtain hstore | ⟨channelId, body, rfl, hstore⟩ | ⟨env, method, p, out, rfl, hhandle, hstore⟩ | ⟨env, rfl, hstore⟩ |
    ⟨env, index, task, rfl, _, hstore⟩ := store_next_cases load cfg q e
  · rw [hstore]
    exact Follows.refl
  · rw [hstore]
    exact follows_frame load q.store channelId body
  · rw [hstore]
    exact (handle_spec hhandle).1
  · rw [hstore]
    exact follows_maintenance load env q.store
  · rw [hstore]
    exact (works_work cfg env q.store task).follows.mono

end Events

end ScatterWeb.Outbox
