import ScatterWeb.Outbox.Steps

/-! # Requests that queue

The inboxes on record are always those of queued messages. `Finishes` works a task off to its end; a broadcast whose recipients cannot
be read queues nothing, and the task of `outbox.enqueue` adds no inboxes and leaves the lifetimes alone. -/
namespace ScatterWeb.Outbox
open Crypto Lib Lib.Cbor Client Mailbox
set_option autoImplicit false

/-! ## The inboxes on record -/

/-- Every inbox on record is one of a queued message. -/
def RecipientsKnown (s : OutboxStore) : Prop := ∀ r ∈ s.recipients.rows, s.messages.find r.messageId ≠ none

/-- A new inbox is one of a queued message. -/
def Adds (s s' : OutboxStore) : Prop := ∀ r ∈ s'.recipients.rows, r ∈ s.recipients.rows ∨ s'.messages.find r.messageId ≠ none

section Recipients
variable {s s' : OutboxStore} {cfg : Config} {env : Env} {load : Bytes → Option Item} {p : CborMap}

theorem RecipientsKnown.step {writes : List (Bytes × MsgStatus)} (h : RecipientsKnown s) (hfollows : Follows writes s s') (hadds : Adds s s') :
    RecipientsKnown s' := by
  intro r hr
  obtain hold | hnew := hadds r hr
  · obtain ⟨m, hm⟩ := Option.ne_none_iff_exists'.mp (h r hold)
    obtain ⟨m', hm', _⟩ := hfollows.status _ m hm
    rw [hm']
    exact Option.some_ne_none m'
  · exact hnew

theorem Adds.of_recipients (h : s'.recipients = s.recipients) : Adds s s' := by
  intro r hr
  rw [h] at hr
  exact Or.inl hr

theorem Adds.addRecipientInbox (h : Adds s s') {r : RecipientInbox} (hmsg : s'.messages.find r.messageId ≠ none) :
    Adds s (s'.addRecipientInbox r) := by
  intro r' hr'
  rw [s'.addRecipientInbox_messages]
  unfold OutboxStore.addRecipientInbox at hr'
  split at hr'
  · exact h r' hr'
  · obtain hold | rfl := Table.mem_insertNew hr'
    · exact h r' hold
    · exact Or.inr hmsg

theorem find_insertMessage_ne_none (s : OutboxStore) (msg : QueuedMessage) : (s.insertMessage msg).1.messages.find msg.messageId ≠ none := by
  unfold OutboxStore.insertMessage
  dsimp only
  rw [Table.find_insertNew]
  by_cases h : s.messages.find msg.messageId = none
  · simp [h]
  · simp [h]

theorem adds_broadcastNext (b : Broadcast) : Adds s (broadcastNext s b).1 := by
  obtain hnext | ⟨rest, hnext⟩ | ⟨rest, kb, inbox, _, hnext⟩ := broadcastNext_cases s b
  · rw [hnext]
    exact .of_recipients rfl
  · rw [hnext]
    exact .of_recipients rfl
  · rw [hnext]
    have hadds : Adds s (s.insertMessage (broadcastMessage { b with todo := rest } kb)).1 := .of_recipients rfl
    cases inbox with
    | none => exact hadds
    | some kc => exact hadds.addRecipientInbox (find_insertMessage_ne_none s (broadcastMessage { b with todo := rest } kb))

theorem adds_work (task : Task) : Adds s (work cfg env s task).1 := by
  obtain hstore | ⟨origin, msg, nextAt, rfl, hstore⟩ | ⟨b, rfl, hstore⟩ := store_work_cases cfg env s task
  · rw [hstore]
    exact .of_recipients rfl
  · rw [hstore]
    exact .of_recipients rfl
  · rw [hstore]
    exact adds_broadcastNext b

theorem adds_enqueue {task : Task} (h : enqueue load env s p = .ok (s', task)) : Adds s s' := by
  obtain ⟨frame, _, h⟩ := bind_eq_ok.mp h
  obtain ⟨hdr, _, h⟩ := bind_eq_ok.mp h
  split at h
  · cases h
  · rename_i s1 hins
    cases h
    obtain rfl : (s.insertMessage (queuedMessage env frame hdr p)).1 = s1 := by rw [hins]
    have hids : ∀ ri ∈ recipientInboxes hdr.messageId p, ri.messageId = hdr.messageId := by
      intro ri hri
      unfold recipientInboxes at hri
      split at hri
      · obtain ⟨v, _, hv⟩ := List.mem_filterMap.mp hri
        unfold readRecipientInbox at hv
        split at hv
        · split at hv
          · cases hv
            rfl
          · cases hv
        · cases hv
      · cases hri
    have hfold : ∀ (rs : List RecipientInbox) (s1 : OutboxStore), (∀ ri ∈ rs, ri.messageId = hdr.messageId) →
        s1.messages.find hdr.messageId ≠ none → Adds s s1 → Adds s (rs.foldl OutboxStore.addRecipientInbox s1) := by
      intro rs
      induction rs with
      | nil => exact fun _ _ _ h1 => h1
      | cons ri rs ih =>
        intro s1 hrs hmsg h1
        have hri : ri.messageId = hdr.messageId := hrs ri List.mem_cons_self
        refine ih _ (fun ri' h' => hrs ri' (List.mem_cons_of_mem _ h')) ?_ (h1.addRecipientInbox (hri ▸ hmsg))
        rw [s1.addRecipientInbox_messages]
        exact hmsg
    exact hfold _ _ hids (find_insertMessage_ne_none s (queuedMessage env frame hdr p)) (.of_recipients rfl)

theorem adds_handle {method : String} {out : Outcome} (h : handle load env s method p = .ok out) : Adds s out.store := by
  cases handled_of_handle h with
  | enqueue hr => exact adds_enqueue hr
  | broadcast b => exact .of_recipients rfl
  | cancel hr =>
    obtain ⟨id, _, hr⟩ := bind_eq_ok.mp hr
    split at hr
    · cases hr
      exact .of_recipients rfl
    · cases hr
  | keeps hkeeps => exact .of_recipients hkeeps.2

theorem adds_next (load : Bytes → Option Item) (cfg : Config) (q : Process) (e : Event) : Adds q.store (next load cfg q e).store := by
  obtain hstore | ⟨channelId, body, rfl, hstore⟩ | ⟨env, method, p, out, rfl, hhandle, hstore⟩ | ⟨env, rfl, hstore⟩ |
    ⟨env, index, task, rfl, _, hstore⟩ := store_next_cases load cfg q e
  · rw [hstore]
    exact .of_recipients rfl
  · rw [hstore, onFrame_store]
    exact .of_recipients (foldl_setStatus_recipients _ _ q.store)
  · rw [hstore]
    exact adds_handle hhandle
  · rw [hstore]
    exact .of_recipients rfl
  · rw [hstore]
    exact adds_work task

/-- In every reachable state. -/
theorem recipientsKnown_of_reached {q : Process} (h : Reached load cfg q) : RecipientsKnown q.store := by
  refine Reachable.invariant (fun q => RecipientsKnown q.store) ?_ ?_ h
  · intro r hr
    cases hr
  · intro q e q' hknown hstep
    rw [hstep]
    exact hknown.step (step_follows load cfg q e) (adds_next load cfg q e)

end Recipients

/-! ## Tasks to their end -/

/-- The task, worked off step by step with nothing else in between, leaves the last store. -/
inductive Finishes (cfg : Config) : OutboxStore → Task → OutboxStore → Prop
  | last {s s' : OutboxStore} {task : Task} {env : Env} {out : Output} (h : work cfg env s task = (s', none, out)) : Finishes cfg s task s'
  | next {s s₁ s' : OutboxStore} {task task' : Task} {env : Env} {out : Output} (h : work cfg env s task = (s₁, some task', out))
      (hrest : Finishes cfg s₁ task' s') : Finishes cfg s task s'

theorem handle_enqueue (load : Bytes → Option Item) (env : Env) (s : OutboxStore) (p : CborMap) :
    handle load env s "outbox.enqueue" p = (enqueue load env s p).map (fun r => .started r.1 r.2) := by simp [handle]

theorem handle_enqueueBroadcast (load : Bytes → Option Item) (env : Env) (s : OutboxStore) (p : CborMap) :
    handle load env s "outbox.enqueue_broadcast" p = (enqueueBroadcast load env p).map (.started s) := by simp [handle]

/-- The task of a request that is not a broadcast. -/
def Task.Single : Task → Prop
  | .read _ none | .inboxes (.immediate none) _ _ | .failed (.immediate none) _ | .replicate _ none => True
  | _ => False

/-- No inbox is added, no message either, and the lifetimes stay. -/
structure SameRows (s s' : OutboxStore) : Prop where
  recipients : s'.recipients = s.recipients
  rows : ∀ id m', s'.messages.find id = some m' →
    ∃ m, s.messages.find id = some m ∧ m'.enqueuedAtMs = m.enqueuedAtMs ∧ m'.expiresAtMs = m.expiresAtMs

section Finish
variable {cfg : Config} {env : Env} {s s' s'' : OutboxStore}

theorem SameRows.refl (s : OutboxStore) : SameRows s s := ⟨rfl, fun _ m hm => ⟨m, hm, rfl, rfl⟩⟩

theorem SameRows.trans (h : SameRows s s') (h' : SameRows s' s'') : SameRows s s'' := by
  refine ⟨h'.recipients.trans h.recipients, ?_⟩
  intro id m'' hm''
  obtain ⟨m', hm', henqueued', hexpires'⟩ := h'.rows id m'' hm''
  obtain ⟨m, hm, henqueued, hexpires⟩ := h.rows id m' hm'
  exact ⟨m, hm, henqueued'.trans henqueued, hexpires'.trans hexpires⟩

theorem sameRows_updateAttempt (s : OutboxStore) (id : Bytes) (count nextAt : ℤ) : SameRows s (s.updateAttempt id count nextAt) := by
  refine ⟨rfl, ?_⟩
  intro id' m' hm'
  rw [OutboxStore.find_updateAttempt] at hm'
  split at hm'
  · obtain ⟨m, hm, rfl⟩ := Option.map_eq_some_iff.mp hm'
    exact ⟨m, hm, rfl, rfl⟩
  · exact ⟨m', hm', rfl, rfl⟩

theorem Task.single_cases {task : Task} (h : task.Single) : (∃ id, task = .read id none) ∨
    (∃ msg todo, task = .inboxes (.immediate none) msg todo) ∨ (∃ msg, task = .failed (.immediate none) msg) ∨
    ∃ id, task = .replicate id none := by
  cases task with
  | read id andThen =>
    cases andThen with
    | none => exact Or.inl ⟨id, rfl⟩
    | some b => exact False.elim h
  | loop kind queue => exact False.elim h
  | inboxes origin msg todo =>
    cases origin with
    | loop kind rest => exact False.elim h
    | immediate andThen =>
      cases andThen with
      | none => exact Or.inr (Or.inl ⟨msg, todo, rfl⟩)
      | some b => exact False.elim h
  | failed origin msg =>
    cases origin with
    | loop kind rest => exact False.elim h
    | immediate andThen =>
      cases andThen with
      | none => exact Or.inr (Or.inr (Or.inl ⟨msg, rfl⟩))
      | some b => exact False.elim h
  | replicate id andThen =>
    cases andThen with
    | none => exact Or.inr (Or.inr (Or.inr ⟨id, rfl⟩))
    | some b => exact False.elim h
  | broadcast b => exact False.elim h

/-- One step of a single task: the rows stay, and what follows is single again. -/
theorem work_single (cfg : Config) (env : Env) (s : OutboxStore) {task : Task} (h : task.Single) :
    SameRows s (work cfg env s task).1 ∧ ∀ task', (work cfg env s task).2.1 = some task' → task'.Single := by
  have hends : ∀ task', (none : Option Task) = some task' → task'.Single := by
    intro task' h
    cases h
  have hnext : ∀ task : Task, task.Single → ∀ task', some task = some task' → task'.Single := by
    intro task hsingle task' h
    cases h
    exact hsingle
  obtain ⟨id, rfl⟩ | ⟨msg, todo, rfl⟩ | ⟨msg, rfl⟩ | ⟨id, rfl⟩ := Task.single_cases h
  · rw [work]
    split
    · exact ⟨.refl s, hends⟩
    · split
      · exact ⟨.refl s, hnext _ trivial⟩
      · exact ⟨.refl s, hends⟩
  · cases todo with
    | nil => exact ⟨.refl s, hnext _ trivial⟩
    | cons ri todo =>
      rw [work]
      split
      · exact ⟨.refl s, hnext _ trivial⟩
      · exact ⟨.refl s, hnext _ trivial⟩
  · obtain ⟨nextAt, hcount⟩ := countAttempt_eq cfg env s (.immediate none) msg
    rw [work, hcount]
    exact ⟨sameRows_updateAttempt s _ _ _, hnext _ trivial⟩
  · exact ⟨.refl s, hends⟩

/-- What a single task leaves. -/
theorem Finishes.sameRows {task : Task} (h : Finishes cfg s task s') (hsingle : task.Single) : SameRows s s' := by
  induction h with
  | @last s s' task env out hwork =>
    have hstep := (work_single cfg env s hsingle).1
    rw [hwork] at hstep
    exact hstep
  | @next s s₁ s' task task' env out hwork _ ih =>
    obtain ⟨hstep, hnext⟩ := work_single cfg env s hsingle
    rw [hwork] at hstep hnext
    exact hstep.trans (ih (hnext task' rfl))

/-! ### An attempt comes to the replication -/

section Attempt
variable {env : Env} {P : OutboxStore → Task → Prop} {andThen : Option Broadcast} {msg : QueuedMessage}

theorem failed_of_replicate (hstep : ∀ {s s₁ task task' out}, work cfg env s task = (s₁, some task', out) → P s₁ task' → P s task)
    (h : ∀ s, P s (.replicate msg.messageId andThen)) (s : OutboxStore) : P s (.failed (.immediate andThen) msg) := by
  have hwork : work cfg env s (.failed (.immediate andThen) msg) =
      (countAttempt cfg env s (.immediate andThen) msg, some (.replicate msg.messageId andThen), {}) := rfl
  exact hstep hwork (h _)

/-- By induction on the inboxes that are left. -/
theorem inboxes_of_replicate (hstep : ∀ {s s₁ task task' out}, work cfg env s task = (s₁, some task', out) → P s₁ task' → P s task)
    (h : ∀ s, P s (.replicate msg.messageId andThen)) (s : OutboxStore) (todo : List RecipientInbox) :
    P s (.inboxes (.immediate andThen) msg todo) := by
  induction todo with
  | nil =>
    have hwork : work cfg env s (.inboxes (.immediate andThen) msg []) = (s, some (.failed (.immediate andThen) msg), {}) := rfl
    exact hstep hwork (failed_of_replicate hstep h s)
  | cons ri todo ih =>
    rcases hattempt : attemptDelivery env msg ri with ⟨_ | _, out⟩
    · have hwork : work cfg env s (.inboxes (.immediate andThen) msg (ri :: todo)) = (s, some (.inboxes (.immediate andThen) msg todo), out) := by
        rw [work, hattempt]
      exact hstep hwork ih
    · have hwork : work cfg env s (.inboxes (.immediate andThen) msg (ri :: todo)) = (s, some (.replicate msg.messageId andThen), out) := by
        rw [work, hattempt]
        rfl
      exact hstep hwork (h s)

theorem read_of_replicate (hstep : ∀ {s s₁ task task' out}, work cfg env s task = (s₁, some task', out) → P s₁ task' → P s task) {id : Bytes}
    (h : ∀ s, P s (.replicate id andThen)) (s : OutboxStore)
    (hfinish : work cfg env s (.read id andThen) = (s, finish id andThen) → P s (.read id andThen)) : P s (.read id andThen) := by
  cases hmsg : s.getMessage id with
  | none =>
    refine hfinish ?_
    rw [work, hmsg]
  | some msg =>
    obtain rfl : msg.messageId = id := Table.key_of_find hmsg
    by_cases hpending : msg.status = .pending
    · have hwork : work cfg env s (.read msg.messageId andThen) =
          (s, some (.inboxes (.immediate andThen) msg (s.getRecipientInboxes msg.messageId)), {}) := by
        rw [work, hmsg]
        exact if_pos hpending
      exact hstep hwork (inboxes_of_replicate hstep h s _)
    · refine hfinish ?_
      rw [work, hmsg]
      exact if_neg hpending

end Attempt

/-- It comes to its end. -/
theorem exists_finishes (cfg : Config) (env : Env) (s : OutboxStore) {task : Task} (h : task.Single) : ∃ s', Finishes cfg s task s' := by
  have hstep : ∀ {s s₁ task task' out}, work cfg env s task = (s₁, some task', out) → (∃ s', Finishes cfg s₁ task' s') →
      ∃ s', Finishes cfg s task s' := by
    rintro s s₁ task task' out hwork ⟨s', hrest⟩
    exact ⟨s', .next hwork hrest⟩
  have hreplicate : ∀ id s, ∃ s', Finishes cfg s (.replicate id none) s' := by
    intro id s
    exact ⟨s, .last (show work cfg env s (.replicate id none) = (s, none, _) from rfl)⟩
  obtain ⟨id, rfl⟩ | ⟨msg, todo, rfl⟩ | ⟨msg, rfl⟩ | ⟨id, rfl⟩ := Task.single_cases h
  · exact read_of_replicate hstep (hreplicate id) s (fun hwork => ⟨s, .last hwork⟩)
  · exact inboxes_of_replicate hstep (hreplicate msg.messageId) s todo
  · exact failed_of_replicate hstep (hreplicate msg.messageId) s
  · exact hreplicate id s

/-- A broadcast of whose recipients none can be read queues nothing. -/
theorem finishes_unreadable_iff {b : Broadcast} (h : ∀ v ∈ b.todo, readRecipient v = none) (env : Env) :
    Finishes cfg s (.broadcast b) s' ↔ s' = s := by
  obtain ⟨frame, baseId, nowMs, todo, enqueuedIds⟩ := b
  dsimp only at h
  induction todo with
  | nil =>
    constructor
    · intro hfinish
      cases hfinish with
      | last hwork =>
        cases hwork
        rfl
      | next hwork hrest => cases hwork
    · rintro rfl
      exact .last (show work cfg env s' (.broadcast ⟨frame, baseId, nowMs, [], enqueuedIds⟩) = (s', none, _) from rfl)
  | cons v todo ih =>
    have hv : readRecipient v = none := h v List.mem_cons_self
    have hwork : ∀ env, work cfg env s (.broadcast ⟨frame, baseId, nowMs, v :: todo, enqueuedIds⟩) =
        (s, some (.broadcast ⟨frame, baseId, nowMs, todo, enqueuedIds⟩), {}) := by
      intro env
      rw [work, broadcastNext_unread rfl hv]
    rw [← ih (fun v hv => h v (List.mem_cons_of_mem _ hv))]
    constructor
    · intro hfinish
      cases hfinish with
      | last hlast =>
        rw [hwork] at hlast
        cases hlast
      | next hnext hrest =>
        rw [hwork] at hnext
        cases hnext
        exact hrest
    · intro hrest
      exact .next (hwork env) hrest

end Finish

end ScatterWeb.Outbox
