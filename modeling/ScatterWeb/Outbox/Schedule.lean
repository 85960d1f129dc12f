import ScatterWeb.Outbox.Steps

/-! # The attempts for one message

The count of attempts and the time of the next one change when a round of attempts has failed, and only then. A task that
touches a message will read it or has a copy of it; of the others each leaves the schedule of the message as it is, or queues
the message. `Standing` says what has become of a message after a number of rounds, and `standing_work` what the task that
has it does next. -/
namespace ScatterWeb.Outbox
open Crypto Lib Lib.Cbor Client Mailbox
set_option autoImplicit false

/-! ## The schedule of a message -/

/-- The count of attempts and the time of the next one. -/
def schedule (s : OutboxStore) (id : Bytes) : Option (ℤ × ℤ) :=
  (s.messages.find id).map (fun m => (m.attemptCount, m.nextAttemptAt))

section Schedule
variable (s : OutboxStore) (id : Bytes)

theorem schedule_of_messages {s s' : OutboxStore} (h : s'.messages = s.messages) (id : Bytes) : schedule s' id = schedule s id := by
  unfold schedule
  rw [h]

theorem schedule_eq_none_iff : schedule s id = none ↔ s.messages.find id = none := by
  unfold schedule
  rw [Option.map_eq_none_iff]

/-- Writing statuses keeps the schedule. -/
theorem schedule_of_map {s s' : OutboxStore} {f : QueuedMessage → QueuedMessage} {id : Bytes}
    (hfind : s'.messages.find id = (s.messages.find id).map f)
    (hf : ∀ m, (f m).attemptCount = m.attemptCount ∧ (f m).nextAttemptAt = m.nextAttemptAt) : schedule s' id = schedule s id := by
  unfold schedule
  rw [hfind, Option.map_map]
  congr 1
  funext m
  exact Prod.ext (hf m).1 (hf m).2

theorem schedule_setStatus (id' : Bytes) (st : MsgStatus) : schedule (s.setStatus id' st) id = schedule s id := by
  have hfind := s.find_setStatus id' st id
  by_cases hid : id' = id
  · rw [if_pos hid] at hfind
    exact schedule_of_map hfind (fun _ => ⟨rfl, rfl⟩)
  · unfold schedule
    rw [hfind, if_neg hid]

theorem schedule_expireMessages (nowMs : ℤ) : schedule (s.expireMessages nowMs) id = schedule s id := by
  refine schedule_of_map (s.find_expireMessages nowMs id) ?_
  intro m
  split
  · exact ⟨rfl, rfl⟩
  · exact ⟨rfl, rfl⟩

theorem schedule_onFrame (load : Bytes → Option Item) (channelId body : Bytes) :
    schedule (onFrame load s channelId body).1 id = schedule s id := by
  rw [onFrame_store]
  induction deliveredIds load s body generalizing s with
  | nil => rfl
  | cons id' ids ih => rw [List.foldl_cons, ih, schedule_setStatus]

theorem schedule_updateAttempt (id' : Bytes) (count nextAt : ℤ) : schedule (s.updateAttempt id' count nextAt) id =
    if id' = id then (schedule s id).map (fun _ => (count, nextAt)) else schedule s id := by
  unfold schedule
  rw [s.find_updateAttempt]
  by_cases hid : id' = id
  · rw [if_pos hid, if_pos hid, Option.map_map, Option.map_map]
    rfl
  · rw [if_neg hid, if_neg hid]

theorem schedule_insertMessage (msg : QueuedMessage) : schedule (s.insertMessage msg).1 id =
    if msg.messageId = id ∧ s.messages.find id = none then some (msg.attemptCount, msg.nextAttemptAt) else schedule s id := by
  unfold schedule OutboxStore.insertMessage
  dsimp only
  rw [Table.find_insertNew]
  split
  · rfl
  · rfl

end Schedule

/-! ## Tasks that have to do with a message -/

def Origin.queue : Origin → List QueuedMessage
  | .loop _ rest => rest
  | .immediate _ => []

/-- The copies of a message in a list. -/
def copies (id : Bytes) (queue : List QueuedMessage) : List QueuedMessage := queue.filter (fun m => decide (m.messageId = id))

/-- The task will read the message, or has a copy of it. -/
def Task.touches (id : Bytes) : Task → Bool
  | .read id' _ => decide (id' = id)
  | .loop _ queue => decide (copies id queue ≠ [])
  | .inboxes origin msg _ => decide (copies id (msg :: origin.queue) ≠ [])
  | .failed origin msg => decide (copies id (msg :: origin.queue) ≠ [])
  | .replicate _ _ => false
  | .broadcast _ => false

/-- A round of attempts for the message begins. -/
def Task.begins (s : OutboxStore) (id : Bytes) : Task → Bool
  | .read id' _ => decide (id' = id ∧ ∃ m ∈ s.getMessage id', m.status = .pending)
  | .loop .retry (msg :: _) => decide (msg.messageId = id)
  | _ => false

/-- A call of `attempt_delivery` for the message returns true. -/
def Task.succeeds (env : Env) (id : Bytes) : Task → Bool
  | .inboxes _ msg (ri :: _) =>
    decide (msg.messageId = id ∧ env.ensureChannel (bytesToHex ri.keyCPubkey) ≠ none ∧ env.sendOk = true)
  | _ => false

/-- A round for the message ends, with an attempt or because no inbox was reached. -/
def Task.ends (env : Env) (id : Bytes) : Task → Bool
  | .inboxes (.loop .burst _) _ _ => false
  | .failed _ msg => decide (msg.messageId = id)
  | task => task.succeeds env id

/-- The request that queued the message has not finished its attempt. -/
def Task.attempting (id : Bytes) : Task → Bool
  | .read id' _ => decide (id' = id)
  | .inboxes (.immediate _) msg _ => decide (msg.messageId = id)
  | .failed (.immediate _) msg => decide (msg.messageId = id)
  | _ => false

section Copies
variable {id : Bytes} {msg m : QueuedMessage} {rest queue : List QueuedMessage}

theorem copies_cons_of_eq (h : msg.messageId = id) : copies id (msg :: rest) = msg :: copies id rest := by
  unfold copies
  rw [List.filter_cons, if_pos (decide_eq_true h)]

theorem copies_cons_of_ne (h : msg.messageId ≠ id) : copies id (msg :: rest) = copies id rest := by
  unfold copies
  rw [List.filter_cons, if_neg (by simpa using h)]

theorem copies_eq_nil_iff : copies id queue = [] ↔ ∀ m ∈ queue, m.messageId ≠ id := by
  unfold copies
  rw [List.filter_eq_nil_iff]
  simp

/-- A list of rows has the message once, as it is in the store. -/
theorem copies_filter_rows {s : OutboxStore} (f : QueuedMessage → Bool) :
    copies id (s.messages.rows.filter f) = ((s.messages.find id).filter f).toList := by
  rw [← s.messages.find_filter]
  exact (s.messages.filter f).filter_key_eq_toList id

end Copies

/-! ## What is still to come for a message -/

/-- A task with a copy of a message whose row counts `count` attempts, of which `n` rounds have begun. -/
inductive Owner (cfg : Config) (id : Bytes) (count : ℤ) : ℕ → Task → Prop
  | reading {andThen : Option Broadcast} (hzero : count = 0) : Owner cfg id count 0 (.read id andThen)
  | listed {n : ℕ} {queue : List QueuedMessage} {m : QueuedMessage} (hcopies : copies id queue = [m])
      (hm : m.attemptCount = count) (hn : n = count) (hlt : count < cfg.maxRetries) : Owner cfg id count n (.loop .retry queue)
  | behind {n : ℕ} {rest : List QueuedMessage} {msg m : QueuedMessage} {todo : List RecipientInbox} (hne : msg.messageId ≠ id)
      (hcopies : copies id rest = [m]) (hm : m.attemptCount = count) (hn : n = count) (hlt : count < cfg.maxRetries) :
      Owner cfg id count n (.inboxes (.loop .retry rest) msg todo)
  | behindFailed {n : ℕ} {rest : List QueuedMessage} {msg m : QueuedMessage} (hne : msg.messageId ≠ id)
      (hcopies : copies id rest = [m]) (hm : m.attemptCount = count) (hn : n = count) (hlt : count < cfg.maxRetries) :
      Owner cfg id count n (.failed (.loop .retry rest) msg)
  | trying {n : ℕ} {origin : Origin} {msg : QueuedMessage} {todo : List RecipientInbox} (hkind : ∀ rest, origin ≠ .loop .burst rest)
      (hid : msg.messageId = id) (hrest : copies id origin.queue = []) (hm : msg.attemptCount = count) (hn : n = count + 1)
      (hle : n ≤ cfg.maxRetries) : Owner cfg id count n (.inboxes origin msg todo)
  | failing {n : ℕ} {origin : Origin} {msg : QueuedMessage} (hid : msg.messageId = id) (hrest : copies id origin.queue = [])
      (hm : msg.attemptCount = count) (hn : n = count + 1) (hle : n ≤ cfg.maxRetries) : Owner cfg id count n (.failed origin msg)

theorem Origin.immediate_ne_burst (andThen : Option Broadcast) (rest : List QueuedMessage) :
    Origin.immediate andThen ≠ .loop .burst rest := by
  intro h
  cases h

theorem Origin.retry_ne_burst (rest rest' : List QueuedMessage) : Origin.loop .retry rest ≠ .loop .burst rest' := by
  intro h
  cases h

/-- Not queued yet, waiting, or in the hands of one task. -/
inductive Standing (cfg : Config) (id : Bytes) (n : ℕ) (s : OutboxStore) : List Task → Prop
  | absent (hrow : schedule s id = none) (hn : n = 0) : Standing cfg id n s []
  | idle {nextAt : ℤ} (hrow : schedule s id = some ((n : ℤ), nextAt)) (hle : n ≤ cfg.maxRetries)
      (hnext : nextAt ≠ 0 → n < cfg.maxRetries) : Standing cfg id n s []
  | owned {count nextAt : ℤ} {task : Task} (hrow : schedule s id = some (count, nextAt)) (h : Owner cfg id count n task) :
      Standing cfg id n s [task]

def busy (id : Bytes) (tasks : List Task) : List Task := tasks.filter (Task.touches id)

section Work
variable {cfg : Config} {env : Env} {s : OutboxStore} {id : Bytes} {task : Task}

theorem touches_loop {kind : Loop} {queue : List QueuedMessage} :
    (Task.loop kind queue).touches id = false ↔ copies id queue = [] := by
  simp [Task.touches]

theorem touches_inboxes {origin : Origin} {msg : QueuedMessage} {todo : List RecipientInbox} :
    (Task.inboxes origin msg todo).touches id = false ↔ copies id (msg :: origin.queue) = [] := by
  simp [Task.touches]

theorem touches_failed {origin : Origin} {msg : QueuedMessage} :
    (Task.failed origin msg).touches id = false ↔ copies id (msg :: origin.queue) = [] := by
  simp [Task.touches]

theorem touches_finish {id' : Bytes} {andThen : Option Broadcast} {task : Task} (h : (finish id' andThen).1 = some task) :
    task.touches id = false := by
  cases andThen with
  | none => cases h
  | some b =>
    cases h
    rfl

theorem touches_afterSuccess {origin : Origin} {msg : QueuedMessage} (h : copies id origin.queue = []) :
    (afterSuccess msg origin).touches id = false := by
  cases origin with
  | loop kind rest => exact touches_loop.mpr h
  | immediate andThen => rfl

theorem touches_afterInboxes {origin : Origin} {msg : QueuedMessage} (h : copies id (msg :: origin.queue) = []) :
    (afterInboxes msg origin).touches id = false := by
  cases origin with
  | loop kind rest =>
    cases kind with
    | burst =>
      rw [copies_eq_nil_iff] at h
      exact touches_loop.mpr (copies_eq_nil_iff.mpr (fun m hm => h m (List.mem_cons_of_mem _ hm)))
    | retry => exact touches_failed.mpr h
  | immediate andThen => exact touches_failed.mpr h

theorem copies_tail {msg : QueuedMessage} {rest : List QueuedMessage} (h : copies id (msg :: rest) = []) :
    msg.messageId ≠ id ∧ copies id rest = [] := by
  rw [copies_eq_nil_iff] at h
  exact ⟨h msg List.mem_cons_self, copies_eq_nil_iff.mpr (fun m hm => h m (List.mem_cons_of_mem _ hm))⟩

theorem free_none (id : Bytes) : ∀ task ∈ (none : Option Task), task.touches id = false := by
  intro task h
  cases h

/-- What a task leaves of a message that it does not touch: all of it, unless it queues the message and will read it. -/
def Untouched (id : Bytes) (s s' : OutboxStore) (task? : Option Task) : Prop :=
  (schedule s' id = schedule s id ∧ ∀ task ∈ task?, task.touches id = false) ∨
    (schedule s id = none ∧ ∃ nextAt andThen, schedule s' id = some (0, nextAt) ∧ task? = some (.read id andThen))

/-- A message is queued and will be read. -/
theorem untouched_insertMessage {s s' : OutboxStore} (msg : QueuedMessage) {andThen : Option Broadcast} (id : Bytes)
    (hins : (s.insertMessage msg).2 = true) (hmessages : s'.messages = (s.insertMessage msg).1.messages)
    (hcount : msg.attemptCount = 0) : Untouched id s s' (some (.read msg.messageId andThen)) := by
  have hnone : s.messages.find msg.messageId = none := Table.find_none_of_insertNew hins
  have hschedule := schedule_insertMessage s id msg
  rw [← schedule_of_messages hmessages] at hschedule
  by_cases hid : msg.messageId = id
  · subst hid
    refine Or.inr ⟨(schedule_eq_none_iff s _).mpr hnone, msg.nextAttemptAt, andThen, ?_, rfl⟩
    rw [hschedule, if_pos ⟨rfl, hnone⟩, hcount]
  · refine Or.inl ⟨?_, ?_⟩
    · rw [hschedule, if_neg (fun h => hid h.1)]
    · rintro task ⟨⟩
      exact decide_eq_false hid

theorem untouched_broadcastNext (s : OutboxStore) (id : Bytes) (b : Broadcast) :
    Untouched id s (broadcastNext s b).1 (broadcastNext s b).2.1 := by
  obtain hnext | ⟨rest, hnext⟩ | ⟨rest, kb, inbox, hnew, hnext⟩ := broadcastNext_cases s b
  · rw [hnext]
    exact Or.inl ⟨rfl, fun _ h => absurd h (by simp)⟩
  · rw [hnext]
    refine Or.inl ⟨rfl, ?_⟩
    rintro task ⟨⟩
    rfl
  · rw [hnext]
    exact untouched_insertMessage (broadcastMessage { b with todo := rest } kb) id (insertMessage_of_find_none hnew).2
      (addInbox_messages _ _ _) rfl

theorem untouched_work (hfree : task.touches id = false) :
    Untouched id s (work cfg env s task).1 (work cfg env s task).2.1 := by
  cases task with
  | read id' andThen =>
    have hne : id' ≠ id := of_decide_eq_false hfree
    rw [work]
    cases hmsg : s.getMessage id' with
    | none => exact Or.inl ⟨rfl, fun _ h => touches_finish h⟩
    | some msg =>
      dsimp only
      split
      · refine Or.inl ⟨rfl, ?_⟩
        rintro task ⟨⟩
        rw [touches_inboxes, copies_cons_of_ne (by rw [Table.key_of_find hmsg]; exact hne)]
        rfl
      · exact Or.inl ⟨rfl, fun _ h => touches_finish h⟩
  | loop kind queue =>
    cases queue with
    | nil => exact Or.inl ⟨rfl, fun _ h => absurd h (by simp [work])⟩
    | cons msg rest =>
      refine Or.inl ⟨rfl, ?_⟩
      rintro task ⟨⟩
      exact touches_inboxes.mpr (touches_loop.mp hfree)
  | inboxes origin msg todo =>
    have hcopies := touches_inboxes.mp hfree
    cases todo with
    | nil =>
      refine Or.inl ⟨rfl, ?_⟩
      rintro task ⟨⟩
      exact touches_afterInboxes hcopies
    | cons ri todo =>
      rw [work]
      split
      · refine Or.inl ⟨rfl, ?_⟩
        rintro task ⟨⟩
        exact touches_afterSuccess (copies_tail hcopies).2
      · refine Or.inl ⟨rfl, ?_⟩
        rintro task ⟨⟩
        exact touches_inboxes.mpr hcopies
  | failed origin msg =>
    obtain ⟨hne, hrest⟩ := copies_tail (touches_failed.mp hfree)
    obtain ⟨nextAt, hcount⟩ := countAttempt_eq cfg env s origin msg
    rw [work, hcount]
    refine Or.inl ⟨?_, ?_⟩
    · rw [schedule_updateAttempt, if_neg hne]
    · rintro task ⟨⟩
      exact touches_afterSuccess hrest
  | replicate id' andThen => exact Or.inl ⟨rfl, fun _ h => touches_finish h⟩
  | broadcast b => exact untouched_broadcastNext s id b

theorem busy_some_of_touches (h : task.touches id = true) : busy id (some task).toList = [task] := by
  unfold busy
  rw [Option.toList_some, List.filter_cons, if_pos h, List.filter_nil]

theorem busy_of_free {task? : Option Task} (h : ∀ task ∈ task?, task.touches id = false) : busy id task?.toList = [] := by
  unfold busy
  rw [List.filter_eq_nil_iff]
  intro task htask
  rw [h task (Option.mem_toList.mp htask)]
  exact Bool.false_ne_true

theorem Owner.touches {count : ℤ} {n : ℕ} (h : Owner cfg id count n task) : task.touches id = true := by
  cases h with
  | reading => exact decide_eq_true rfl
  | listed hcopies => simp [Task.touches, hcopies]
  | behind hne hcopies => simp [Task.touches, Origin.queue, copies_cons_of_ne hne, hcopies]
  | behindFailed hne hcopies => simp [Task.touches, Origin.queue, copies_cons_of_ne hne, hcopies]
  | trying _ hid => simp [Task.touches, copies_cons_of_eq hid]
  | failing hid => simp [Task.touches, copies_cons_of_eq hid]

/-- A round that failed is counted, and the next one comes later or not at all. -/
theorem schedule_countAttempt (cfg : Config) (env : Env) (origin : Origin) {msg : QueuedMessage} {row : ℤ × ℤ} (hrow : schedule s msg.messageId = some row) :
    ∃ nextAt, schedule (countAttempt cfg env s origin msg) msg.messageId = some (msg.attemptCount + 1, nextAt) ∧
      (nextAt = 0 ∨ env.nowMs < nextAt) ∧ (nextAt ≠ 0 → msg.attemptCount + 1 < cfg.maxRetries) := by
  unfold countAttempt
  dsimp only
  split
  · refine ⟨0, ?_, Or.inl rfl, fun h => absurd rfl h⟩
    rw [schedule_updateAttempt, if_pos rfl, hrow]
    rfl
  · rename_i hwindow
    have hdelay : 0 < delayMs (msg.attemptCount + 1) := by
      unfold delayMs
      positivity
    refine ⟨env.nowMs + delayMs (msg.attemptCount + 1), ?_, Or.inr (by omega), fun _ => by omega⟩
    rw [schedule_updateAttempt, if_pos rfl, hrow]
    rfl

section Owned
variable {count nextAt : ℤ} {n : ℕ}

theorem Owner.standing (h : Owner cfg id count n task) (hrow : schedule s id = some (count, nextAt)) :
    Standing cfg id n s (busy id (some task).toList) := by
  rw [busy_some_of_touches h.touches]
  exact .owned hrow h

/-- The message is read, and a round begins if it is still pending. -/
theorem standing_read {andThen : Option Broadcast} (hmax : 1 ≤ cfg.maxRetries) (hrow : schedule s id = some (0, nextAt)) :
    Standing cfg id (0 + ((Task.read id andThen).begins s id).toNat) (work cfg env s (.read id andThen)).1
      (busy id (work cfg env s (.read id andThen)).2.1.toList) := by
  obtain ⟨row, hfind, hschedule⟩ := Option.map_eq_some_iff.mp hrow
  obtain ⟨hcount, _⟩ := Prod.ext_iff.mp hschedule
  have hget : s.getMessage id = some row := hfind
  rw [work, hget]
  dsimp only
  by_cases hpending : row.status = .pending
  · have hbegins : (Task.read id andThen).begins s id = true := by simp [Task.begins, hget, hpending]
    have howner : Owner cfg id 0 1 (.inboxes (.immediate andThen) row (s.getRecipientInboxes id)) :=
      .trying (Origin.immediate_ne_burst andThen) (Table.key_of_find hfind) rfl hcount rfl hmax
    rw [if_pos hpending, hbegins]
    exact howner.standing hrow
  · have hbegins : (Task.read id andThen).begins s id = false := by simp [Task.begins, hget, hpending]
    rw [if_neg hpending, hbegins, busy_of_free (fun _ h => touches_finish h)]
    exact .idle hrow (by simpa using by omega) (fun _ => by simpa using by omega)

/-- The next message of the list begins its round; the others wait behind it. -/
theorem standing_listed {queue : List QueuedMessage} {m : QueuedMessage} (hrow : schedule s id = some (count, nextAt))
    (hcopies : copies id queue = [m]) (hm : m.attemptCount = count) (hn : n = count) (hlt : count < cfg.maxRetries) :
    Standing cfg id (n + ((Task.loop .retry queue).begins s id).toNat) (work cfg env s (.loop .retry queue)).1
      (busy id (work cfg env s (.loop .retry queue)).2.1.toList) := by
  cases queue with
  | nil => cases hcopies
  | cons msg rest =>
    by_cases hid : msg.messageId = id
    · rw [copies_cons_of_eq hid] at hcopies
      obtain ⟨rfl, hrest⟩ := List.cons.inj hcopies
      have hbegins : (Task.loop .retry (msg :: rest)).begins s id = true := decide_eq_true hid
      have howner : Owner cfg id count (n + 1) (.inboxes (.loop .retry rest) msg (s.getRecipientInboxes msg.messageId)) :=
        .trying (Origin.retry_ne_burst rest) hid hrest hm (by push_cast; omega) (by push_cast; omega)
      rw [work, hbegins]
      exact howner.standing hrow
    · rw [copies_cons_of_ne hid] at hcopies
      have hbegins : (Task.loop .retry (msg :: rest)).begins s id = false := decide_eq_false hid
      have howner : Owner cfg id count n (.inboxes (.loop .retry rest) msg (s.getRecipientInboxes msg.messageId)) :=
        .behind hid hcopies hm hn hlt
      rw [work, hbegins]
      exact howner.standing hrow

/-- While another message is tried, this one stays in the list. -/
theorem standing_behind {rest : List QueuedMessage} {msg m : QueuedMessage} {todo : List RecipientInbox}
    (hrow : schedule s id = some (count, nextAt)) (hne : msg.messageId ≠ id) (hcopies : copies id rest = [m]) (hm : m.attemptCount = count)
    (hn : n = count) (hlt : count < cfg.maxRetries) :
    Standing cfg id n (work cfg env s (.inboxes (.loop .retry rest) msg todo)).1
      (busy id (work cfg env s (.inboxes (.loop .retry rest) msg todo)).2.1.toList) := by
  cases todo with
  | nil =>
    have howner : Owner cfg id count n (.failed (.loop .retry rest) msg) := .behindFailed hne hcopies hm hn hlt
    rw [work, afterInboxes]
    · exact howner.standing hrow
    · exact Origin.retry_ne_burst rest
  | cons ri todo =>
    rw [work]
    split
    · have hlisted : Owner cfg id count n (.loop .retry rest) := .listed hcopies hm hn hlt
      rw [afterSuccess]
      exact hlisted.standing hrow
    · have howner : Owner cfg id count n (.inboxes (.loop .retry rest) msg todo) := .behind hne hcopies hm hn hlt
      exact howner.standing hrow

/-- An attempt that fails goes on to the next inbox, and after the last one the round has failed. -/
theorem standing_trying {origin : Origin} {msg : QueuedMessage} {todo : List RecipientInbox} (hrow : schedule s id = some (count, nextAt))
    (hkind : ∀ rest, origin ≠ .loop .burst rest) (hid : msg.messageId = id) (hrest : copies id origin.queue = [])
    (hm : msg.attemptCount = count) (hn : n = count + 1) (hle : n ≤ cfg.maxRetries)
    (hfails : (Task.inboxes origin msg todo).succeeds env id = false) :
    Standing cfg id n (work cfg env s (.inboxes origin msg todo)).1 (busy id (work cfg env s (.inboxes origin msg todo)).2.1.toList) := by
  cases todo with
  | nil =>
    have hafter : afterInboxes msg origin = .failed origin msg := by
      unfold afterInboxes
      split
      · rename_i rest
        exact absurd rfl (hkind rest)
      · rfl
    have howner : Owner cfg id count n (.failed origin msg) := .failing hid hrest hm hn hle
    rw [work, hafter]
    exact howner.standing hrow
  | cons ri todo =>
    have hfalse : (attemptDelivery env msg ri).1 = false := by
      unfold attemptDelivery
      split
      · rfl
      · rename_i chan hchan
        simpa [Task.succeeds, hid, hchan] using hfails
    have howner : Owner cfg id count n (.inboxes origin msg todo) := .trying hkind hid hrest hm hn hle
    rw [work]
    split
    · rename_i out hattempt
      rw [hattempt] at hfalse
      cases hfalse
    · exact howner.standing hrow

/-- What a task makes of a message that it holds, and that no attempt reaches. -/
theorem standing_work (hmax : 1 ≤ cfg.maxRetries) (hrow : schedule s id = some (count, nextAt)) (h : Owner cfg id count n task)
    (hfails : task.succeeds env id = false) :
    Standing cfg id (n + (task.begins s id).toNat) (work cfg env s task).1 (busy id (work cfg env s task).2.1.toList) := by
  cases h with
  | reading hzero =>
    subst hzero
    exact standing_read hmax hrow
  | listed hcopies hm hn hlt => exact standing_listed hrow hcopies hm hn hlt
  | behind hne hcopies hm hn hlt => exact standing_behind hrow hne hcopies hm hn hlt
  | @behindFailed _ rest msg m hne hcopies hm hn hlt =>
    have hlisted : Owner cfg id count n (.loop .retry rest) := .listed hcopies hm hn hlt
    obtain ⟨nextAt', hcount⟩ := countAttempt_eq cfg env s (.loop .retry rest) msg
    have hother : schedule (s.updateAttempt msg.messageId (msg.attemptCount + 1) nextAt') id = some (count, nextAt) := by
      rw [schedule_updateAttempt, if_neg hne, hrow]
    rw [work, afterSuccess, hcount]
    exact hlisted.standing hother
  | trying hkind hid hrest hm hn hle => exact standing_trying hrow hkind hid hrest hm hn hle hfails
  | @failing _ origin msg hid hrest hm hn hle =>
    subst hid
    obtain ⟨nextAt', hschedule, _, hnext⟩ := schedule_countAttempt cfg env origin hrow
    have hfree : ∀ task ∈ some (afterSuccess msg origin), task.touches msg.messageId = false := by
      rintro task ⟨⟩
      exact touches_afterSuccess hrest
    rw [work, busy_of_free hfree]
    rw [hm, ← hn] at hschedule
    refine .idle hschedule hle ?_
    intro h
    have hlt := hnext h
    rw [hm, ← hn] at hlt
    exact hlt

end Owned

end Work

end ScatterWeb.Outbox
