import ScatterWeb.Outbox.Schedule

/-! # How often a message is tried

`immediate_attempt` and the retry loop count a round of attempts, and set the time of the next one, only when it failed. A round
that ends with an attempt leaves the message due, and the request and the loop may both take up a message that is just
queued. In a run where no attempt succeeds and the loop does not list a message that the request still works on, there are
at most `max_retries` rounds, each followed by passive waiting or a later time. -/
namespace ScatterWeb.Outbox
open Crypto Lib Lib.Cbor Client Mailbox
set_option autoImplicit false

/-! ## Events -/

def Outcome.task? : Outcome → Option Task
  | .started _ task => some task
  | .done _ _ => none

section Events
variable (load : Bytes → Option Item) (cfg : Config) (id : Bytes)

/-- The task that goes on at an event, with what it reads from outside. -/
def Process.running (p : Process) : Event → Option (Env × Task)
  | .work env index => p.tasks[index]?.map (fun task => (env, task))
  | _ => none

/-- A round of attempts for the message begins at the event. -/
def beginsRound (p : Process) (e : Event) : Bool := (p.running e).any (fun r => r.2.begins p.store id)

/-- The number of rounds of attempts that a run begins for the message. -/
def rounds : Process → List Event → ℕ
  | _, [] => 0
  | p, e :: es => (beginsRound id p e).toNat + rounds (next load cfg p e) es

/-- An attempt to deliver the message succeeds. -/
def Succeeds (p : Process) (e : Event) : Prop := ∃ env task, p.running e = some (env, task) ∧ task.succeeds env id = true

/-- The retry loop lists the message while the request that queued it has not finished its attempt. -/
def Races (p : Process) (e : Event) : Prop :=
  ∃ env, e = .retry env ∧ (∃ m ∈ p.store.listDue env.nowMs, m.messageId = id) ∧ ∃ task ∈ p.tasks, task.attempting id = true

/-- After a round the message waits passively or until a later time. -/
def Scheduled (p : Process) (e : Event) : Prop := ∀ env task, p.running e = some (env, task) → task.ends env id = true →
  ∃ m, (next load cfg p e).store.messages.find id = some m ∧ (m.nextAttemptAt = 0 ∨ env.nowMs < m.nextAttemptAt)

/-- The start of a process on a database. -/
def started (s : OutboxStore) : Process := ⟨s, [.loop .burst s.listPending]⟩

variable {load cfg id} {env : Env} {s s' : OutboxStore} {p : CborMap} {q : Process}

theorem untouched_enqueue {task : Task} (h : enqueue load env s p = .ok (s', task)) (id : Bytes) : Untouched id s s' (some task) := by
  obtain ⟨frame, _, h⟩ := bind_eq_ok.mp h
  obtain ⟨hdr, _, h⟩ := bind_eq_ok.mp h
  split at h
  · cases h
  · rename_i s1 hins
    obtain ⟨hs1, hflag⟩ := Prod.ext_iff.mp hins
    cases h
    refine untouched_insertMessage (queuedMessage env frame hdr p) id hflag ?_ rfl
    rw [foldl_addRecipientInbox_messages, hs1]

/-- A request keeps the schedule, or queues the message and will read it. -/
theorem untouched_handle {method : String} {out : Outcome} (h : handle load env s method p = .ok out) (id : Bytes) :
    Untouched id s out.store out.task? := by
  cases handled_of_handle h with
  | enqueue hr => exact untouched_enqueue hr id
  | broadcast b =>
    refine Or.inl ⟨rfl, ?_⟩
    rintro task ⟨⟩
    rfl
  | cancel hr =>
    obtain ⟨id', _, hr⟩ := bind_eq_ok.mp hr
    refine Or.inl ⟨?_, free_none id⟩
    split at hr
    · cases hr
      exact schedule_setStatus s id id' _
    · cases hr
  | keeps hkeeps => exact Or.inl ⟨schedule_of_messages hkeeps.1 id, free_none id⟩

theorem busy_append (tasks tasks' : List Task) : busy id (tasks ++ tasks') = busy id tasks ++ busy id tasks' := List.filter_append ..

theorem Standing.congr {n : ℕ} {tasks : List Task} (h : Standing cfg id n s tasks) (hschedule : schedule s' id = schedule s id) :
    Standing cfg id n s' tasks := by
  cases h with
  | absent hrow hn => exact .absent (hschedule.trans hrow) hn
  | idle hrow hle hnext => exact .idle (hschedule.trans hrow) hle hnext
  | owned hrow howner => exact .owned (hschedule.trans hrow) howner

/-- A task that does not touch the message goes on among the others. -/
theorem Standing.insert {n : ℕ} {l r : List Task} {task? : Option Task} (h : Standing cfg id n s (busy id l ++ busy id r))
    (hun : Untouched id s s' task?) : Standing cfg id n s' (busy id l ++ busy id task?.toList ++ busy id r) := by
  rcases hun with ⟨hschedule, hfree⟩ | ⟨hnone, nextAt, andThen, hrow, rfl⟩
  · rw [busy_of_free hfree, List.append_nil]
    exact h.congr hschedule
  · generalize hboth : busy id l ++ busy id r = both at h
    cases h with
    | absent _ hn =>
      obtain ⟨hl, hr⟩ := List.append_eq_nil_iff.mp hboth
      have howner : Owner cfg id 0 0 (.read id andThen) := .reading rfl
      rw [hl, hr, busy_some_of_touches howner.touches, hn]
      exact .owned hrow howner
    | idle hrow' => rw [hnone] at hrow'; cases hrow'
    | owned hrow' => rw [hnone] at hrow'; cases hrow'

theorem next_ipc {method : String} {out : Outcome} (h : handle load env q.store method p = .ok out) :
    next load cfg q (.ipc env method p) = ⟨out.store, q.tasks ++ out.task?.toList⟩ := by
  unfold next
  rw [step, h]
  cases out with
  | started store task => rfl
  | done store reply =>
    rw [Outcome.task?, Option.toList_none, List.append_nil]
    rfl

/-- Apart from the loops, only the request that queued a message touches it. -/
theorem attempting_of_touches {task : Task} (htouches : task.touches id = true) (hloop : task.isLoop = false) :
    task.attempting id = true := by
  cases task with
  | read id' andThen => exact htouches
  | loop kind queue => cases hloop
  | inboxes origin msg todo =>
    cases origin with
    | loop kind rest => cases hloop
    | immediate andThen =>
      by_contra hne
      have hid : msg.messageId ≠ id := of_decide_eq_false (Bool.eq_false_iff.mpr hne)
      rw [touches_inboxes.mpr (copies_cons_of_ne hid)] at htouches
      cases htouches
  | failed origin msg =>
    cases origin with
    | loop kind rest => cases hloop
    | immediate andThen =>
      by_contra hne
      have hid : msg.messageId ≠ id := of_decide_eq_false (Bool.eq_false_iff.mpr hne)
      rw [touches_failed.mpr (copies_cons_of_ne hid)] at htouches
      cases htouches
  | replicate id' andThen => cases htouches
  | broadcast b => cases htouches

theorem touches_of_begins {task : Task} (h : task.begins s id = true) : task.touches id = true := by
  unfold Task.begins at h
  split at h
  · exact decide_eq_true (of_decide_eq_true h).1
  · rename_i msg rest
    simp [Task.touches, copies_cons_of_eq (of_decide_eq_true h)]
  · cases h

theorem standing_retry {n : ℕ} (h : Standing cfg id n q.store (busy id q.tasks)) (hrace : ¬Races id q (.retry env)) :
    Standing cfg id n (next load cfg q (.retry env)).store (busy id (next load cfg q (.retry env)).tasks) := by
  unfold next
  rw [step]
  by_cases hloop : q.tasks.any Task.isLoop = true
  · rw [if_pos hloop]
    exact h
  rw [if_neg hloop]
  dsimp only
  rw [busy_append]
  have hcopies : copies id (q.store.listDue env.nowMs) = _ := copies_filter_rows _
  rcases hdue : (q.store.messages.find id).filter (fun m => decide (m.status = .pending ∧ 0 < m.nextAttemptAt ∧
    m.nextAttemptAt ≤ env.nowMs)) with _ | m
  · rw [hdue] at hcopies
    rw [busy, busy, List.filter_singleton, touches_loop.mpr hcopies, cond_false, List.append_nil]
    exact h
  · rw [hdue] at hcopies
    obtain ⟨hfind, hm⟩ := Option.filter_eq_some_iff.mp hdue
    obtain ⟨hpending, hpos, hnow⟩ := of_decide_eq_true hm
    have hschedule : schedule q.store id = some (m.attemptCount, m.nextAttemptAt) := by
      unfold schedule
      rw [hfind, Option.map_some]
    generalize hbusy : busy id q.tasks = both at h
    cases h with
    | absent hrow hn =>
      rw [hschedule] at hrow
      cases hrow
    | idle hrow hle hnext =>
      obtain ⟨hcount, rfl⟩ := Prod.ext_iff.mp (Option.some.inj (hschedule.symm.trans hrow))
      have howner : Owner cfg id n n (.loop .retry (q.store.listDue env.nowMs)) :=
        .listed hcopies hcount rfl (hnext (by omega))
      rw [List.nil_append, busy, List.filter_singleton, howner.touches, cond_true]
      exact .owned hrow howner
    | @owned _ _ task hrow howner =>
      have hmem : task ∈ q.tasks.filter (Task.touches id) := by
        change busy id q.tasks = [task] at hbusy
        unfold busy at hbusy
        rw [hbusy]
        exact List.mem_singleton.mpr rfl
      obtain ⟨htask, htouches⟩ := List.mem_filter.mp hmem
      have hother : task.isLoop = false := by
        by_contra his
        exact hloop (List.any_eq_true.mpr ⟨task, htask, by simpa using his⟩)
      refine absurd ⟨env, rfl, ⟨m, ?_, Table.key_of_find hfind⟩, task, htask, attempting_of_touches htouches hother⟩ hrace
      exact List.mem_filter.mpr ⟨Table.mem_of_find hfind, hm⟩

theorem standing_running {n : ℕ} {index : ℕ} {task : Task} (hmax : 1 ≤ cfg.maxRetries) (htask : q.tasks[index]? = some task)
    (h : Standing cfg id n q.store (busy id q.tasks)) (hfails : task.succeeds env id = false) :
    Standing cfg id (n + (task.begins q.store id).toNat) (next load cfg q (.work env index)).store
      (busy id (next load cfg q (.work env index)).tasks) := by
  obtain ⟨l, r, htasks, hnext⟩ := next_work load cfg env htask
  rw [hnext]
  dsimp only
  rw [busy_append, busy_append]
  rw [htasks, busy_append] at h
  by_cases htouches : task.touches id = true
  · -- The task is the one that holds the message.
    have hcons : busy id (task :: r) = task :: busy id r := by
      unfold busy
      rw [List.filter_cons, if_pos htouches]
    rw [hcons] at h
    generalize hboth : busy id l ++ task :: busy id r = both at h
    cases h with
    | absent => simp at hboth
    | idle => simp at hboth
    | @owned _ _ task' hrow howner =>
      have hl : busy id l = [] := by
        rcases hl : busy id l with _ | ⟨a, as⟩
        · rfl
        · rw [hl] at hboth
          simp at hboth
      rw [hl, List.nil_append] at hboth ⊢
      obtain ⟨rfl, hr⟩ := List.cons.inj hboth
      rw [hr, List.append_nil]
      exact standing_work hmax hrow howner hfails
  · have hfree : task.touches id = false := Bool.eq_false_iff.mpr htouches
    have hcons : busy id (task :: r) = busy id r := by
      unfold busy
      rw [List.filter_cons, if_neg htouches]
    have hbegins : task.begins q.store id = false := by
      by_contra hne
      exact htouches (touches_of_begins (by simpa using hne))
    rw [hcons] at h
    rw [hbegins]
    exact h.insert (untouched_work hfree)

/-- What one step preserves. -/
theorem standing_next (load : Bytes → Option Item) {n : ℕ} {e : Event} (hmax : 1 ≤ cfg.maxRetries) (h : Standing cfg id n q.store (busy id q.tasks))
    (hrestart : e ≠ .restart) (hfails : ¬Succeeds id q e) (hrace : ¬Races id q e) :
    Standing cfg id (n + (beginsRound id q e).toNat) (next load cfg q e).store (busy id (next load cfg q e).tasks) := by
  cases e with
  | frame channelId body => exact h.congr (schedule_onFrame q.store id load channelId body)
  | ipc env method p =>
    cases hhandle : handle load env q.store method p with
    | error err =>
      unfold next
      rw [step, hhandle]
      exact h
    | ok out =>
      rw [next_ipc hhandle]
      dsimp only
      rw [busy_append, ← List.append_nil (busy id q.tasks ++ _)]
      refine Standing.insert (r := []) ?_ (untouched_handle hhandle id)
      rw [show busy id [] = [] from rfl, List.append_nil]
      exact h
  | retry env => exact standing_retry h hrace
  | maintenance env => exact h.congr (schedule_expireMessages q.store id env.nowMs)
  | work env index =>
    cases htask : q.tasks[index]? with
    | none =>
      have hbegins : beginsRound id q (.work env index) = false := by simp [beginsRound, Process.running, htask]
      unfold next
      rw [step, htask, hbegins]
      exact h
    | some task =>
      have hrunning : q.running (.work env index) = some (env, task) := by rw [Process.running, htask]; rfl
      have hbegins : beginsRound id q (.work env index) = task.begins q.store id := by rw [beginsRound, hrunning]; rfl
      rw [hbegins]
      refine standing_running hmax htask h ?_
      by_contra hsucceeds
      exact hfails ⟨env, task, hrunning, by simpa using hsucceeds⟩
  | restart => exact absurd rfl hrestart

theorem Standing.le {n : ℕ} {tasks : List Task} (hmax : 1 ≤ cfg.maxRetries) (h : Standing cfg id n s tasks) : n ≤ cfg.maxRetries := by
  cases h with
  | absent _ hn =>
    subst hn
    exact le_trans (by norm_num) hmax
  | idle _ hle _ => exact hle
  | owned _ howner =>
    cases howner with
    | reading => exact le_trans (by norm_num) hmax
    | listed _ _ hn hlt => omega
    | behind _ _ _ hn hlt => omega
    | behindFailed _ _ _ hn hlt => omega
    | trying _ _ _ _ _ hle => exact hle
    | failing _ _ _ _ hle => exact hle

theorem schedule_of_touches {n : ℕ} {task : Task} (h : Standing cfg id n s (busy id q.tasks)) (htask : task ∈ q.tasks)
    (htouches : task.touches id = true) : ∃ row, schedule s id = some row := by
  have hmem : task ∈ busy id q.tasks := List.mem_filter.mpr ⟨htask, htouches⟩
  generalize busy id q.tasks = both at h hmem
  cases h with
  | absent => cases hmem
  | idle => cases hmem
  | owned hrow => exact ⟨_, hrow⟩

theorem scheduled_of_standing {n : ℕ} {e : Event} (h : Standing cfg id n q.store (busy id q.tasks)) (hfails : ¬Succeeds id q e) :
    Scheduled load cfg id q e := by
  intro env task hrunning hends
  unfold Task.ends at hends
  split at hends
  · cases hends
  · rename_i origin msg
    obtain rfl := of_decide_eq_true hends
    cases e with
    | work env' index =>
      obtain ⟨task, htask, heq⟩ := Option.map_eq_some_iff.mp hrunning
      cases heq
      obtain ⟨row, hrow⟩ := schedule_of_touches h (List.mem_of_getElem? htask) (by simp [Task.touches, copies_cons_of_eq])
      obtain ⟨l, r, _, hnext⟩ := next_work load cfg env htask
      obtain ⟨nextAt, hcount, hlater, _⟩ := schedule_countAttempt cfg env origin hrow
      rw [hnext]
      obtain ⟨m, hm, hm'⟩ := Option.map_eq_some_iff.mp hcount
      obtain ⟨_, rfl⟩ := Prod.ext_iff.mp hm'
      exact ⟨m, hm, hlater⟩
    | frame channelId body => cases hrunning
    | ipc env' method p => cases hrunning
    | retry env' => cases hrunning
    | maintenance env' => cases hrunning
    | restart => cases hrunning
  · exact absurd ⟨env, task, hrunning, hends⟩ hfails

/-- No attempt for the message succeeds, and the retry loop does not list it before the request has tried it. -/
def Undisturbed (id : Bytes) (p : Process) (e : Event) : Prop := ¬Succeeds id p e ∧ ¬Races id p e

/-- What a whole run preserves. -/
theorem rounds_le_of_standing (load : Bytes → Option Item) {es : List Event} (hmax : 1 ≤ cfg.maxRetries) (hrestart : .restart ∉ es)
    {n : ℕ} (h : Standing cfg id n q.store (busy id q.tasks)) (hrun : Along (next load cfg) (Undisturbed id) q es) :
    (n + rounds load cfg id q es : ℕ) ≤ cfg.maxRetries ∧ Along (next load cfg) (Scheduled load cfg id) q es := by
  induction es generalizing q n with
  | nil => exact ⟨h.le hmax, trivial⟩
  | cons e es ih =>
    obtain ⟨⟨hfails, hrace⟩, hrest⟩ := hrun
    have hne : e ≠ .restart := fun he => hrestart (he ▸ List.mem_cons_self)
    have hstanding := standing_next load hmax h hne hfails hrace
    obtain ⟨hle, halong⟩ := ih (fun hmem => hrestart (List.mem_cons_of_mem _ hmem)) hstanding hrest
    refine ⟨?_, scheduled_of_standing h hfails, halong⟩
    rw [rounds, ← Nat.add_assoc]
    exact hle

theorem standing_started (cfg : Config) (hnew : s.messages.find id = none) :
    Standing cfg id 0 (started s).store (busy id (started s).tasks) := by
  have hcopies : copies id s.listPending = [] := by
    refine copies_eq_nil_iff.mpr ?_
    intro m hm
    exact Table.find_eq_none_iff.mp hnew m (List.mem_of_mem_filter hm)
  rw [busy, started, List.filter_singleton, touches_loop.mpr hcopies, cond_false]
  exact .absent ((schedule_eq_none_iff s id).mpr hnew) rfl

/-- A process that is not started again tries a message that it queues in at most `max_retries` rounds, and after each of them
waits passively or until a later time, if no attempt succeeds and the retry loop leaves the first round to the request. -/
theorem rounds_le_maxRetries_of_undisturbed (load : Bytes → Option Item) (cfg : Config) (s : OutboxStore) (id : Bytes)
    {es : List Event} (hmax : 1 ≤ cfg.maxRetries) (hnew : s.messages.find id = none) (hrestart : .restart ∉ es)
    (hrun : Along (next load cfg) (Undisturbed id) (started s) es) :
    rounds load cfg id (started s) es ≤ cfg.maxRetries ∧ Along (next load cfg) (Scheduled load cfg id) (started s) es := by
  have h := rounds_le_of_standing load hmax hrestart (standing_started cfg hnew) hrun
  rw [Nat.zero_add] at h
  exact h

/-! ## Rounds that succeed -/

/-- The retry loop wakes up, takes the one message that is due, reaches its inbox and is done. -/
def tick (env : Env) : List Event := [.retry env, .work env 0, .work env 0, .work env 0]

def ticks (env : Env) : ℕ → List Event
  | 0 => []
  | k + 1 => tick env ++ ticks env k

/-- A round that succeeds leaves everything as it was. -/
theorem rounds_tick {msg : QueuedMessage} {ri : RecipientInbox} {todo : List RecipientInbox} (load : Bytes → Option Item) (cfg : Config)
    (hdue : s.listDue env.nowMs = [msg]) (hinboxes : s.getRecipientInboxes msg.messageId = ri :: todo)
    (hchan : env.ensureChannel (bytesToHex ri.keyCPubkey) ≠ none) (hsend : env.sendOk = true) (es : List Event) :
    rounds load cfg msg.messageId ⟨s, []⟩ (tick env ++ es) = 1 + rounds load cfg msg.messageId ⟨s, []⟩ es := by
  obtain ⟨chan, hchan⟩ := Option.ne_none_iff_exists'.mp hchan
  have hlisted : next load cfg ⟨s, []⟩ (.retry env) = ⟨s, [.loop .retry [msg]]⟩ := by
    simp [next, step, hdue]
  have htaken : next load cfg ⟨s, [.loop .retry [msg]]⟩ (.work env 0) = ⟨s, [.inboxes (.loop .retry []) msg (ri :: todo)]⟩ := by
    simp [next, step, work, hinboxes]
  have hreached : next load cfg ⟨s, [.inboxes (.loop .retry []) msg (ri :: todo)]⟩ (.work env 0) = ⟨s, [.loop .retry []]⟩ := by
    simp [next, step, work, attemptDelivery, hchan, hsend, afterSuccess]
  have hdone : next load cfg ⟨s, [.loop .retry []]⟩ (.work env 0) = ⟨s, []⟩ := by
    simp [next, step, work]
  simp only [tick, List.cons_append, List.nil_append, rounds, hlisted, htaken, hreached, hdone]
  simp [beginsRound, Process.running, Task.begins]

theorem rounds_ticks {msg : QueuedMessage} {ri : RecipientInbox} {todo : List RecipientInbox} (load : Bytes → Option Item) (cfg : Config)
    (hdue : s.listDue env.nowMs = [msg]) (hinboxes : s.getRecipientInboxes msg.messageId = ri :: todo)
    (hchan : env.ensureChannel (bytesToHex ri.keyCPubkey) ≠ none) (hsend : env.sendOk = true) (k : ℕ) :
    rounds load cfg msg.messageId ⟨s, []⟩ (ticks env k) = k := by
  induction k with
  | zero => rfl
  | succ k ih => rw [ticks, rounds_tick load cfg hdue hinboxes hchan hsend, ih, Nat.add_comm]

end Events

/-! ## One message -/

def Event.clock? : Event → Option ℤ
  | .frame _ _ => none
  | .ipc env _ _ => some env.nowMs
  | .retry env => some env.nowMs
  | .maintenance env => some env.nowMs
  | .work env _ => some env.nowMs
  | .restart => none

/-- No new process, no frame, and a clock that does not go back. -/
def Unacknowledged (es : List Event) : Prop :=
  .restart ∉ es ∧ (∀ channelId body, .frame channelId body ∉ es) ∧ (es.filterMap Event.clock?).Pairwise (· ≤ ·)

/-- The router takes every frame. -/
def online : Env := ⟨1, fun _ => some [1], true⟩

def onlineStore : OutboxStore := enqueuedStore online .empty queuedFrame { messageId := queuedId } enqueueParams

def onlineMessage : QueuedMessage := queuedMessage online queuedFrame { messageId := queuedId } enqueueParams

theorem onlineStore_rows : onlineStore.messages.rows = [onlineMessage] := by
  rw [onlineStore, enqueuedStore, foldl_addRecipientInbox_messages]
  rfl

theorem getRecipientInboxes_onlineStore : onlineStore.getRecipientInboxes queuedId = [⟨queuedId, [9], [9]⟩] := by
  have hrows : onlineStore.recipients.rows = [⟨queuedId, [9], [9]⟩] := rfl
  unfold OutboxStore.getRecipientInboxes
  rw [hrows, List.filter_singleton, decide_eq_true rfl, cond_true]

theorem listDue_onlineStore : onlineStore.listDue online.nowMs = [onlineMessage] := by
  unfold OutboxStore.listDue
  rw [onlineStore_rows]
  rfl

/-- The message is queued, tried with success, and tried again at every tick. -/
def onlineRun (k : ℕ) : List Event :=
  [.work online 0, .ipc online "outbox.enqueue" enqueueParams, .work online 0, .work online 0, .work online 0] ++ ticks online k

theorem rounds_onlineRun (k : ℕ) : rounds load {} queuedId (started .empty) (onlineRun k) = 1 + k := by
  have hfind : onlineStore.getMessage queuedId = some onlineMessage := find_enqueuedStore rfl
  have hburst : next load {} (started .empty) (.work online 0) = ⟨.empty, []⟩ := rfl
  have hqueued : next load {} ⟨.empty, []⟩ (.ipc online "outbox.enqueue" enqueueParams) = ⟨onlineStore, [.read queuedId none]⟩ :=
    next_enqueue reqBytes_enqueueParams parseDeliveryFrame_queuedFrame rfl
  have hread : next load {} ⟨onlineStore, [.read queuedId none]⟩ (.work online 0) =
      ⟨onlineStore, [.inboxes (.immediate none) onlineMessage [⟨queuedId, [9], [9]⟩]]⟩ := by
    have hpending : onlineMessage.status = .pending := rfl
    simp [next, step, work, hfind, hpending, getRecipientInboxes_onlineStore]
  have htried : next load {} ⟨onlineStore, [.inboxes (.immediate none) onlineMessage [⟨queuedId, [9], [9]⟩]]⟩ (.work online 0) =
      ⟨onlineStore, [.replicate queuedId none]⟩ := rfl
  have hdone : next load {} ⟨onlineStore, [.replicate queuedId none]⟩ (.work online 0) = ⟨onlineStore, []⟩ := rfl
  have hbegins : beginsRound queuedId ⟨onlineStore, [.read queuedId none]⟩ (.work online 0) = true := by
    have hpending : onlineMessage.status = .pending := rfl
    simp [beginsRound, Process.running, Task.begins, hfind, hpending]
  have hrest : rounds load {} queuedId ⟨onlineStore, []⟩ (ticks online k) = k :=
    rounds_ticks load {} listDue_onlineStore getRecipientInboxes_onlineStore (Option.some_ne_none _) rfl k
  simp only [onlineRun, List.cons_append, List.nil_append, rounds, hburst, hqueued, hread, htried, hdone, hbegins, hrest]
  simp [beginsRound, Process.running, started, Task.begins]

theorem clock_onlineRun {k : ℕ} {e : Event} (h : e ∈ onlineRun k) : e.clock? = some 1 := by
  have hticks : ∀ k, ∀ e ∈ ticks online k, e.clock? = some 1 := by
    intro k
    induction k with
    | zero => exact fun _ h => absurd h List.not_mem_nil
    | succ k ih =>
      intro e h
      rcases List.mem_append.mp h with h | h
      · simp only [tick, List.mem_cons, List.not_mem_nil, or_false] at h
        rcases h with rfl | rfl | rfl | rfl
        all_goals rfl
      · exact ih e h
  rcases List.mem_append.mp h with h | h
  · simp only [List.mem_cons, List.not_mem_nil, or_false] at h
    rcases h with rfl | rfl | rfl | rfl | rfl
    all_goals rfl
  · exact hticks k e h

theorem unacknowledged_onlineRun (k : ℕ) : Unacknowledged (onlineRun k) := by
  refine ⟨?_, ?_, ?_⟩
  · intro h
    cases clock_onlineRun h
  · intro channelId body h
    cases clock_onlineRun h
  · have hone : ∀ t ∈ (onlineRun k).filterMap Event.clock?, t = 1 := by
      intro t ht
      obtain ⟨e, he, hclock⟩ := List.mem_filterMap.mp ht
      rw [clock_onlineRun he] at hclock
      exact (Option.some.inj hclock).symm
    refine List.pairwise_of_forall_mem_list ?_
    intro t ht t' ht'
    rw [hone t ht, hone t' ht']

/-- Three ticks after a first attempt that succeeded make four rounds. -/
theorem not_rounds_le_maxRetries : ¬ ∀ (cfg : Config) (s : OutboxStore) (id : Bytes) (es : List Event), 1 ≤ cfg.maxRetries →
    s.messages.find id = none → Unacknowledged es →
      rounds load cfg id (started s) es ≤ cfg.maxRetries ∧ Along (next load cfg) (Scheduled load cfg id) (started s) es := by
  intro h
  obtain ⟨hle, _⟩ := h {} .empty queuedId (onlineRun 3) (by decide) rfl (unacknowledged_onlineRun 3)
  rw [rounds_onlineRun] at hle
  exact absurd hle (by decide)

/-! ## A message that is never reached -/

theorem not_succeeds_of_offline {id : Bytes} {p : Process} {index : ℕ} : ¬Succeeds id p (.work clockZero index) := by
  rintro ⟨env, task, hrunning, hsucceeds⟩
  obtain ⟨task', _, heq⟩ := Option.map_eq_some_iff.mp hrunning
  cases heq
  unfold Task.succeeds at hsucceeds
  split at hsucceeds
  · exact absurd rfl (of_decide_eq_true hsucceeds).2.1
  · cases hsucceeds

theorem undisturbed_of_offline {id : Bytes} {p : Process} {index : ℕ} : Undisturbed id p (.work clockZero index) := by
  refine ⟨not_succeeds_of_offline, ?_⟩
  rintro ⟨env, he, _⟩
  cases he

/-- The round of the request, up to its end. -/
def offlineRun : List Event :=
  [.ipc clockZero "outbox.enqueue" enqueueParams, .work clockZero 1, .work clockZero 1, .work clockZero 1, .work clockZero 1]

theorem rounds_le_maxRetries_of_undisturbed_offline : rounds load {} queuedId (started .empty) offlineRun ≤ (3 : ℤ) ∧
    Along (next load {}) (Scheduled load {} queuedId) (started .empty) offlineRun := by
  refine rounds_le_maxRetries_of_undisturbed load {} .empty queuedId (by decide) rfl ?_ ?_
  · simp [offlineRun]
  · refine ⟨⟨?_, ?_⟩, undisturbed_of_offline, undisturbed_of_offline, undisturbed_of_offline, undisturbed_of_offline, trivial⟩
    · rintro ⟨env, task, hrunning, _⟩
      cases hrunning
    · rintro ⟨env, he, _⟩
      cases he

end ScatterWeb.Outbox
