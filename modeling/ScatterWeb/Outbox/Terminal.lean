import ScatterWeb.Outbox.Steps

/-! # Messages that are done with

A status other than pending is meant to be final, and the sweep and `immediate_attempt` look at it before they act. An
acknowledgement and `outbox.cancel` do not, and the loops try messages from a list they read before. If no written status
meets a final one that differs or a message that a task holds, final statuses stay and nothing is tried again. -/
namespace ScatterWeb.Outbox
open Crypto Lib Lib.Cbor Client Mailbox
set_option autoImplicit false

section Runs
variable (load : Bytes → Option Item) (cfg : Config)

/-- The step changes no final status and tries no message with one. -/
def StaysFinal (p : Process) (e : Event) : Prop :=
  (∀ id m, p.store.messages.find id = some m → m.status ≠ .pending →
    ∃ m', (next load cfg p e).store.messages.find id = some m' ∧ m'.status = m.status) ∧
  ∀ id ∈ (step load cfg p e).2.attempts, ∀ m, p.store.messages.find id = some m → m.status = .pending

/-- The event writes a status over another final one, or the status of a message that a task may still try. -/
def Collides (p : Process) (e : Event) : Prop :=
  ∃ id st, (id, st) ∈ statusWrites load p.store e ∧
    ((∃ m, p.store.messages.find id = some m ∧ m.status ≠ .pending ∧ m.status ≠ st) ∨ ∃ task ∈ p.tasks, id ∈ task.held)

/-- What the tasks may still try is pending. -/
def HeldPending (p : Process) : Prop := ∀ task ∈ p.tasks, ∀ id ∈ task.held, PendingRow p.store id

variable {load cfg} {p : Process}

theorem pendingRow_of_follows {writes : List (Bytes × MsgStatus)} {s s' : OutboxStore} {id : Bytes} (h : Follows writes s s')
    (hpending : PendingRow s id) (hid : ∀ st, (id, st) ∉ writes) : PendingRow s' id := by
  obtain ⟨m, hm, hstatus⟩ := hpending
  obtain ⟨m', hm', hsame | hwritten⟩ := h.status id m hm
  · exact ⟨m', hm', hsame.trans hstatus⟩
  · exact absurd hwritten (hid _)

theorem pendingRow_of_mem {s : OutboxStore} {m : QueuedMessage} (hm : m ∈ s.messages.rows) (hstatus : m.status = .pending) :
    PendingRow s m.messageId := ⟨m, Table.find_of_mem hm, hstatus⟩

theorem final_of_not_collides {e : Event} (hfree : ¬Collides load p e) : ∀ id m, p.store.messages.find id = some m →
    m.status ≠ .pending → ∃ m', (next load cfg p e).store.messages.find id = some m' ∧ m'.status = m.status := by
  intro id m hm hfinal
  obtain ⟨m', hm', hsame | hwritten⟩ := (step_follows load cfg p e).status id m hm
  · exact ⟨m', hm', hsame⟩
  · refine ⟨m', hm', ?_⟩
    by_contra hne
    exact hfree ⟨id, m'.status, hwritten, Or.inl ⟨m, hm, hfinal, Ne.symm hne⟩⟩

/-- What a task held before the step is pending after it. -/
theorem pendingRow_of_not_collides {e : Event} (hheld : HeldPending p) (hfree : ¬Collides load p e) :
    ∀ task ∈ p.tasks, ∀ id ∈ task.held, PendingRow (next load cfg p e).store id := by
  intro task htask id hid
  refine pendingRow_of_follows (step_follows load cfg p e) (hheld task htask id hid) ?_
  intro st hwritten
  exact hfree ⟨id, st, hwritten, Or.inr ⟨task, htask, hid⟩⟩

/-- The message was held before the step, or it is pending and the step writes no status. -/
def HeldOrPending (load : Bytes → Option Item) (p : Process) (e : Event) (id : Bytes) : Prop :=
  (∃ old ∈ p.tasks, id ∈ old.held) ∨ (PendingRow p.store id ∧ statusWrites load p.store e = [])

theorem heldOrPending_of_mem {e : Event} {task : Task} {id : Bytes} (htask : task ∈ p.tasks) (hid : id ∈ task.held) :
    HeldOrPending load p e id := Or.inl ⟨task, htask, hid⟩

/-- A task after the step is an old one, holds nothing yet because a request started it, was listed as pending, or holds what it held or
has just read. -/
theorem held_next (load : Bytes → Option Item) (cfg : Config) (p : Process) (e : Event) :
    ∀ task ∈ (next load cfg p e).tasks, ∀ id ∈ task.held, HeldOrPending load p e id := by
  intro task htask id hid
  obtain hold | ⟨env, method, params, s', rfl, hhandle⟩ | ⟨env, rfl, rfl⟩ | ⟨env, index, current, rfl, hcurrent, hgoes⟩ | ⟨rfl, rfl⟩ :=
    mem_tasks_next htask
  · exact heldOrPending_of_mem hold hid
  · rw [(handle_spec hhandle).2 s' task rfl] at hid
    cases hid
  · obtain ⟨m, hm, rfl⟩ := List.mem_map.mp hid
    obtain ⟨hrow, hdue⟩ := List.mem_filter.mp hm
    exact Or.inr ⟨pendingRow_of_mem hrow (of_decide_eq_true hdue).1, rfl⟩
  · obtain hheld | hpending := (works_work cfg env p.store current).taken task hgoes id hid
    · exact heldOrPending_of_mem hcurrent hheld
    · exact Or.inr ⟨hpending, rfl⟩
  · obtain ⟨m, hm, rfl⟩ := List.mem_map.mp hid
    obtain ⟨hrow, hpending⟩ := List.mem_filter.mp hm
    exact Or.inr ⟨pendingRow_of_mem hrow (of_decide_eq_true hpending), rfl⟩

theorem attempts_onFrame (load : Bytes → Option Item) (s : OutboxStore) (channelId body : Bytes) :
    (onFrame load s channelId body).2.attempts = [] := by
  unfold onFrame handleDeliveryAck handlePollAck
  dsimp only
  split
  · split_ifs
    · rfl
    · rfl
    · rfl
    · rfl
    · rfl
    · rfl
  · rfl

/-- Only a task tries a message, and only one that it holds. -/
theorem attempts_held (load : Bytes → Option Item) (cfg : Config) (p : Process) (e : Event) :
    ∀ id ∈ (step load cfg p e).2.attempts, ∃ task ∈ p.tasks, id ∈ task.held := by
  intro id hid
  cases e with
  | frame channelId body =>
    rw [show (step load cfg p (.frame channelId body)).2 = (onFrame load p.store channelId body).2 from rfl, attempts_onFrame] at hid
    cases hid
  | ipc env method params =>
    rw [step] at hid
    split at hid
    · cases hid
    · cases hid
    · cases hid
  | retry env =>
    rw [step] at hid
    split at hid
    · cases hid
    · cases hid
  | maintenance env => cases hid
  | work env index =>
    rw [step] at hid
    cases htask : p.tasks[index]? with
    | none =>
      rw [htask] at hid
      cases hid
    | some task =>
      have hworks := works_work cfg env p.store task
      rw [htask] at hid
      dsimp only at hid
      split at hid
      · rename_i hwork
        rw [hwork] at hworks
        exact ⟨task, List.mem_of_getElem? htask, hworks.tried id hid⟩
      · rename_i hwork
        rw [hwork] at hworks
        exact ⟨task, List.mem_of_getElem? htask, hworks.tried id hid⟩
  | restart => cases hid

/-- What one step preserves. -/
theorem staysFinal_of_not_collides (hheld : HeldPending p) (e : Event) (hfree : ¬Collides load p e) :
    StaysFinal load cfg p e ∧ HeldPending (next load cfg p e) := by
  refine ⟨⟨final_of_not_collides hfree, ?_⟩, ?_⟩
  · intro id hid m hm
    obtain ⟨task, htask, hid⟩ := attempts_held load cfg p e id hid
    obtain ⟨m', hm', hstatus⟩ := hheld task htask id hid
    rw [hm] at hm'
    cases hm'
    exact hstatus
  · intro task htask id hid
    rcases held_next load cfg p e task htask id hid with ⟨old, hold, hheldId⟩ | ⟨hpending, hnone⟩
    · exact pendingRow_of_not_collides hheld hfree old hold id hheldId
    · refine pendingRow_of_follows (step_follows load cfg p e) hpending ?_
      rw [hnone]
      exact fun _ => List.not_mem_nil

/-- In every run, from any database, in which no event collides, final statuses stay and no such message is tried again. -/
theorem final_absorbing_of_no_collision (load : Bytes → Option Item) (cfg : Config) (s : OutboxStore) {es : List Event}
    (h : Along (next load cfg) (fun p e => ¬Collides load p e) ⟨s, []⟩ es) :
    Along (next load cfg) (StaysFinal load cfg) ⟨s, []⟩ es := by
  refine along_of_invariant HeldPending (fun p e hheld hfree => staysFinal_of_not_collides hheld e hfree) ?_ h
  intro task htask
  cases htask

theorem not_staysFinal_cancel {env : Env} {params : CborMap} {id : Bytes} {m : QueuedMessage}
    (hid : reqString params "message_id" = .ok id) (hm : p.store.messages.find id = some m) (hfinal : m.status ≠ .pending)
    (hother : m.status ≠ .cancelled) : ¬StaysFinal load cfg p (.ipc env "outbox.cancel" params) := by
  have hexists : p.store.messageExists id = true := by
    unfold OutboxStore.messageExists
    rw [hm]
    rfl
  have hcancel : cancel p.store params =
      .ok (p.store.setStatus id .cancelled, [("message_id", .text id), ("ok", .bool true)]) := by
    unfold cancel
    rw [hid]
    simp only [bind, Except.bind, hexists, if_true]
  have hhandle : handle load env p.store "outbox.cancel" params = (cancel p.store params).map (fun r => .done r.1 r.2) := rfl
  have hstore : (next load cfg p (.ipc env "outbox.cancel" params)).store = p.store.setStatus id .cancelled := by
    simp only [next, step, hhandle, hcancel, Except.map]
  rintro ⟨hstays, _⟩
  obtain ⟨m', hm', hstatus⟩ := hstays id m hm hfinal
  rw [hstore, p.store.find_setStatus, if_pos rfl, hm] at hm'
  cases hm'
  exact hother hstatus.symm

theorem find_next_maintenance {env : Env} {id : Bytes} {m : QueuedMessage} (hm : p.store.messages.find id = some m)
    (hexpired : OutboxStore.isExpired env.nowMs m = true) :
    (next load cfg p (.maintenance env)).store.messages.find id = some { m with status := .expired } := by
  unfold next
  rw [step]
  dsimp only
  rw [p.store.find_expireMessages, hm, Option.map_some, if_pos hexpired]

end Runs

def lateClock : Env := { clockZero with nowMs := weekMs + 1 }

/-- Queued, not tried yet, and expired. -/
def quietRun : List Event := [.ipc clockZero "outbox.enqueue" enqueueParams, .maintenance lateClock, .restart]

theorem queued_tasks : queued.tasks = [.read queuedId none] := by rw [queued_eq]

theorem final_absorbing_of_no_collision_quietRun :
    Along (next load {}) (StaysFinal load {}) ⟨.empty, []⟩ quietRun := by
  apply final_absorbing_of_no_collision
  refine ⟨?_, ?_, ?_, trivial⟩
  · rintro ⟨id, st, hmem, _⟩
    cases hmem
  · -- The sweep finds the one message, pending and in no task's list.
    rintro ⟨id, st, hmem, ⟨m, hm, hfinal, hother⟩ | ⟨task, htask, hid⟩⟩
    · obtain ⟨m', hm', heq⟩ := List.mem_map.mp hmem
      cases heq
      obtain ⟨hrow, hexpired⟩ := List.mem_filter.mp hm'
      rw [Table.find_of_mem hrow] at hm
      cases hm
      exact hfinal (of_decide_eq_true hexpired).1
    · change task ∈ queued.tasks at htask
      rw [queued_tasks, List.mem_singleton] at htask
      rw [htask] at hid
      cases hid
  · rintro ⟨id, st, hmem, _⟩
    cases hmem

theorem isExpired_queued :
    OutboxStore.isExpired lateClock.nowMs (queuedMessage clockZero queuedFrame { messageId := queuedId } enqueueParams) = true := by
  have httl : ttlMs enqueueParams = weekMs := by simp [ttlMs, CborMap.find, lastField, lastWith, enqueueParams]
  simp [OutboxStore.isExpired, queuedMessage, httl, clockZero, lateClock, weekMs]

def cancelParams : CborMap := [(.text (ascii "message_id"), .text queuedId)]

theorem reqString_cancelParams : reqString cancelParams "message_id" = .ok queuedId := by
  simp [reqString, CborMap.find, lastField, lastWith, cancelParams]

/-- An expired message can be cancelled. -/
theorem not_staysFinal_cancelled :
    ¬ ∀ es, Along (next load {}) (StaysFinal load {}) Process.initial es := by
  intro h
  have hrun := h [.ipc clockZero "outbox.enqueue" enqueueParams, .maintenance lateClock, .ipc clockZero "outbox.cancel" cancelParams]
  have hexpired : (next load {} queued (.maintenance lateClock)).store.messages.find queuedId =
      some { queuedMessage clockZero queuedFrame { messageId := queuedId } enqueueParams with status := .expired } :=
    find_next_maintenance find_queued isExpired_queued
  exact not_staysFinal_cancel reqString_cancelParams hexpired (fun h => nomatch h) (fun h => nomatch h) hrun.2.2.1

end ScatterWeb.Outbox
