import ScatterWeb.Outbox.FanOut

/-! # The counts of a broadcast

`broadcast_status` goes over the pending messages and counts those whose id begins with the given one. `Logged` keeps, beside a
run, what `enqueue_broadcast` has queued for which id, and no row of this record is ever deleted. So a row that is no longer
pending is missing from both counts. -/
namespace ScatterWeb.Outbox
open Crypto Lib Lib.Cbor Client Mailbox
set_option autoImplicit false

/-- What a task of `enqueue_broadcast` queues next: the id of the frame, and that of the row. -/
def Broadcast.queues (s : OutboxStore) (b : Broadcast) : List (Bytes × Bytes) :=
  match b.todo with
  | [] => []
  | v :: _ =>
    match readRecipient v with
    | none => []
    | some (kb, _) => if s.messageExists (broadcastId b kb) then [] else [(b.baseId, broadcastId b kb)]

/-- What a step queues for the recipients of a broadcast. -/
def broadcastQueued (q : Process) : Event → List (Bytes × Bytes)
  | .work _ index =>
    match q.tasks[index]? with
    | some (.broadcast b) => b.queues q.store
    | _ => []
  | _ => []

/-- A run from the start, with the record of what was queued for broadcasts. -/
inductive Logged (load : Bytes → Option Item) (cfg : Config) : Process → List (Bytes × Bytes) → Prop
  | start : Logged load cfg .initial []
  | step {q : Process} {log : List (Bytes × Bytes)} (h : Logged load cfg q log) (e : Event) :
      Logged load cfg (next load cfg q e) (log ++ broadcastQueued q e)

/-- The rows enqueued for an id, by their own ids. -/
def enqueuedFor (log : List (Bytes × Bytes)) (baseId : Bytes) : List Bytes :=
  (log.filter (fun e => decide (e.1 = baseId))).map Prod.snd

/-- `total` and `delivered`. -/
def broadcastCounts (s : OutboxStore) (baseId : Bytes) : ℕ × ℕ :=
  let all := s.listPending.filter (fun m => decide (m.messageId.take baseId.length = baseId))
  (all.length, (all.filter (fun m => decide (m.status = .delivered))).length)

def countsReply (baseId : Bytes) (counts : ℕ × ℕ) : Reply :=
  [("message_id", .text baseId), ("total", uintItem counts.1), ("delivered", uintItem counts.2)]

theorem broadcastStatus_eq (s : OutboxStore) {p : CborMap} {baseId : Bytes} (h : reqString p "message_id" = .ok baseId) :
    broadcastStatus s p = .ok (countsReply baseId (broadcastCounts s baseId)) := by
  unfold broadcastStatus
  rw [h]
  rfl

namespace OutboxStore

/-- The store with the given messages only. -/
def only (s : OutboxStore) (ids : List Bytes) : OutboxStore :=
  { s with messages := s.messages.filter (fun m => decide (∃ id ∈ ids, id = m.messageId)) }

def hasStatus (s : OutboxStore) (st : MsgStatus) (id : Bytes) : Bool := (s.messages.find id).any (fun m => decide (m.status = st))

end OutboxStore

/-- The counts are those of the rows enqueued for the id and of the delivered ones among them, and no other row matters to them. -/
structure CountsRight (s : OutboxStore) (log : List (Bytes × Bytes)) (baseId : Bytes) (counts : ℕ × ℕ) : Prop where
  total : counts.1 = (enqueuedFor log baseId).length
  delivered : counts.2 = ((enqueuedFor log baseId).filter (s.hasStatus .delivered)).length
  others : counts = broadcastCounts (s.only (enqueuedFor log baseId)) baseId

/-! ## The broadcast a task belongs to -/

def Origin.base : Origin → Option Bytes
  | .loop _ _ => none
  | .immediate andThen => andThen.map Broadcast.baseId

/-- The id of the frame whose broadcast the task is part of. -/
def Task.base : Task → Option Bytes
  | .read _ andThen => andThen.map Broadcast.baseId
  | .loop _ _ => none
  | .inboxes origin _ _ => origin.base
  | .failed origin _ => origin.base
  | .replicate _ andThen => andThen.map Broadcast.baseId
  | .broadcast b => some b.baseId

section Bases
variable {load : Bytes → Option Item} {cfg : Config} {env : Env} {s : OutboxStore}

theorem base_finish {id : Bytes} {andThen : Option Broadcast} {task : Task} (h : (finish id andThen).1 = some task) :
    task.base = andThen.map Broadcast.baseId := by
  cases andThen with
  | none => cases h
  | some b =>
    cases h
    rfl

theorem base_afterSuccess (msg : QueuedMessage) (origin : Origin) : (afterSuccess msg origin).base = origin.base := by
  cases origin with
  | loop kind rest => rfl
  | immediate andThen => rfl

theorem base_afterInboxes (msg : QueuedMessage) (origin : Origin) : (afterInboxes msg origin).base = origin.base := by
  cases origin with
  | loop kind rest =>
    cases kind with
    | burst => rfl
    | retry => rfl
  | immediate andThen => rfl

theorem base_broadcastNext {b : Broadcast} {task : Task} (h : (broadcastNext s b).2.1 = some task) : task.base = some b.baseId := by
  obtain hnext | ⟨rest, hnext⟩ | ⟨rest, kb, inbox, _, hnext⟩ := broadcastNext_cases s b
  · rw [hnext] at h
    cases h
  · rw [hnext] at h
    cases h
    rfl
  · rw [hnext] at h
    cases h
    rfl

/-- A task goes on for the same broadcast. -/
theorem base_work {task task' : Task} (h : (work cfg env s task).2.1 = some task') : task'.base = task.base := by
  cases task with
  | read id andThen =>
    rw [work] at h
    split at h
    · exact base_finish h
    · split at h
      · cases h
        rfl
      · exact base_finish h
  | loop kind queue =>
    cases queue with
    | nil => cases h
    | cons msg rest =>
      cases h
      rfl
  | inboxes origin msg todo =>
    cases todo with
    | nil =>
      cases h
      exact base_afterInboxes msg origin
    | cons ri todo =>
      rw [work] at h
      split at h
      · cases h
        exact base_afterSuccess msg origin
      · cases h
        rfl
  | failed origin msg =>
    cases h
    exact base_afterSuccess msg origin
  | replicate id andThen => exact base_finish h
  | broadcast b => exact base_broadcastNext h

end Bases

/-! ## The ids in the store -/

/-- The size of an id of 16 bytes in hexadecimal. -/
def idLength : ℕ := 32

theorem messageId_length {load : Bytes → Option Item} {frame : Bytes} {hdr : DeliveryFrameHeader} (h : parseDeliveryFrame load frame = some hdr) :
    hdr.messageId.length = idLength := by
  unfold parseDeliveryFrame at h
  split at h
  · rename_i kvs _
    dsimp only at h
    split at h
    · cases h
    · rename_i hne
      cases h
      dsimp only at hne ⊢
      cases hfield : lastField (asHex 16) kvs "message_id" with
      | none =>
        rw [hfield] at hne
        exact absurd rfl hne
      | some id =>
        obtain ⟨kv, _, _, hread⟩ := mem_of_lastField hfield
        unfold asHex at hread
        split at hread
        · split at hread
          · rename_i b hb
            cases hread
            rw [Option.getD_some, length_bytesToHex, hb]
            rfl
          · cases hread
        · cases hread
  · cases h

theorem messageId_length_of_parseOrThrow {load : Bytes → Option Item} {frame : Bytes} {hdr : DeliveryFrameHeader}
    (h : parseOrThrow load frame = .ok hdr) : hdr.messageId.length = idLength := by
  unfold parseOrThrow at h
  split at h
  · cases h
  · rename_i hframe
    cases h
    exact messageId_length hframe

section Ids
variable {load : Bytes → Option Item} {cfg : Config} {env : Env} {s s' : OutboxStore} {q : Process} {id : Bytes}

theorem find_updated_ne_none {f : QueuedMessage → QueuedMessage} {c : Prop} [Decidable c]
    (h : (if c then (s.messages.find id).map f else s.messages.find id) ≠ none) : s.messages.find id ≠ none := by
  intro hnone
  rw [hnone] at h
  simp at h

/-- A task other than that of a broadcast queues nothing. -/
theorem find_work_ne_none {task : Task} (hb : ∀ b, task ≠ .broadcast b) (h : (work cfg env s task).1.messages.find id ≠ none) :
    s.messages.find id ≠ none := by
  obtain hstore | ⟨origin, msg, nextAt, _, hstore⟩ | ⟨b, hbroadcast, _⟩ := store_work_cases cfg env s task
  · rw [hstore] at h
    exact h
  · rw [hstore, OutboxStore.find_updateAttempt] at h
    exact find_updated_ne_none h
  · exact absurd hbroadcast (hb b)

/-- What the loop over the recipients queues. -/
theorem find_broadcastNext_ne_none {b : Broadcast} : (broadcastNext s b).1.messages.find id ≠ none ↔
    s.messages.find id ≠ none ∨ (b.baseId, id) ∈ b.queues s := by
  unfold Broadcast.queues
  cases htodo : b.todo with
  | nil =>
    rw [broadcastNext_nil htodo]
    simp
  | cons v rest =>
    dsimp only
    cases hread : readRecipient v with
    | none =>
      rw [broadcastNext_unread htodo hread]
      simp
    | some r =>
      obtain ⟨kb, inbox⟩ := r
      dsimp only
      cases hfind : s.messages.find (broadcastId b kb) with
      | some m =>
        have hexists : s.messageExists (broadcastId b kb) = true := by
          unfold OutboxStore.messageExists
          rw [hfind]
          rfl
        rw [broadcastNext_taken htodo hread hfind, if_pos hexists]
        simp
      | none =>
        have hexists : ¬s.messageExists (broadcastId b kb) = true := by
          unfold OutboxStore.messageExists
          rw [hfind]
          exact Bool.false_ne_true
        rw [broadcastNext_new htodo hread hfind, if_neg hexists]
        dsimp only
        rw [addInbox_messages]
        unfold OutboxStore.insertMessage
        dsimp only
        rw [Table.find_insertNew, List.mem_singleton, Prod.mk.injEq]
        by_cases hid : broadcastId b kb = id
        · subst hid
          have hnew : QueuedMessage.messageId (broadcastMessage { b with todo := rest } kb) = broadcastId b kb ∧
              s.messages.find (broadcastId b kb) = none := ⟨rfl, hfind⟩
          rw [if_pos hnew]
          simp
        · have hne : ¬(QueuedMessage.messageId (broadcastMessage { b with todo := rest } kb) = id ∧ s.messages.find id = none) :=
            fun h => hid h.1
          rw [if_neg hne]
          simp [Ne.symm hid]

theorem mem_queues {b : Broadcast} {e : Bytes × Bytes} (h : e ∈ b.queues s) :
    e.1 = b.baseId ∧ s.messages.find e.2 = none ∧ b.baseId ++ ascii "_" <+: e.2 := by
  unfold Broadcast.queues at h
  split at h
  · cases h
  · split at h
    · cases h
    · split at h
      · cases h
      · rename_i kb _ _ hnew
        obtain rfl := List.mem_singleton.mp h
        unfold OutboxStore.messageExists at hnew
        exact ⟨rfl, Option.not_isSome_iff_eq_none.mp hnew, kb.take 8, rfl⟩

theorem find_handle_ne_none {method : String} {p : CborMap} {out : Outcome} (hout : handle load env s method p = .ok out)
    (h : out.store.messages.find id ≠ none) : s.messages.find id ≠ none ∨ id.length = idLength := by
  cases handled_of_handle hout with
  | enqueue hr =>
    obtain ⟨frame, _, hr⟩ := bind_eq_ok.mp hr
    obtain ⟨hdr, hparse, hr⟩ := bind_eq_ok.mp hr
    split at hr
    · cases hr
    · rename_i s1 hins
      cases hr
      obtain rfl : (s.insertMessage (queuedMessage env frame hdr p)).1 = s1 := by rw [hins]
      rw [Outcome.store, foldl_addRecipientInbox_messages] at h
      unfold OutboxStore.insertMessage at h
      dsimp only at h
      rw [Table.find_insertNew] at h
      split at h
      · rename_i hnew
        refine Or.inr (hnew.1 ▸ ?_)
        exact messageId_length_of_parseOrThrow hparse
      · exact Or.inl h
  | broadcast b => exact Or.inl h
  | cancel hr =>
    obtain ⟨id', _, hr⟩ := bind_eq_ok.mp hr
    split at hr
    · cases hr
      rw [Outcome.store, OutboxStore.find_setStatus] at h
      exact Or.inl (find_updated_ne_none h)
    · cases hr
  | keeps hkeeps =>
    rw [Outcome.store, hkeeps.1] at h
    exact Or.inl h

/-- The rows after a step: those before it, a message queued by itself, and what is recorded for a broadcast. -/
theorem find_next_ne_none (e : Event) (h : (next load cfg q e).store.messages.find id ≠ none) :
    q.store.messages.find id ≠ none ∨ id.length = idLength ∨ ∃ baseId, (baseId, id) ∈ broadcastQueued q e := by
  obtain hstore | ⟨channelId, body, rfl, hstore⟩ | ⟨env, method, p, out, rfl, hhandle, hstore⟩ | ⟨env, rfl, hstore⟩ |
    ⟨env, index, task, rfl, htask, hstore⟩ := store_next_cases load cfg q e
  · rw [hstore] at h
    exact Or.inl h
  · rw [hstore, onFrame_store, find_foldl_setStatus] at h
    exact Or.inl (find_updated_ne_none h)
  · rw [hstore] at h
    exact (find_handle_ne_none hhandle h).imp_right Or.inl
  · rw [hstore, OutboxStore.find_expireMessages] at h
    refine Or.inl ?_
    intro hnone
    rw [hnone] at h
    exact h rfl
  · rw [hstore] at h
    by_cases hb : ∃ b, task = .broadcast b
    · obtain ⟨b, rfl⟩ := hb
      refine (find_broadcastNext_ne_none.mp h).imp_right (fun hmem => Or.inr ⟨b.baseId, ?_⟩)
      rw [broadcastQueued, htask]
      exact hmem
    · exact Or.inl (find_work_ne_none (not_exists.mp hb) h)

theorem broadcastQueued_cases (q : Process) (e : Event) : broadcastQueued q e = [] ∨ ∃ entry, broadcastQueued q e = [entry] := by
  have hqueues : ∀ b : Broadcast, b.queues q.store = [] ∨ ∃ entry, b.queues q.store = [entry] := by
    intro b
    unfold Broadcast.queues
    split
    · exact Or.inl rfl
    · split
      · exact Or.inl rfl
      · split
        · exact Or.inl rfl
        · exact Or.inr ⟨_, rfl⟩
  cases e with
  | work env index =>
    rw [broadcastQueued]
    split
    · exact hqueues _
    · exact Or.inl rfl
  | _ => exact Or.inl rfl

/-- What is recorded for a broadcast is new, and belongs to a task. -/
theorem mem_broadcastQueued {e : Event} {entry : Bytes × Bytes} (h : entry ∈ broadcastQueued q e) :
    q.store.messages.find entry.2 = none ∧ entry.1 ++ ascii "_" <+: entry.2 ∧ ∃ task ∈ q.tasks, task.base = some entry.1 := by
  cases e with
  | work env index =>
    rw [broadcastQueued] at h
    split at h
    · rename_i b htask
      obtain ⟨hbase, hnew, hprefix⟩ := mem_queues h
      rw [hbase]
      exact ⟨hnew, hprefix, _, List.mem_of_getElem? htask, rfl⟩
    · cases h
  | _ => cases h

/-- It has a row from then on. -/
theorem find_next_of_mem {e : Event} {entry : Bytes × Bytes} (h : entry ∈ broadcastQueued q e) :
    (next load cfg q e).store.messages.find entry.2 ≠ none := by
  cases e with
  | work env index =>
    rw [broadcastQueued] at h
    split at h
    · rename_i b htask
      obtain ⟨l, r, _, hnext⟩ := next_work load cfg env htask
      obtain ⟨hbase, _, _⟩ := mem_queues h
      rw [hnext]
      exact find_broadcastNext_ne_none.mpr (Or.inr (hbase ▸ h))
    · cases h
  | _ => cases h

end Ids

/-! ## The record and the rows -/

/-- The record agrees with the rows: each entry has its row, under an id made from that of the frame, and every other row has an id of
its own. -/
structure Accounted (q : Process) (log : List (Bytes × Bytes)) : Prop where
  bases : ∀ task ∈ q.tasks, ∀ baseId ∈ task.base, baseId.length = idLength
  ids : ∀ e ∈ log, e.1.length = idLength ∧ e.1 ++ ascii "_" <+: e.2
  rows : ∀ e ∈ log, q.store.messages.find e.2 ≠ none
  nodup : (log.map Prod.snd).Nodup
  known : ∀ id, q.store.messages.find id ≠ none → id.length = idLength ∨ ∃ baseId, (baseId, id) ∈ log

section Record
variable {load : Bytes → Option Item} {cfg : Config} {env : Env} {s : OutboxStore} {q : Process} {log : List (Bytes × Bytes)} {baseId : Bytes}

theorem base_handle {method : String} {p : CborMap} {task : Task} {s' : OutboxStore} (h : handle load env s method p = .ok (.started s' task)) :
    ∀ baseId ∈ task.base, baseId.length = idLength := by
  obtain ⟨s₁, task₁, hout, hr⟩ | ⟨task₁, hout, hr⟩ | ⟨_, _, hout, _⟩ | ⟨_, _, hout, _⟩ := handle_cases h
  · cases hout
    obtain ⟨_, id, htask⟩ := follows_enqueue hr
    rw [htask]
    intro baseId hbase
    cases hbase
  · cases hout
    obtain ⟨frame, _, hr⟩ := bind_eq_ok.mp hr
    obtain ⟨hdr, hparse, hr⟩ := bind_eq_ok.mp hr
    split at hr
    · cases hr
      intro baseId hbase
      cases hbase
      exact messageId_length_of_parseOrThrow hparse
    · cases hr
  · cases hout
  · cases hout

theorem bases_next (h : ∀ task ∈ q.tasks, ∀ baseId ∈ task.base, baseId.length = idLength) (e : Event) :
    ∀ task ∈ (next load cfg q e).tasks, ∀ baseId ∈ task.base, baseId.length = idLength := by
  intro task htask
  obtain hold | ⟨env, method, p, s', _, hhandle⟩ | ⟨env, _, rfl⟩ | ⟨env, index, current, _, hcurrent, hgoes⟩ | ⟨_, rfl⟩ := mem_tasks_next htask
  · exact h task hold
  · exact base_handle hhandle
  · intro baseId hbase
    cases hbase
  · rw [base_work hgoes]
    exact h current hcurrent
  · intro baseId hbase
    cases hbase

/-- In every run. -/
theorem Logged.accounted (h : Logged load cfg q log) : Accounted q log := by
  induction h with
  | start =>
    refine ⟨?_, ?_, ?_, List.nodup_nil, ?_⟩
    · intro task htask
      cases htask
    · intro e he
      cases he
    · intro e he
      cases he
    · intro id hid
      exact absurd rfl hid
  | @step q log _ e ih =>
    have hkeeps : ∀ id, q.store.messages.find id ≠ none → (next load cfg q e).store.messages.find id ≠ none := by
      intro id hid
      obtain ⟨m, hm⟩ := Option.ne_none_iff_exists'.mp hid
      obtain ⟨m', hm', _⟩ := (step_follows load cfg q e).status id m hm
      rw [hm']
      exact Option.some_ne_none m'
    refine ⟨bases_next ih.bases e, ?_, ?_, ?_, ?_⟩
    · intro entry hentry
      obtain hold | hnew := List.mem_append.mp hentry
      · exact ih.ids entry hold
      · obtain ⟨_, hprefix, task, htask, hbase⟩ := mem_broadcastQueued hnew
        exact ⟨ih.bases task htask _ hbase, hprefix⟩
    · intro entry hentry
      obtain hold | hnew := List.mem_append.mp hentry
      · exact hkeeps _ (ih.rows entry hold)
      · exact find_next_of_mem hnew
    · rw [List.map_append, List.nodup_append]
      refine ⟨ih.nodup, ?_, ?_⟩
      · obtain hnil | ⟨entry, hone⟩ := broadcastQueued_cases q e
        · rw [hnil]
          exact List.nodup_nil
        · rw [hone]
          exact List.nodup_singleton _
      · intro id hid id' hid' heq
        obtain ⟨entry, hentry, rfl⟩ := List.mem_map.mp hid
        obtain ⟨entry', hentry', rfl⟩ := List.mem_map.mp hid'
        have hnone := (mem_broadcastQueued hentry').1
        rw [← heq] at hnone
        exact ih.rows entry hentry hnone
    · intro id hid
      obtain hold | hlength | ⟨baseId, hnew⟩ := find_next_ne_none e hid
      · refine (ih.known id hold).imp_right ?_
        rintro ⟨baseId, hmem⟩
        exact ⟨baseId, List.mem_append_left _ hmem⟩
      · exact Or.inl hlength
      · exact Or.inr ⟨baseId, List.mem_append_right _ hnew⟩

/-! ## When the counts are right -/

theorem enqueuedFor_nodup (h : Accounted q log) (baseId : Bytes) : (enqueuedFor log baseId).Nodup :=
  (List.filter_sublist.map Prod.snd).nodup h.nodup

theorem mem_enqueuedFor {id : Bytes} : id ∈ enqueuedFor log baseId ↔ (baseId, id) ∈ log := by
  unfold enqueuedFor
  rw [List.mem_map]
  constructor
  · rintro ⟨⟨baseId', id'⟩, hmem, rfl⟩
    obtain ⟨hmem, hbase⟩ := List.mem_filter.mp hmem
    dsimp only at hbase ⊢
    exact of_decide_eq_true hbase ▸ hmem
  · intro hmem
    exact ⟨(baseId, id), List.mem_filter.mpr ⟨hmem, decide_eq_true rfl⟩, rfl⟩

theorem take_eq_of_mem_log (h : Accounted q log) {e : Bytes × Bytes} (he : e ∈ log) : e.2.take idLength = e.1 ∧ idLength < e.2.length := by
  obtain ⟨hlen, rest, hid⟩ := h.ids e he
  have hone : (ascii "_").length = 1 := by decide
  constructor
  · rw [← hid, List.append_assoc, ← hlen, List.take_left]
  · rw [← hid, List.length_append, List.length_append, hlen, hone]
    omega

theorem baseId_notMem_enqueuedFor (h : Accounted q log) (hbase : baseId.length = idLength) : baseId ∉ enqueuedFor log baseId := by
  intro hmem
  have hlen := (take_eq_of_mem_log h (mem_enqueuedFor.mp hmem)).2
  dsimp only at hlen
  omega

/-- The ids that begin with the given one: itself, and those of its broadcast. -/
theorem begins_iff (h : Accounted q log) (hbase : baseId.length = idLength) {id : Bytes} (hid : q.store.messages.find id ≠ none) :
    id.take baseId.length = baseId ↔ id ∈ baseId :: enqueuedFor log baseId := by
  rw [List.mem_cons, mem_enqueuedFor, hbase]
  constructor
  · intro htake
    obtain hlen | ⟨baseId', hmem⟩ := h.known id hid
    · rw [List.take_of_length_le hlen.le] at htake
      exact Or.inl htake
    · obtain rfl : baseId' = baseId := (take_eq_of_mem_log h hmem).1.symm.trans htake
      exact Or.inr hmem
  · rintro (rfl | hmem)
    · exact List.take_of_length_le hbase.le
    · exact (take_eq_of_mem_log h hmem).1

/-- A filter that looks at pending rows only lets no delivered row through. -/
theorem filter_delivered_eq_nil (rows : List QueuedMessage) (p : QueuedMessage → Bool) :
    ((rows.filter (fun m => decide (m.status = .pending))).filter p).filter (fun m => decide (m.status = .delivered)) = [] := by
  rw [List.filter_eq_nil_iff]
  intro m hm hdelivered
  have hpending := of_decide_eq_true (List.mem_filter.mp (List.mem_filter.mp hm).1).2
  rw [hpending] at hdelivered
  simp at hdelivered

theorem broadcastCounts_snd (s : OutboxStore) (baseId : Bytes) : (broadcastCounts s baseId).2 = 0 :=
  congrArg List.length (filter_delivered_eq_nil _ _)

/-- The rows that are counted are the pending ones among those of the broadcast and the row of the id itself. -/
theorem broadcastCounts_fst (h : Accounted q log) (hbase : baseId.length = idLength) : (broadcastCounts q.store baseId).1 =
    ((baseId :: enqueuedFor log baseId).filter (q.store.hasStatus .pending)).length := by
  have hnodup : (baseId :: enqueuedFor log baseId).Nodup :=
    List.nodup_cons.mpr ⟨baseId_notMem_enqueuedFor h hbase, enqueuedFor_nodup h baseId⟩
  unfold broadcastCounts OutboxStore.listPending
  dsimp only
  rw [List.filter_filter]
  refine q.store.messages.length_filter_keys hnodup ?_
  intro m hm
  have hfind : q.store.messages.find m.messageId ≠ none := Table.find_of_mem hm ▸ Option.some_ne_none m
  rw [← begins_iff h hbase hfind, Bool.and_eq_true, decide_eq_true_iff, and_comm]

theorem broadcastCounts_only (h : Accounted q log) (hbase : baseId.length = idLength) :
    (broadcastCounts (q.store.only (enqueuedFor log baseId)) baseId).1 = ((enqueuedFor log baseId).filter (q.store.hasStatus .pending)).length := by
  change ((((q.store.messages.rows.filter _).filter _).filter _).length) = _
  rw [List.filter_filter, List.filter_filter]
  refine q.store.messages.length_filter_keys (enqueuedFor_nodup h baseId) ?_
  intro m hm
  have hfind : q.store.messages.find m.messageId ≠ none := Table.find_of_mem hm ▸ Option.some_ne_none m
  have hbegins := begins_iff h hbase hfind
  by_cases hmem : m.messageId ∈ enqueuedFor log baseId
  · have htake := hbegins.mpr (List.mem_cons_of_mem _ hmem)
    simp [hmem, htake]
  · simp [hmem]

theorem hasStatus_iff {st : MsgStatus} {id : Bytes} : s.hasStatus st id = true ↔ ∃ m, s.messages.find id = some m ∧ m.status = st := by
  unfold OutboxStore.hasStatus
  rw [Option.any_eq_true]
  simp

/-- They are right if and only if all rows of the broadcast are pending, and no message is pending under the id itself. -/
theorem countsRight_iff (h : Accounted q log) (hbase : baseId.length = idLength) :
    CountsRight q.store log baseId (broadcastCounts q.store baseId) ↔
      (∀ id ∈ enqueuedFor log baseId, PendingRow q.store id) ∧ ¬PendingRow q.store baseId := by
  have hfst := broadcastCounts_fst h hbase
  have honly := broadcastCounts_only h hbase
  have hpending : ∀ id, PendingRow q.store id ↔ q.store.hasStatus .pending id = true := fun id => hasStatus_iff.symm
  constructor
  · intro hright
    have hsame := (congrArg Prod.fst hright.others).symm
    rw [hfst, honly, List.filter_cons] at hsame
    have hself : ¬q.store.hasStatus .pending baseId = true := by
      intro hself
      rw [if_pos hself, List.length_cons] at hsame
      omega
    refine ⟨?_, fun hrow => hself ((hpending baseId).mp hrow)⟩
    have htotal := hright.total
    rw [hfst, List.filter_cons_of_neg hself, List.length_filter_eq_length_iff] at htotal
    intro id hid
    exact (hpending id).mpr (htotal id hid)
  · rintro ⟨hall, hself⟩
    rw [hpending] at hself
    rw [List.filter_cons_of_neg hself] at hfst
    have hfilter : (enqueuedFor log baseId).filter (q.store.hasStatus .pending) = enqueuedFor log baseId :=
      List.filter_eq_self.mpr (fun id hid => (hpending id).mp (hall id hid))
    refine ⟨hfst.trans (congrArg List.length hfilter), ?_, Prod.ext (hfst.trans honly.symm) ?_⟩
    · rw [broadcastCounts_snd, eq_comm, List.length_eq_zero_iff, List.filter_eq_nil_iff]
      intro id hid hdelivered
      obtain ⟨m, hm, hst⟩ := hall id hid
      obtain ⟨m', hm', hst'⟩ := hasStatus_iff.mp hdelivered
      rw [hm] at hm'
      cases hm'
      rw [hst] at hst'
      cases hst'
    · rw [broadcastCounts_snd, broadcastCounts_snd]

/-- The answer to `outbox.broadcast_status` in any run, and when it is right. -/
theorem broadcast_status_right_iff (h : Logged load cfg q log) (env : Env) {frame : Bytes} {hdr : DeliveryFrameHeader}
    (hparse : parseDeliveryFrame load frame = some hdr) {p : CborMap} (hid : reqString p "message_id" = .ok hdr.messageId) :
    handle load env q.store "outbox.broadcast_status" p =
        .ok (.done q.store (countsReply hdr.messageId (broadcastCounts q.store hdr.messageId))) ∧
      (CountsRight q.store log hdr.messageId (broadcastCounts q.store hdr.messageId) ↔
        (∀ id ∈ enqueuedFor log hdr.messageId, PendingRow q.store id) ∧ ¬PendingRow q.store hdr.messageId) := by
  refine ⟨?_, countsRight_iff h.accounted (messageId_length hparse)⟩
  have hhandle : handle load env q.store "outbox.broadcast_status" p = (broadcastStatus q.store p).map (.done q.store) := by simp [handle]
  rw [hhandle, broadcastStatus_eq q.store hid]
  rfl

end Record

/-! ## One recipient -/

def oneKey : Bytes := ascii "aabbccdd"

def oneRecipient : Broadcast := { frame := queuedFrame, baseId := queuedId, nowMs := 0, todo := [recipientItem oneKey] }

/-- The request for one recipient, before its row is queued. -/
def requested : Process := ⟨.empty, [.broadcast oneRecipient]⟩

def oneQueued : Process := next load {} requested (.work clockZero 0)

def oneId : Bytes := broadcastId oneRecipient oneKey

def statusParams : CborMap := [(.text (ascii "message_id"), .text queuedId)]

theorem reqString_statusParams : reqString statusParams "message_id" = .ok queuedId := by
  simp [reqString, CborMap.find, lastField, lastWith, statusParams]

theorem broadcastQueued_requested : broadcastQueued requested (.work clockZero 0) = [(queuedId, oneId)] := by
  change oneRecipient.queues .empty = _
  unfold Broadcast.queues oneRecipient
  dsimp only
  rw [readRecipient_recipientItem]
  rfl

theorem logged_oneQueued : Logged load {} oneQueued [(queuedId, oneId)] := by
  have hrequested : next load {} .initial (.ipc clockZero "outbox.enqueue_broadcast" (broadcastParams [oneKey])) = requested := by
    unfold next
    rw [step]
    have hhandle := handle_enqueueBroadcast_ok (s := .empty) clockZero (reqBytes_broadcastParams [oneKey]) parseDeliveryFrame_queuedFrame
      (find_broadcastParams [oneKey])
    rw [show Process.initial.store = .empty from rfl, hhandle]
    rfl
  have hlogged : Logged load {} (next load {} .initial (.ipc clockZero "outbox.enqueue_broadcast" (broadcastParams [oneKey]))) [] :=
    Logged.start.step _
  rw [hrequested] at hlogged
  have hstep := hlogged.step (.work clockZero 0)
  rw [broadcastQueued_requested] at hstep
  exact hstep

theorem pendingRow_oneQueued : PendingRow oneQueued.store oneId := by
  have hmem : (queuedId, oneId) ∈ broadcastQueued requested (.work clockZero 0) := by
    rw [broadcastQueued_requested]
    exact List.mem_cons_self
  have hfind : oneQueued.store.messages.find oneId ≠ none := find_next_of_mem hmem
  obtain ⟨m, hm⟩ := Option.ne_none_iff_exists'.mp hfind
  exact ⟨m, hm, (step_follows load {} requested (.work clockZero 0)).fresh oneId m rfl hm⟩

theorem not_pendingRow_queuedId : ¬PendingRow oneQueued.store queuedId := by
  rintro ⟨m, hm, _⟩
  have htask : requested.tasks[0]? = some (.broadcast oneRecipient) := rfl
  obtain ⟨l, r, _, hnext⟩ := next_work load {} clockZero htask
  have hfind : (broadcastNext .empty oneRecipient).1.messages.find queuedId = some m := by
    rw [← hm]
    unfold oneQueued
    rw [hnext]
    rfl
  obtain hold | hmem := find_broadcastNext_ne_none.mp (hfind ▸ Option.some_ne_none m)
  · exact hold rfl
  · have hqueues : oneRecipient.queues .empty = [(queuedId, oneId)] := broadcastQueued_requested
    rw [hqueues, List.mem_singleton] at hmem
    have hlen := congrArg (fun e => e.2.length) hmem
    have hone : oneId.length = queuedId.length + 9 := by
      change (queuedId ++ ascii "_" ++ oneKey.take 8).length = _
      rw [List.length_append, List.length_append]
      rfl
    dsimp only at hlen
    omega

theorem broadcast_status_right_iff_oneQueued : CountsRight oneQueued.store [(queuedId, oneId)] queuedId (broadcastCounts oneQueued.store queuedId) := by
  obtain ⟨_, hright⟩ := broadcast_status_right_iff logged_oneQueued clockZero parseDeliveryFrame_queuedFrame reqString_statusParams
  refine hright.mpr ⟨?_, ?_⟩
  · intro id hid
    obtain rfl : id = oneId := congrArg Prod.snd (List.mem_singleton.mp (mem_enqueuedFor.mp hid))
    exact pendingRow_oneQueued
  · exact not_pendingRow_queuedId

theorem deliveredIds_pollAck {load : Bytes → Option Item} (hload : Loads load) (s : OutboxStore) (ids : List Bytes) :
    deliveredIds load s (pollAck ids) = ids := by
  have hids : pollAckIds [(.text (ascii "type"), .text (ascii "outbox_poll_ack")), (.text (ascii "message_ids"), .array (ids.map .text))] = ids := by
    simp [pollAckIds, asText, List.filterMap_map, Function.comp_def]
  unfold deliveredIds pollAck
  rw [hload.load_encode]
  dsimp only
  rw [hids]
  have hack : ¬ascii "outbox_poll_ack" = ascii "delivery_ack" := by decide
  simp [frameType, getField, hack]

/-- After the recipient has acknowledged its row, the answer is that there is none. -/
theorem not_countsRight_acknowledged : ¬ ∀ (q : Process) (log : List (Bytes × Bytes)) (frame : Bytes) (hdr : DeliveryFrameHeader),
    Logged load {} q log → parseDeliveryFrame load frame = some hdr →
      CountsRight q.store log hdr.messageId (broadcastCounts q.store hdr.messageId) := by
  intro h
  have hlogged := logged_oneQueued.step (.frame [] (pollAck [oneId]))
  have hright := h _ _ queuedFrame _ hlogged parseDeliveryFrame_queuedFrame
  obtain ⟨m, hm, hpending⟩ := ((countsRight_iff hlogged.accounted (messageId_length parseDeliveryFrame_queuedFrame)).mp hright).1 oneId
    (mem_enqueuedFor.mpr List.mem_cons_self)
  have hfind : (next load {} oneQueued (.frame [] (pollAck [oneId]))).store.messages.find oneId = _ :=
    find_onFrame load oneQueued.store [] (pollAck [oneId]) oneId
  rw [hfind, deliveredIds_pollAck load_loads, if_pos List.mem_cons_self] at hm
  obtain ⟨m', _, rfl⟩ := Option.map_eq_some_iff.mp hm
  cases hpending

end ScatterWeb.Outbox
