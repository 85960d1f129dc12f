import ScatterWeb.Inbox.Admission

/-! # Messages that were acknowledged

A row leaves the table in two ways: `inbox.ack` deletes a message that is only passed through, and the sweep deletes
what has expired. Once a row is gone, nothing tells a frame with its id from a new one. -/
namespace ScatterWeb.Inbox
open Crypto Lib Lib.Cbor Client Mailbox
set_option autoImplicit false

section Rows
variable {load : Bytes → Option Item} {cfg : Config} {s : InboxStore} {e : Event} {id : Bytes} {m : StoredMessage}

theorem next_ack {env : Env} {p : CborMap} {msg : StoredMessage} (hid : reqString p "message_id" = .ok id)
    (hmsg : s.getMessage id = some msg) : next load cfg s (.ipc env "inbox.ack" p) = ackMessage env s id msg := by
  have hack : ack env s p = .ok (ackMessage env s id msg, [("message_id", .text id), ("ok", .bool true)]) := by
    unfold ack
    rw [hid]
    simp only [bind, Except.bind, hmsg]
  have hhandle : handle env s "inbox.ack" p = ack env s p := rfl
  simp only [next, step, hhandle, hack]

theorem next_ack_of_find_none {env : Env} {p : CborMap} (hid : reqString p "message_id" = .ok id)
    (hnone : s.messages.find id = none) : next load cfg s (.ipc env "inbox.ack" p) = s := by
  have hack : ack env s p = .error (notFound id) := by
    unfold ack InboxStore.getMessage
    rw [hid]
    simp only [bind, Except.bind, hnone, Option.map_none]
  have hhandle : handle env s "inbox.ack" p = ack env s p := rfl
  simp only [next, step, hhandle, hack]

/-- The row of an acknowledged message. -/
theorem find_ackMessage {env : Env} (hfind : s.messages.find id = some m) :
    (ackMessage env s id (InboxStore.readRow m)).messages.find id =
      if isPassThrough (cStr m.persistence) then none
      else some { m with deliveredToClient := true, expiresAt := env.nowS + s.retentionDays * 86400 } := by
  unfold ackMessage
  rw [show (InboxStore.readRow m).persistence = cStr m.persistence from rfl]
  split
  · rw [s.find_deleteMessage, if_pos rfl]
  · rw [s.find_markDelivered, if_pos rfl, hfind, Option.map_some]

theorem find_ackMessage_of_ne {env : Env} {id' : Bytes} {msg : StoredMessage} (h : id' ≠ id) :
    (ackMessage env s id' msg).messages.find id = s.messages.find id := by
  unfold ackMessage
  split
  · rw [s.find_deleteMessage, if_neg h]
  · rw [s.find_markDelivered, if_neg h]

/-- What becomes of a row in one step. -/
theorem row_next (load : Bytes → Option Item) (cfg : Config) (e : Event) (hfind : s.messages.find id = some m) :
    (next load cfg s e).messages.find id = some m ∨
    (∃ env p, e = .ipc env "inbox.ack" p ∧ reqString p "message_id" = .ok id) ∨
    (∃ env, e = .tick env ∧ 0 < m.expiresAt ∧ m.expiresAt < env.nowS ∧ (next load cfg s e).messages.find id = none) := by
  have hchange : Change load cfg s e (next load cfg s e).messages _ := step_change s e
  generalize (next load cfg s e).messages = table at hchange ⊢
  generalize (step load cfg s e).2.pushes = pushes at hchange
  cases hchange with
  | none => exact Or.inl hfind
  | delivery hframe hallowed hnew => exact Or.inl (Table.find_insertNew_of_some hfind)
  | replication hframe hwrapper => exact Or.inl (Table.find_insertNew_of_some hfind)
  | @ack env p id' msg hid hmsg =>
    by_cases h : id' = id
    · subst h
      exact Or.inr (Or.inl ⟨env, p, rfl, hid⟩)
    · exact Or.inl ((find_ackMessage_of_ne h).trans hfind)
  | @sweep env =>
    rw [s.find_deleteExpired, hfind, Option.filter_some]
    by_cases hexp : 0 < m.expiresAt ∧ m.expiresAt < env.nowS
    · exact Or.inr (Or.inr ⟨env, rfl, hexp.1, hexp.2, by simp [hexp]⟩)
    · exact Or.inl (by simp [hexp])
  | start => exact Or.inl hfind

/-- As long as a row is there, it holds the frame it was made with. -/
theorem deliveryFrame_next {m' : StoredMessage} (hfind : s.messages.find id = some m)
    (hnext : (next load cfg s e).messages.find id = some m') : m'.deliveryFrame = m.deliveryFrame := by
  rcases row_next load cfg e hfind with hsame | ⟨env, p, rfl, hid⟩ | ⟨_, _, _, _, hnone⟩
  · rw [hsame] at hnext
    cases hnext
    rfl
  · rw [next_ack hid (s.getMessage_of_find hfind), find_ackMessage hfind] at hnext
    split at hnext
    · cases hnext
    · cases hnext
      rfl
  · rw [hnone] at hnext
    cases hnext

theorem exists_find_of_messageExists (h : s.messageExists id = true) : ∃ m, s.messages.find id = some m :=
  Option.isSome_iff_exists.mp h

end Rows

/-! ## After the acknowledgement -/

section Acknowledged
variable (load : Bytes → Option Item) (cfg : Config)

def Pending (id : Bytes) (s : InboxStore) : Prop := ∃ m ∈ s.getPending true, m.messageId = id

/-- The step neither makes the message pending nor announces it. -/
def StaysAcked (id : Bytes) (s : InboxStore) (e : Event) : Prop :=
  ¬Pending id (next load cfg s e) ∧ ∀ sender, (id, sender) ∉ (step load cfg s e).2.pushes

/-- A delivery frame of an allowed sender with the id comes while there is no row, or a frame of a sibling with the
id inside while there is no row under the id of the wrapper. -/
def Revives (id : Bytes) (s : InboxStore) : Event → Prop
  | .frame _ _ body =>
    (∃ hdr, deliveryOf load body = some hdr ∧ hdr.messageId = id ∧ s.isAllowedSender hdr.senderId = true ∧
      s.messageExists id = false) ∨
    (∃ rep, replicationOf load body = some rep ∧ rep.hdr.messageId = id ∧ s.messageExists rep.repMessageId = false)
  | _ => False

variable {load cfg} {s : InboxStore} {e : Event} {id : Bytes}

/-- There is a row that is not marked as delivered. -/
def Unmarked (id : Bytes) (table : Table StoredMessage.messageId) : Prop :=
  ∃ m, table.find id = some m ∧ m.deliveredToClient = false

theorem pending_iff : Pending id s ↔ Unmarked id s.messages := s.exists_mem_getPending_iff

theorem not_unmarked_of_find_eq {table table' : Table StoredMessage.messageId} (h : ¬Unmarked id table)
    (heq : table'.find id = table.find id) : ¬Unmarked id table' := by
  unfold Unmarked at h ⊢
  rw [heq]
  exact h

theorem not_unmarked_sweep {env : Env} (h : ¬Unmarked id s.messages) : ¬Unmarked id (s.deleteExpired env.nowS).messages := by
  rintro ⟨m, hm, hpending⟩
  rw [s.find_deleteExpired, Option.filter_eq_some_iff] at hm
  exact h ⟨m, hm.1, hpending⟩

theorem not_unmarked_ackMessage_self (env : Env) (s : InboxStore) {msg : StoredMessage} (hmsg : s.getMessage id = some msg) :
    ¬Unmarked id (ackMessage env s id msg).messages := by
  obtain ⟨m, hm, rfl⟩ := Option.map_eq_some_iff.mp hmsg
  unfold Unmarked
  rw [find_ackMessage hm]
  rintro ⟨m', hm', hpending⟩
  split at hm'
  · cases hm'
  · cases hm'
    cases hpending

theorem not_pending_after_ack (load : Bytes → Option Item) (cfg : Config) (s : InboxStore) (env : Env) {p : CborMap}
    (hid : reqString p "message_id" = .ok id) : ¬Pending id (next load cfg s (.ipc env "inbox.ack" p)) := by
  rw [pending_iff]
  cases hmsg : s.getMessage id with
  | none =>
    have hnone := Option.map_eq_none_iff.mp hmsg
    rw [next_ack_of_find_none hid hnone]
    rintro ⟨m, hm, _⟩
    rw [hnone] at hm
    cases hm
  | some msg =>
    rw [next_ack hid hmsg]
    exact not_unmarked_ackMessage_self env s hmsg

theorem quiet_of_change {table : Table StoredMessage.messageId} {pushes : List (Bytes × Bytes)}
    (hchange : Change load cfg s e table pushes) (h : ¬Unmarked id s.messages) (hrevives : ¬Revives load id s e) :
    ¬Unmarked id table ∧ ∀ sender, (id, sender) ∉ pushes := by
  cases hchange with
  | none => exact ⟨h, fun _ => List.not_mem_nil⟩
  | @delivery env channelId body hdr hframe hallowed hnew =>
    have hne : hdr.messageId ≠ id := by
      rintro rfl
      exact hrevives (Or.inl ⟨hdr, hframe, rfl, hallowed, s.messageExists_eq_false_iff.mpr hnew⟩)
    refine ⟨not_unmarked_of_find_eq h (Table.find_insertNew_of_ne hne), ?_⟩
    intro sender hmem
    exact hne (congrArg Prod.fst (List.mem_singleton.mp hmem)).symm
  | @replication env channelId body rep hframe hwrapper =>
    have hne : rep.hdr.messageId ≠ id := by
      rintro rfl
      exact hrevives (Or.inr ⟨rep, hframe, rfl, hwrapper⟩)
    refine ⟨not_unmarked_of_find_eq h (Table.find_insertNew_of_ne hne), ?_⟩
    intro sender hmem
    exact hne (congrArg Prod.fst (List.mem_singleton.mp hmem)).symm
  | @ack env p id' msg hid hmsg =>
    refine ⟨?_, fun _ => List.not_mem_nil⟩
    by_cases hsame : id' = id
    · subst hsame
      exact not_unmarked_ackMessage_self env s hmsg
    · exact not_unmarked_of_find_eq h (find_ackMessage_of_ne hsame)
  | sweep => exact ⟨not_unmarked_sweep h, fun _ => List.not_mem_nil⟩
  | start =>
    -- A restart announces the pending messages, and this is none of them.
    refine ⟨h, ?_⟩
    intro sender hmem
    obtain ⟨m, hm, heq⟩ := List.mem_map.mp hmem
    exact h (pending_iff.mp ⟨m, hm, congrArg Prod.fst heq⟩)

theorem not_staysAcked_of_revives (hrevives : Revives load id s e) : ¬StaysAcked load cfg id s e := by
  cases e with
  | frame env channelId body =>
    rcases hrevives with ⟨hdr, hframe, rfl, hallowed, hnew⟩ | ⟨rep, hframe, rfl, hwrapper⟩
    · intro hstays
      have hfind := s.messageExists_eq_false_iff.mp hnew
      have hrow : (next load cfg s (.frame env channelId body)).messages.find hdr.messageId = _ :=
        find_processDeliveryFrame_new hframe hallowed hfind
      exact hstays.1 (pending_iff.mpr ⟨_, hrow, rfl⟩)
    · intro hstays
      refine hstays.2 rep.hdr.senderId ?_
      simp only [step]
      rw [processDeliveryFrame_replication hframe, if_neg (by rw [hwrapper]; exact Bool.false_ne_true)]
      exact List.mem_singleton.mpr rfl
  | ipc => exact hrevives.elim
  | tick => exact hrevives.elim
  | restart => exact hrevives.elim

theorem staysAcked_iff (h : ¬Pending id s) : StaysAcked load cfg id s e ↔ ¬Revives load id s e := by
  constructor
  · intro hstays hrevives
    exact not_staysAcked_of_revives hrevives hstays
  · intro hrevives
    have hquiet : ¬Unmarked id (next load cfg s e).messages ∧ _ := quiet_of_change (step_change s e) (pending_iff.not.mp h) hrevives
    exact ⟨pending_iff.not.mpr hquiet.1, hquiet.2⟩

/-- After `inbox.ack` a message is not pending, and it stays so, without being announced, along exactly the runs in which
nothing revives it. -/
theorem acked_stays_acked_iff (load : Bytes → Option Item) (cfg : Config) (s : InboxStore) {env : Env} {p : CborMap} {id : Bytes}
    (hid : reqString p "message_id" = .ok id) (es : List Event) :
    (¬Pending id (next load cfg s (.ipc env "inbox.ack" p)) ∧
      Along (next load cfg) (StaysAcked load cfg id) (next load cfg s (.ipc env "inbox.ack" p)) es) ↔
      Along (next load cfg) (fun s e => ¬Revives load id s e) (next load cfg s (.ipc env "inbox.ack" p)) es := by
  have hpending := not_pending_after_ack load cfg s env hid
  rw [and_iff_right hpending]
  exact along_iff (fun s => ¬Pending id s) (fun _ _ h => staysAcked_iff h) (fun _ _ _ hstays => hstays.1) hpending es

theorem next_ack_passThrough {env : Env} {p : CborMap} {m : StoredMessage} (hid : reqString p "message_id" = .ok id)
    (hfind : s.messages.find id = some m) (hp : isPassThrough (cStr m.persistence) = true) :
    ∃ t, next load cfg s (.ipc env "inbox.ack" p) = { s with messages := t } ∧ t.find id = none := by
  have hack : ackMessage env s id (InboxStore.readRow m) = s.deleteMessage id := if_pos hp
  rw [next_ack hid (s.getMessage_of_find hfind), hack]
  exact ⟨(s.deleteMessage id).messages, rfl, by rw [s.find_deleteMessage, if_pos rfl]⟩

/-- A message that is only passed through comes back with every retransmission after its acknowledgement. -/
theorem not_staysAcked_passThrough {env : Env} {p : CborMap} {channelId body : Bytes} {hdr : FrameHeader}
    (hframe : deliveryOf load body = some hdr) (hallowed : s.isAllowedSender hdr.senderId = true)
    (hnew : s.messages.find hdr.messageId = none) (hp : isPassThrough (cStr (orStore hdr.persistence)) = true)
    (hid : reqString p "message_id" = .ok hdr.messageId) :
    ¬StaysAcked load cfg hdr.messageId (next load cfg (next load cfg s (.frame env channelId body)) (.ipc env "inbox.ack" p))
      (.frame env channelId body) := by
  obtain ⟨t, hstored, hrow⟩ : ∃ t, next load cfg s (.frame env channelId body) = { s with messages := t } ∧
    t.find hdr.messageId = some (deliveredMessage cfg env body hdr) := next_frame_new hframe hallowed hnew
  rw [hstored]
  obtain ⟨t', hacked, hnone⟩ : ∃ t', next load cfg { s with messages := t } (.ipc env "inbox.ack" p) = { s with messages := t' } ∧
    t'.find hdr.messageId = none := next_ack_passThrough hid hrow hp
  rw [hacked]
  apply not_staysAcked_of_revives
  exact Or.inl ⟨hdr, hframe, rfl, hallowed, (InboxStore.messageExists_eq_false_iff _).mpr hnone⟩

end Acknowledged

def ackParams : CborMap := [(.text (ascii "message_id"), .text frameId)]

theorem reqString_ackParams : reqString ackParams "message_id" = .ok frameId := by
  simp [reqString, CborMap.find, lastField, lastWith, ackParams]

theorem acked_stays_acked_iff_ackParams :
    (¬Pending frameId (next load {} taken (.ipc clockZero "inbox.ack" ackParams)) ∧
      Along (next load {}) (StaysAcked load {} frameId) (next load {} taken (.ipc clockZero "inbox.ack" ackParams)) [takenEvent]) ↔
      Along (next load {}) (fun s e => ¬Revives load frameId s e) (next load {} taken (.ipc clockZero "inbox.ack" ackParams))
        [takenEvent] :=
  acked_stays_acked_iff load {} taken reqString_ackParams [takenEvent]

theorem zero_notMem_passThrough : (0 : UInt8) ∉ ascii "pass_through" := by decide

def passedEvent : Event := .frame clockZero [] (frameFrom 1 (ascii "pass_through"))

/-- A frame that is only passed through was stored for the Client. -/
def passed : InboxStore := next load {} ready passedEvent

theorem reached_passed : Reached load {} passed := (((Reachable.refl _ _).tail rfl).tail rfl).tail rfl

/-- The Client acknowledges the frame, its outbox sends it once more, and it is pending again. -/
theorem not_staysAcked_retransmission :
    ¬ ∀ s env p id es, Reached load {} s → reqString p "message_id" = .ok id →
      Along (next load {}) (StaysAcked load {} id) (next load {} s (.ipc env "inbox.ack" p)) es := by
  intro h
  have hrun := h passed clockZero ackParams frameId [passedEvent] reached_passed reqString_ackParams
  have hframe := deliveryOf_frameFrom 1 zero_notMem_passThrough
  have hp : isPassThrough (cStr (orStore (ascii "pass_through"))) = true := by decide
  exact not_staysAcked_passThrough hframe ready_facts.2.1 ready_facts.2.2.2 hp reqString_ackParams hrun.1

end ScatterWeb.Inbox
