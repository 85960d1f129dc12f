import ScatterWeb.Inbox.Admission
import ScatterWeb.Inbox.Replacement
import ScatterWeb.Lib.SharedConnection

/-! # The threads of the inbox

The reader thread of the AnonRouter client handles frames, the IPC server has a thread for every connection, and the maintenance loop has its
own. They share one connection to the database, without a lock. Here a handler is the calls that it makes of the store, in the order of the
source and with what its decisions rest on read in between; `step` is a handler that nobody interrupts (`finishes_handler`), and every run of
steps is a run of the threads (`reachable_threads`). Reads whose result is only sent are left out, and so is what is sent. -/
namespace ScatterWeb.Inbox
open Crypto Lib Lib.Cbor Lib.SharedConnection Client Mailbox
set_option autoImplicit false

/-- The statements of `inbox/src/store.cpp` that write, and the write to `retention_days_`. -/
inductive Command
  | insertMessage (msg : StoredMessage)
  | markDelivered (id : Bytes) (expiresAt : ℤ)
  | deleteMessage (id : Bytes)
  | deleteExpired (nowS : ℤ)
  | upsertSibling (sib : SiblingInbox)
  | removeSibling (deviceId : Bytes)
  | setDhtCredentials (creds : DhtCredentials)
  | deleteKnownOutboxes
  | insertKnownOutbox (o : KnownOutbox)
  | deleteAllowedSenders
  | insertAllowedSender (id : Bytes)
  | setRetentionDays (days : ℤ)

/-- The key of a message refuses the second row. -/
def Command.run : Command → Statement InboxStore
  | .insertMessage msg => fun s => if s.messageExists msg.messageId then none else some (s.insertMessage msg).1
  | .markDelivered id expiresAt => fun s => some (s.markDelivered id expiresAt)
  | .deleteMessage id => fun s => some (s.deleteMessage id)
  | .deleteExpired nowS => fun s => some (s.deleteExpired nowS)
  | .upsertSibling sib => fun s => (s.upsertSibling sib).toOption
  | .removeSibling deviceId => fun s => some (s.removeSibling deviceId)
  | .setDhtCredentials creds => fun s => (s.setDhtCredentials creds).toOption
  | .deleteKnownOutboxes => deleteRows knownOutboxesIn
  | .insertKnownOutbox o => insertRow knownOutboxesIn hasBlobs o
  | .deleteAllowedSenders => deleteRows allowedSendersIn
  | .insertAllowedSender id => insertRow allowedSendersIn (fun _ => true) id
  | .setRetentionDays days => fun s => some (s.setRetentionDays days)

abbrev InboxJob := Job InboxStore Command

/-! ## Frames -/

section Frames
variable (load : Bytes → Option Item) (cfg : Config)

def insertMessageJob (msg : StoredMessage) : InboxJob :=
  .read (fun s => if s.messageExists msg.messageId then .done else .command (.insertMessage msg))

def handleReplicationFrameJob (env : Env) (body : Bytes) : InboxJob :=
  match load body with
  | some (.map kvs) =>
    let innerFrame := (lastField asBytes kvs "delivery_frame").getD []
    let repMessageId := (lastField asText kvs "message_id").getD []
    if innerFrame = [] then .done
    else
      .read (fun s =>
        if s.messageExists repMessageId then .done
        else
          match parseFrameHeader load innerFrame with
          | none => .done
          | some hdr => insertMessageJob (replicatedMessage env innerFrame hdr))
  | _ => .done

/-- From the test for a duplicate on. -/
def storeDeliveryJob (env : Env) (body : Bytes) (hdr : FrameHeader) : InboxJob :=
  .read (fun s => if s.messageExists hdr.messageId then .done else insertMessageJob (deliveredMessage cfg env body hdr))

/-- An `outbox_poll` is answered and changes nothing. -/
def processDeliveryFrameJob (env : Env) (body : Bytes) : InboxJob :=
  match load body with
  | none => .done
  | some root =>
    if frameType root = ascii "inbox_replication_frame" then handleReplicationFrameJob load env body
    else if frameType root = ascii "outbox_poll" then .done
    else if isIgnored (frameType root) then .done
    else
      match parseFrameHeader load body with
      | none => .done
      | some hdr => .read (fun s => if s.isAllowedSender hdr.senderId then storeDeliveryJob cfg env body hdr else .done)

end Frames

/-! ## Requests -/

/-- The write of an acknowledgement that was made at `env` with the retention it has read. -/
def markJob (env : Env) (id : Bytes) (days : ℤ) : InboxJob := .command (.markDelivered id (env.nowS + days * 86400))

def ackJob (env : Env) (p : CborMap) : Except IpcError InboxJob := do
  let id ← reqString p "message_id"
  return .read (fun s =>
    match s.getMessage id with
    | none => .done
    | some msg =>
      if isPassThrough msg.persistence then .command (.deleteMessage id)
      else .read (fun s => markJob env id s.retentionDays))

def updateDhtDelegationJob (p : CborMap) : Except IpcError InboxJob := do
  let keyCPubkey ← reqBytes p "key_c_pubkey"
  let keyCPrivkey ← reqBytes p "key_c_privkey"
  let authCert ← reqBytes p "auth_cert"
  let delegationCert ← reqBytes p "delegation_cert"
  return .command (.setDhtCredentials { keyCPubkey, keyCPrivkey, authCert, delegationCert })

def updateContactOutboxesJob (p : CborMap) : Except IpcError InboxJob :=
  match p.find "outboxes" with
  | some (.array arr) => .ok (.transaction (.deleteKnownOutboxes :: (arr.filterMap readKnownOutbox).map .insertKnownOutbox))
  | _ => .error (.runtime (ascii "outboxes must be an array"))

def updateSenderAllowlistJob (p : CborMap) : Except IpcError InboxJob :=
  match p.find "sender_ids" with
  | some (.array arr) => .ok (.transaction (.deleteAllowedSenders :: (arr.filterMap asText).map .insertAllowedSender))
  | _ => .error (.runtime (ascii "sender_ids must be an array"))

def addSiblingJob (p : CborMap) : Except IpcError InboxJob := do
  let keyCPubkey ← reqBytes p "key_c_pubkey"
  let authCert ← reqBytes p "auth_cert"
  let deviceId := ((p.find "device_id").bind asText).getD []
  return .command (.upsertSibling { deviceId, keyCPubkey, authCert })

def removeSiblingJob (p : CborMap) : Except IpcError InboxJob := do
  let id ← reqString p "device_id"
  return .command (.removeSibling id)

def setRetentionDaysJob (p : CborMap) : Except IpcError InboxJob :=
  match p.find "days" with
  | some (.uint a) =>
    let days := (UInt64.ofNat a.toNat).toUInt32.toInt32.toInt
    if days < 1 ∨ 365 < days then .error (.runtime (ascii "days out of range"))
    else .ok (.call (.assign (.setRetentionDays days)) .done .done)
  | _ => .error (.runtime (ascii "days must be uint"))

/-- The requests that write; every other one only reads. -/
def handleJob (env : Env) (method : String) (p : CborMap) : Except IpcError InboxJob :=
  if method = "inbox.ack" then ackJob env p
  else if method = "inbox.update_dht_delegation" then updateDhtDelegationJob p
  else if method = "inbox.update_contact_outboxes" then updateContactOutboxesJob p
  else if method = "inbox.update_sender_allowlist" then updateSenderAllowlistJob p
  else if method = "inbox.add_sibling" then addSiblingJob p
  else if method = "inbox.remove_sibling" then removeSiblingJob p
  else if method = "inbox.set_retention_days" then setRetentionDaysJob p
  else .ok .done

/-- A request that is refused before it comes to the store does nothing. -/
def orDone : Except IpcError InboxJob → InboxJob
  | .ok job => job
  | .error _ => .done

/-! ## The daemon -/

abbrev Daemon := System InboxStore Command

section Daemon
variable (load : Bytes → Option Item) (cfg : Config)

def handler : Event → InboxJob
  | .frame env _ body => processDeliveryFrameJob load cfg env body
  | .ipc env method params => orDone (handleJob env method params)
  | .tick env => .command (.deleteExpired env.nowS)
  | .restart _ => .done

/-- A thread begins a handler, or the thread `i` makes its next call. -/
inductive Move
  | start (e : Event)
  | turn (i : ℕ) (fate : Fate)

/-- What a new process makes of the database. -/
def boot (s : InboxStore) : InboxStore := s.setRetentionDays 7

def Daemon.next (d : Daemon) : Move → Daemon
  | .start e =>
    match e with
    | .restart _ => d.restarted boot
    | e => d.started (handler load cfg e)
  | .turn i fate => d.turn Command.run boot i fate

def Moves (d : Daemon) (mv : Move) (t : Daemon) : Prop := t = Daemon.next load cfg d mv

end Daemon

/-! ## A handler that nobody interrupts -/

section Alone
variable {load : Bytes → Option Item} {cfg : Config} {env : Env} {s : InboxStore} {body : Bytes} {p : CborMap}

/-- The job ends with these contents. -/
def Ends (s : InboxStore) (job : InboxJob) (s' : InboxStore) : Prop := Finishes Command.run ⟨s, none⟩ job ⟨s', none⟩

theorem ends_done : Ends s .done s := .done

theorem ends_read {next : InboxStore → InboxJob} {s' : InboxStore} (h : Ends s (next s) s') : Ends s (.read next) s' := .read h

theorem ends_command (k : Command) {s' : InboxStore} (h : (k.run s).getD s = s') : Ends s (.command k) s' := by
  subst h
  exact finishes_command k s

theorem ends_insertMessageJob (msg : StoredMessage) : Ends s (insertMessageJob msg) (s.insertMessage msg).1 := by
  apply ends_read
  by_cases hexists : s.messageExists msg.messageId
  · rw [if_pos hexists]
    obtain ⟨m, hm⟩ := Option.isSome_iff_exists.mp hexists
    have hsame : (s.insertMessage msg).1 = s := by
      unfold InboxStore.insertMessage
      rw [Table.insertNew_of_find_some hm]
    rw [hsame]
    exact ends_done
  · rw [if_neg hexists]
    refine ends_command _ ?_
    unfold Command.run
    dsimp only
    rw [if_neg hexists, Option.getD_some]

theorem ends_handleReplicationFrameJob : Ends s (handleReplicationFrameJob load env body) (handleReplicationFrame load env s body).1 := by
  unfold handleReplicationFrameJob handleReplicationFrame
  rcases load body with _ | root
  · exact ends_done
  cases root with
  | map kvs =>
    dsimp only
    by_cases hinner : (lastField asBytes kvs "delivery_frame").getD [] = []
    · rw [if_pos hinner, if_pos (Or.inl hinner)]
      exact ends_done
    rw [if_neg hinner]
    apply ends_read
    by_cases hexists : s.messageExists ((lastField asText kvs "message_id").getD [])
    · rw [if_pos hexists, if_pos (Or.inr hexists)]
      exact ends_done
    rw [if_neg hexists, if_neg (not_or.mpr ⟨hinner, hexists⟩)]
    cases parseFrameHeader load ((lastField asBytes kvs "delivery_frame").getD []) with
    | none => exact ends_done
    | some hdr => exact ends_insertMessageJob _
  | _ => exact ends_done

theorem ends_storeDeliveryJob (channelId : Bytes) (hdr : FrameHeader) :
    Ends s (storeDeliveryJob cfg env body hdr) (storeDelivery cfg env s channelId body hdr).1 := by
  apply ends_read
  unfold storeDelivery
  split_ifs with hexists
  · exact ends_done
  · have hinsert := ends_insertMessageJob (s := s) (deliveredMessage cfg env body hdr)
    dsimp only
    revert hinsert
    rcases s.insertMessage (deliveredMessage cfg env body hdr) with ⟨s', _ | _⟩
    · exact id
    · exact id

theorem ends_processDeliveryFrameJob (channelId : Bytes) :
    Ends s (processDeliveryFrameJob load cfg env body) (processDeliveryFrame load cfg env s channelId body).1 := by
  unfold processDeliveryFrameJob processDeliveryFrame
  rcases load body with _ | root
  · exact ends_done
  dsimp only
  split_ifs with hreplication hpoll hignored
  · exact ends_handleReplicationFrameJob
  · exact ends_done
  · exact ends_done
  cases parseFrameHeader load body with
  | none => exact ends_done
  | some hdr =>
    apply ends_read
    dsimp only
    rw [admit_false]
    by_cases hallowed : s.isAllowedSender hdr.senderId
    · rw [if_pos hallowed, if_pos hallowed]
      exact ends_storeDeliveryJob channelId hdr
    · rw [if_neg hallowed, if_neg hallowed]
      exact ends_done

/-- The store that a request leaves. -/
def after (s : InboxStore) : Except IpcError (InboxStore × Reply) → InboxStore
  | .ok (s', _) => s'
  | .error _ => s

theorem ends_orDone_bind {α : Type} {x : Except IpcError α} {f : α → Except IpcError InboxJob} {g : α → Except IpcError (InboxStore × Reply)}
    (h : ∀ a, Ends s (orDone (f a)) (after s (g a))) : Ends s (orDone (x >>= f)) (after s (x >>= g)) := by
  cases x with
  | error e => exact ends_done
  | ok a => exact h a

theorem ends_ackJob : Ends s (orDone (ackJob env p)) (after s (ack env s p)) := by
  apply ends_orDone_bind
  intro id
  apply ends_read
  cases hmsg : s.getMessage id with
  | none => exact ends_done
  | some msg =>
    dsimp only [after]
    unfold ackMessage
    split_ifs with hpass
    · exact ends_command _ rfl
    · exact ends_read (ends_command _ rfl)

theorem ends_updateDhtDelegationJob : Ends s (orDone (updateDhtDelegationJob p)) (after s (updateDhtDelegation s p)) := by
  refine ends_orDone_bind (fun keyCPubkey => ends_orDone_bind (fun keyCPrivkey => ends_orDone_bind (fun authCert =>
    ends_orDone_bind (fun delegationCert => ends_command _ ?_))))
  unfold Command.run
  dsimp only
  cases s.setDhtCredentials { keyCPubkey, keyCPrivkey, authCert, delegationCert } with
  | error e => rfl
  | ok s' => rfl

theorem ends_addSiblingJob : Ends s (orDone (addSiblingJob p)) (after s (addSibling s p)) := by
  refine ends_orDone_bind (fun keyCPubkey => ends_orDone_bind (fun authCert => ends_command _ ?_))
  unfold Command.run
  dsimp only
  cases s.upsertSibling { deviceId := ((p.find "device_id").bind asText).getD [], keyCPubkey, authCert } with
  | error e => rfl
  | ok s' => rfl

theorem ends_removeSiblingJob : Ends s (orDone (removeSiblingJob p)) (after s (removeSibling s p)) :=
  ends_orDone_bind (fun _ => ends_command _ rfl)

theorem ends_replaceRows {ρ κ : Type} [DecidableEq κ] {key : ρ → κ} {place : TableIn InboxStore key} {ok : ρ → Bool} {delete : Command}
    {insert : ρ → Command} (s : InboxStore) (hdelete : delete.run = deleteRows place) (hinsert : ∀ r, (insert r).run = insertRow place ok r)
    (list : List ρ) :
    Ends s (.transaction (delete :: list.map insert))
      (((InboxStore.insertAll ok .empty list).toOption.map (fun t => place.put t s)).getD s) := by
  have hruns : (delete :: list.map insert).map Command.run = replaceRows place ok list := by
    rw [List.map_cons, List.map_map, hdelete]
    exact congrArg _ (List.map_congr_left (fun r _ => hinsert r))
  rw [← applyAll_replaceRows, ← hruns]
  exact finishes_transaction _ s

theorem ends_updateContactOutboxesJob : Ends s (orDone (updateContactOutboxesJob p)) (after s (updateContactOutboxes s p)) := by
  have hdelete : Command.deleteKnownOutboxes.run = deleteRows knownOutboxesIn := rfl
  have hinsert : ∀ o, (Command.insertKnownOutbox o).run = insertRow knownOutboxesIn hasBlobs o := fun _ => rfl
  unfold updateContactOutboxesJob updateContactOutboxes
  rcases p.find "outboxes" with _ | v
  · exact ends_done
  cases v with
  | array arr =>
    have hends := ends_replaceRows s hdelete hinsert (arr.filterMap readKnownOutbox)
    dsimp only
    unfold InboxStore.replaceKnownOutboxes
    rw [show (fun o : KnownOutbox => decide (o.keyCPubkey ≠ [] ∧ o.authCert ≠ [])) = hasBlobs from rfl]
    revert hends
    cases @InboxStore.insertAll KnownOutbox Bytes _ KnownOutbox.keyCPubkey hasBlobs .empty (arr.filterMap readKnownOutbox) with
    | error e => exact id
    | ok t => exact id
  | _ => exact ends_done

theorem ends_updateSenderAllowlistJob : Ends s (orDone (updateSenderAllowlistJob p)) (after s (updateSenderAllowlist s p)) := by
  have hdelete : Command.deleteAllowedSenders.run = deleteRows allowedSendersIn := rfl
  have hinsert : ∀ id, (Command.insertAllowedSender id).run = insertRow allowedSendersIn (fun _ => true) id := fun _ => rfl
  unfold updateSenderAllowlistJob updateSenderAllowlist
  rcases p.find "sender_ids" with _ | v
  · exact ends_done
  cases v with
  | array arr =>
    have hends := ends_replaceRows s hdelete hinsert (arr.filterMap asText)
    dsimp only
    unfold InboxStore.replaceAllowedSenders
    revert hends
    cases @InboxStore.insertAll Bytes Bytes _ id (fun _ => true) .empty (arr.filterMap asText) with
    | error e => exact id
    | ok t => exact id
  | _ => exact ends_done

theorem ends_setRetentionDaysJob : Ends s (orDone (setRetentionDaysJob p)) (after s (setRetentionDays s p)) := by
  unfold setRetentionDaysJob setRetentionDays
  rcases p.find "days" with _ | v
  · exact ends_done
  cases v with
  | uint a =>
    dsimp only
    split_ifs with hdays
    · exact ends_done
    · exact .returned rfl .done
  | _ => exact ends_done

theorem ends_handleJob (method : String) : Ends s (orDone (handleJob env method p)) (after s (handle env s method p)) := by
  unfold handleJob handle
  by_cases hack : method = "inbox.ack"
  · subst hack
    exact ends_ackJob
  by_cases hdelegation : method = "inbox.update_dht_delegation"
  · subst hdelegation
    exact ends_updateDhtDelegationJob
  by_cases houtboxes : method = "inbox.update_contact_outboxes"
  · subst houtboxes
    exact ends_updateContactOutboxesJob
  by_cases hallowlist : method = "inbox.update_sender_allowlist"
  · subst hallowlist
    exact ends_updateSenderAllowlistJob
  by_cases hadd : method = "inbox.add_sibling"
  · subst hadd
    exact ends_addSiblingJob
  by_cases hremove : method = "inbox.remove_sibling"
  · subst hremove
    exact ends_removeSiblingJob
  by_cases hdays : method = "inbox.set_retention_days"
  · subst hdays
    exact ends_setRetentionDaysJob
  rw [if_neg hack, if_neg hdelegation, if_neg houtboxes, if_neg hallowlist, if_neg hadd, if_neg hremove, if_neg hdays, if_neg hack,
    if_neg hdelegation, if_neg houtboxes, if_neg hallowlist, if_neg hadd, if_neg hremove, if_neg hdays]
  split_ifs with hpending hget hguard hstatus
  · exact ends_done
  · cases getMessageReply s p with
    | error e => exact ends_done
    | ok r => exact ends_done
  · exact ends_done
  · exact ends_done
  · exact ends_done

/-- A handler that runs without another thread's calls in between is one step of the inbox. -/
theorem finishes_handler (load : Bytes → Option Item) (cfg : Config) (s : InboxStore) (e : Event) (he : ∀ env, e ≠ .restart env) :
    Ends s (handler load cfg e) (next load cfg s e) := by
  cases e with
  | frame env channelId body => exact ends_processDeliveryFrameJob channelId
  | ipc env method p =>
    have hafter : next load cfg s (.ipc env method p) = after s (handle env s method p) := by
      unfold next step
      dsimp only
      rcases handle env s method p with e | ⟨s', r⟩
      · rfl
      · rfl
    rw [hafter]
    exact ends_handleJob method
  | tick env => exact ends_command _ rfl
  | restart env => exact absurd rfl (he env)

end Alone

section Simulation
variable {load : Bytes → Option Item} {cfg : Config} {s t : InboxStore} {es : List Event}

theorem reachable_turns {d₀ d : Daemon} (h : Reachable (Moves load cfg) d₀ d) (i n : ℕ) :
    Reachable (Moves load cfg) d₀ ((fun d => System.turn Command.run boot d i .done)^[n] d) := by
  induction n with
  | zero => exact h
  | succ n ih =>
    rw [Function.iterate_succ_apply']
    exact ih.tail (e := .turn i .done) rfl

/-- What the inbox does step by step its threads can do. -/
theorem reachable_threads (h : Run (Steps load cfg) s es t) :
    ∃ jobs, Reachable (Moves load cfg) (System.idle s) (⟨⟨t, none⟩, jobs⟩ : Daemon) := by
  induction h with
  | nil => exact ⟨[], Reachable.refl _ _⟩
  | @snoc es u t e _ hstep ih =>
    obtain ⟨jobs, hreach⟩ := ih
    rw [hstep]
    by_cases hrestart : ∃ env, e = .restart env
    · obtain ⟨env, rfl⟩ := hrestart
      exact ⟨[], hreach.tail (e := .start (.restart env)) rfl⟩
    · have hstart : Reachable (Moves load cfg) (System.idle s) (⟨⟨u, none⟩, jobs ++ [handler load cfg e]⟩ : Daemon) := by
        refine hreach.tail (e := .start e) ?_
        cases e with
        | restart env => exact absurd ⟨env, rfl⟩ hrestart
        | _ => rfl
      have hends := finishes_handler load cfg u e (fun env h => hrestart ⟨env, h⟩)
      have hjob : (jobs ++ [handler load cfg e])[jobs.length]? = some (handler load cfg e) := List.getElem?_concat_length
      obtain ⟨n, hn⟩ := hends.turns boot hjob
      have hturns := reachable_turns hstart jobs.length n
      rw [hn] at hturns
      exact ⟨_, hturns⟩

end Simulation

end ScatterWeb.Inbox
