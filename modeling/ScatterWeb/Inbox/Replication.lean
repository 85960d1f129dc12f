import ScatterWeb.Inbox.Admission

/-! # What siblings are sent

`replicate_to_siblings` is called for a new message that is not passed through, and by the maintenance loop for every row whose
`replicated` is 0, whatever its persistence. A send that succeeded is recorded in `sibling_replication_status`, which nothing reads;
the flag of the row stays 0. So the loop is right as long as it meets no such row with a sibling that can be reached.

A new message is handled on the thread that reads the answers of the AnonRouter. There `ensure_channel` waits for an answer that cannot
come and throws, so `ensureChannel` of its environment gives nothing, and the first send is that of the loop. -/
namespace ScatterWeb.Inbox.Replication
open Crypto Lib Lib.Cbor Client Mailbox Inbox
set_option autoImplicit false

/-! ## The sends of an event -/

/-- A call of `frame.send` with a message for a sibling. -/
structure Attempt where
  messageId : Bytes
  deviceId : Bytes
  channelId : Bytes
  payload : Bytes

def Attempt.pair (a : Attempt) : Bytes × Bytes := (a.messageId, a.deviceId)

def replicateToSiblings (env : Env) (s : InboxStore) (messageId : Bytes) : List Attempt :=
  match s.getMessage messageId with
  | none => []
  | some msg =>
    s.siblings.rows.filterMap (fun sib => (env.ensureChannel (bytesToHex sib.keyCPubkey)).map (fun chan =>
      ⟨messageId, sib.deviceId, chan, replicationFrame messageId msg.deliveryFrame⟩))

/-- The sends of `process_delivery_frame` after the frame was admitted; they come after the row is stored. -/
def storeAttempts (cfg : Config) (env : Env) (s : InboxStore) (body : Bytes) (hdr : FrameHeader) : List Attempt :=
  if !s.messageExists hdr.messageId && !isPassThrough (orStore hdr.persistence) then
    replicateToSiblings env (s.insertMessage (deliveredMessage cfg env body hdr)).1 hdr.messageId
  else []

section Runs
variable (load : Bytes → Option Item) (cfg : Config)

def attempts (s : InboxStore) : Inbox.Event → List Attempt
  | .frame env _ body =>
    match deliveryOf load body with
    | none => []
    | some hdr => if s.isAllowedSender hdr.senderId then storeAttempts cfg env s body hdr else []
  | .tick env =>
    let s := s.deleteExpired env.nowS
    ((s.getPending false).filter (fun m => !m.replicated)).flatMap (fun m => replicateToSiblings env s m.messageId)
  | .ipc _ _ _ => []
  | .restart _ => []

/-- The row is written with `replicated` 1, and there are no others. -/
structure SiblingStatus where
  messageId : Bytes
  deviceId : Bytes

def SiblingStatus.key (r : SiblingStatus) : Bytes × Bytes := (r.messageId, r.deviceId)

/-- An event, and which sends succeed. -/
structure Event where
  event : Inbox.Event
  ok : Attempt → Bool

/-- The store with `sibling_replication_status`, and the messages that were sent so far with their siblings. -/
structure State where
  store : InboxStore
  status : Table SiblingStatus.key
  sent : List (Bytes × Bytes)

def setSiblingReplicated (status : Table SiblingStatus.key) (a : Attempt) : Table SiblingStatus.key := status.upsert ⟨a.messageId, a.deviceId⟩

def next (q : State) (e : Event) : State :=
  let done := (attempts load cfg q.store e.event).filter e.ok
  { store := Inbox.next load cfg q.store e.event
    status := done.foldl setSiblingReplicated q.status
    sent := q.sent ++ done.map Attempt.pair }

theorem next_store (q : State) (e : Event) : (next load cfg q e).store = Inbox.next load cfg q.store e.event := rfl

theorem next_sent (q : State) (e : Event) :
    (next load cfg q e).sent = q.sent ++ ((attempts load cfg q.store e.event).filter e.ok).map Attempt.pair := rfl

/-- No message that is passed through goes to a sibling, and the maintenance loop sends nothing that was sent before. -/
structure SendsOnce (q : State) (e : Event) : Prop where
  notPassed : ∀ a ∈ attempts load cfg q.store e.event, ∀ m, (next load cfg q e).store.messages.find a.messageId = some m →
    m.persistence ≠ ascii "pass_through"
  once : ∀ env, e.event = .tick env → ∀ a ∈ attempts load cfg q.store e.event, a.pair ∉ q.sent

/-- A turn of the maintenance loop in which every row that is not replicated and has a sibling in reach is to be stored and has no
status for that sibling. -/
def NothingToRepeat (q : State) (e : Event) : Prop :=
  ∀ env, e.event = .tick env → ∀ m ∈ (q.store.deleteExpired env.nowS).messages.rows, m.replicated = false →
    ∀ sib ∈ q.store.siblings.rows, (env.ensureChannel (bytesToHex sib.keyCPubkey)).isSome →
      m.persistence ≠ ascii "pass_through" ∧ q.status.find (m.messageId, sib.deviceId) = none

variable {load cfg}

theorem replicateToSiblings_sent (env : Env) (s : InboxStore) (messageId : Bytes) :
    (replicateToSiblings env s messageId).map (fun a => (a.channelId, a.payload)) = Inbox.replicateToSiblings env s messageId := by
  unfold replicateToSiblings Inbox.replicateToSiblings
  cases s.getMessage messageId with
  | none => rfl
  | some msg =>
    dsimp only
    rw [List.map_filterMap]
    congr 1
    funext sib
    rw [Option.map_map]
    rfl

theorem mem_replicateToSiblings {env : Env} {s : InboxStore} {messageId : Bytes} {a : Attempt} (h : a ∈ replicateToSiblings env s messageId) :
    a.messageId = messageId ∧
      ∃ sib ∈ s.siblings.rows, (env.ensureChannel (bytesToHex sib.keyCPubkey)).isSome ∧ a.deviceId = sib.deviceId := by
  unfold replicateToSiblings at h
  split at h
  · cases h
  · obtain ⟨sib, hsib, hchan⟩ := List.mem_filterMap.mp h
    obtain ⟨chan, hsome, rfl⟩ := Option.map_eq_some_iff.mp hchan
    exact ⟨rfl, sib, hsib, Option.isSome_of_eq_some hsome, rfl⟩

theorem exists_mem_replicateToSiblings {env : Env} {s : InboxStore} {m : StoredMessage} {sib : SiblingInbox}
    (hm : s.messages.find m.messageId = some m) (hsib : sib ∈ s.siblings.rows)
    (hchan : (env.ensureChannel (bytesToHex sib.keyCPubkey)).isSome) :
    ∃ a ∈ replicateToSiblings env s m.messageId, a.pair = (m.messageId, sib.deviceId) := by
  obtain ⟨chan, hchan⟩ := Option.isSome_iff_exists.mp hchan
  unfold replicateToSiblings
  rw [s.getMessage_of_find hm]
  refine ⟨⟨m.messageId, sib.deviceId, chan, replicationFrame m.messageId m.deliveryFrame⟩, ?_, rfl⟩
  refine List.mem_filterMap.mpr ⟨sib, hsib, ?_⟩
  rw [hchan]
  rfl

theorem storeDelivery_sent (env : Env) (s : InboxStore) (channelId body : Bytes) (hdr : FrameHeader) : ∃ replies,
    (storeDelivery cfg env s channelId body hdr).2.sent =
      replies ++ (storeAttempts cfg env s body hdr).map (fun a => (a.channelId, a.payload)) := by
  unfold storeAttempts
  cases hfind : s.messages.find hdr.messageId with
  | some m =>
    rw [storeDelivery_old (s.messageExists_of_find hfind), s.messageExists_of_find hfind]
    exact ⟨_, (List.append_nil _).symm⟩
  | none =>
    have hnew : s.messageExists hdr.messageId = false := s.messageExists_eq_false_iff.mpr hfind
    have hins : s.insertMessage (deliveredMessage cfg env body hdr) = ((s.insertMessage (deliveredMessage cfg env body hdr)).1, true) :=
      Prod.ext rfl (Table.insertNew_of_find_none hfind)
    unfold storeDelivery
    rw [hnew, if_neg Bool.false_ne_true]
    dsimp only
    rw [hins]
    dsimp only
    refine ⟨sendAck (s.insertMessage (deliveredMessage cfg env body hdr)).1 channelId hdr.messageId, ?_⟩
    congr 1
    cases hpass : isPassThrough (orStore hdr.persistence) with
    | true =>
      have hpass' : isPassThrough (deliveredMessage cfg env body hdr).persistence = true := hpass
      rw [hpass', if_pos rfl]
      rfl
    | false =>
      have hpass' : isPassThrough (deliveredMessage cfg env body hdr).persistence = false := hpass
      rw [hpass', if_neg Bool.false_ne_true]
      exact (replicateToSiblings_sent env _ hdr.messageId).symm

/-- The attempts are what the inbox sends, after an acknowledgement or a reply. -/
theorem attempts_sent (s : InboxStore) (e : Inbox.Event) : ∃ replies, (step load cfg s e).2.sent =
    replies ++ (attempts load cfg s e).map (fun a => (a.channelId, a.payload)) := by
  cases e with
  | frame env channelId body =>
    unfold attempts step
    dsimp only
    cases hd : deliveryOf load body with
    | none => exact ⟨_, (List.append_nil _).symm⟩
    | some hdr =>
      rw [processDeliveryFrame_delivery hd]
      dsimp only
      cases s.isAllowedSender hdr.senderId with
      | true => exact storeDelivery_sent env s channelId body hdr
      | false => exact ⟨[], rfl⟩
  | tick env =>
    refine ⟨[], ?_⟩
    unfold attempts step maintenance
    dsimp only
    rw [List.nil_append, List.map_flatMap]
    simp only [replicateToSiblings_sent]
  | ipc env method params => exact ⟨_, (List.append_nil _).symm⟩
  | restart env => exact ⟨_, (List.append_nil _).symm⟩

/-! ## One step -/

/-- The status table has exactly what was sent. -/
def Recorded (q : State) : Prop := ∀ pair, (q.status.find pair).isSome ↔ pair ∈ q.sent

theorem find_setSiblingReplicated (status : Table SiblingStatus.key) (a : Attempt) (pair : Bytes × Bytes) :
    ((setSiblingReplicated status a).find pair).isSome ↔ pair = a.pair ∨ (status.find pair).isSome := by
  unfold setSiblingReplicated
  rw [Table.find_upsert]
  by_cases hpair : a.pair = pair
  · have hkey : SiblingStatus.key ⟨a.messageId, a.deviceId⟩ = pair := hpair
    rw [if_pos hkey]
    simp [hpair]
  · have hkey : SiblingStatus.key ⟨a.messageId, a.deviceId⟩ ≠ pair := hpair
    rw [if_neg hkey]
    simp [Ne.symm hpair]

theorem recorded_next (q : State) (e : Event) (h : Recorded q) : Recorded (next load cfg q e) := by
  have hfold : ∀ (done : List Attempt) (status : Table SiblingStatus.key) (sent : List (Bytes × Bytes)),
      (∀ pair, (status.find pair).isSome ↔ pair ∈ sent) →
      ∀ pair, ((done.foldl setSiblingReplicated status).find pair).isSome ↔ pair ∈ sent ++ done.map Attempt.pair := by
    intro done
    induction done with
    | nil => simp
    | cons a done ih =>
      intro status sent hsent pair
      have hnext : ∀ pair, ((setSiblingReplicated status a).find pair).isSome ↔ pair ∈ sent ++ [a.pair] := by
        intro pair
        rw [find_setSiblingReplicated, hsent, List.mem_append, List.mem_singleton, or_comm]
      rw [List.foldl_cons, ih _ _ hnext, List.map_cons, List.append_assoc, List.singleton_append]
  exact hfold _ _ _ h

/-- A row of a frame that is replicated is not passed through. -/
theorem notPassed_frame {q : State} {env : Env} {channelId body : Bytes} {a : Attempt}
    (ha : a ∈ attempts load cfg q.store (.frame env channelId body)) {m : StoredMessage}
    (hm : (Inbox.next load cfg q.store (.frame env channelId body)).messages.find a.messageId = some m) :
    m.persistence ≠ ascii "pass_through" := by
  unfold attempts at ha
  dsimp only at ha
  cases hd : deliveryOf load body with
  | none =>
    rw [hd] at ha
    cases ha
  | some hdr =>
    rw [hd] at ha
    dsimp only at ha
    unfold storeAttempts at ha
    split_ifs at ha with hallowed hnew
    · obtain ⟨hnew, hpass⟩ := Bool.and_eq_true_iff.mp hnew
      rw [Bool.not_eq_true'] at hnew hpass
      obtain ⟨t, hnext, hfind⟩ := next_frame_new hd hallowed (q.store.messageExists_eq_false_iff.mp hnew)
      rw [hnext, (mem_replicateToSiblings ha).1, hfind] at hm
      cases hm
      exact of_decide_eq_false hpass
    · cases ha
    · cases ha

/-- A turn of the loop sends each row that is not replicated to each sibling in reach. -/
theorem mem_attempts_tick {s : InboxStore} {env : Env} {pair : Bytes × Bytes} : (∃ a ∈ attempts load cfg s (.tick env), a.pair = pair) ↔
    ∃ m ∈ (s.deleteExpired env.nowS).messages.rows, m.replicated = false ∧ ∃ sib ∈ s.siblings.rows,
      (env.ensureChannel (bytesToHex sib.keyCPubkey)).isSome ∧ pair = (m.messageId, sib.deviceId) := by
  unfold attempts
  dsimp only
  constructor
  · rintro ⟨a, ha, rfl⟩
    obtain ⟨m, hm, ha⟩ := List.mem_flatMap.mp ha
    obtain ⟨hm, hflag⟩ := List.mem_filter.mp hm
    obtain ⟨row, hrow, rfl⟩ := List.mem_map.mp hm
    obtain ⟨hid, sib, hsib, hchan, hdevice⟩ := mem_replicateToSiblings ha
    refine ⟨row, List.mem_of_mem_filter hrow, by simpa [InboxStore.readRow] using hflag, sib, hsib, hchan, ?_⟩
    exact Prod.ext hid hdevice
  · rintro ⟨m, hm, hflag, sib, hsib, hchan, rfl⟩
    obtain ⟨a, ha, hpair⟩ := exists_mem_replicateToSiblings (Table.find_of_mem hm) hsib hchan
    refine ⟨a, List.mem_flatMap.mpr ⟨InboxStore.readRow m, ?_, ha⟩, hpair⟩
    refine List.mem_filter.mpr ⟨List.mem_map_of_mem (List.mem_filter.mpr ⟨hm, rfl⟩), ?_⟩
    simp [InboxStore.readRow, hflag]

theorem sendsOnce_iff {q : State} (hrecorded : Recorded q) (e : Event) : SendsOnce load cfg q e ↔ NothingToRepeat q e := by
  obtain ⟨event, ok⟩ := e
  constructor
  · rintro ⟨hpassed, honce⟩ env rfl m hm hflag sib hsib hchan
    obtain ⟨a, ha, hpair⟩ : ∃ a ∈ attempts load cfg q.store (.tick env), a.pair = (m.messageId, sib.deviceId) :=
      mem_attempts_tick.mpr ⟨m, hm, hflag, sib, hsib, hchan, rfl⟩
    have hid : a.messageId = m.messageId := congrArg Prod.fst hpair
    refine ⟨hpassed a ha m (hid ▸ Table.find_of_mem hm), ?_⟩
    have hunsent := honce env rfl a ha
    rw [hpair, ← hrecorded, Bool.not_eq_true, Option.isSome_eq_false_iff, Option.isNone_iff_eq_none] at hunsent
    exact hunsent
  · intro h
    have htick : ∀ env, event = .tick env → ∀ a ∈ attempts load cfg q.store event, ∃ m ∈ (q.store.deleteExpired env.nowS).messages.rows,
        a.messageId = m.messageId ∧ m.persistence ≠ ascii "pass_through" ∧ q.status.find a.pair = none := by
      rintro env rfl a ha
      obtain ⟨m, hm, hflag, sib, hsib, hchan, hpair⟩ := mem_attempts_tick.mp ⟨a, ha, rfl⟩
      obtain ⟨hpass, hnone⟩ := h env rfl m hm hflag sib hsib hchan
      exact ⟨m, hm, congrArg Prod.fst hpair, hpass, hpair ▸ hnone⟩
    refine ⟨?_, ?_⟩
    · intro a ha m hfind
      cases event with
      | frame env channelId body => exact notPassed_frame ha hfind
      | tick env =>
        obtain ⟨m', hm', hid, hpass, _⟩ := htick env rfl a ha
        have hsame : some m' = some m := (Table.find_of_mem hm').symm.trans (hid ▸ hfind)
        cases hsame
        exact hpass
      | ipc env method params => cases ha
      | restart env => cases ha
    · intro env htickEvent a ha hsent
      obtain ⟨_, _, _, _, hnone⟩ := htick env htickEvent a ha
      have hsome := (hrecorded a.pair).mpr hsent
      rw [hnone] at hsome
      cases hsome

/-- A message that was sent is sent again as long as its row is there. -/
theorem not_sendsOnce_of_sent {q : State} {env : Env} {ok : Attempt → Bool} {m : StoredMessage} {sib : SiblingInbox}
    (hm : m ∈ (q.store.deleteExpired env.nowS).messages.rows) (hflag : m.replicated = false) (hsib : sib ∈ q.store.siblings.rows)
    (hchan : (env.ensureChannel (bytesToHex sib.keyCPubkey)).isSome) (hsent : (m.messageId, sib.deviceId) ∈ q.sent) :
    ¬SendsOnce load cfg q ⟨.tick env, ok⟩ := by
  intro h
  obtain ⟨a, ha, hpair⟩ : ∃ a ∈ attempts load cfg q.store (.tick env), a.pair = (m.messageId, sib.deviceId) :=
    mem_attempts_tick.mpr ⟨m, hm, hflag, sib, hsib, hchan, rfl⟩
  exact h.once env rfl a ha (hpair ▸ hsent)

/-- A message that a turn of the loop has sent is sent again by the next one, if its row is still there. -/
theorem not_sendsOnce_afterTick {q : State} {env env' : Env} {ok : Attempt → Bool} {m : StoredMessage} {sib : SiblingInbox}
    (hm : m ∈ ((q.store.deleteExpired env.nowS).deleteExpired env'.nowS).messages.rows) (hflag : m.replicated = false)
    (hsib : sib ∈ q.store.siblings.rows) (hchan : (env.ensureChannel (bytesToHex sib.keyCPubkey)).isSome)
    (hchan' : (env'.ensureChannel (bytesToHex sib.keyCPubkey)).isSome) :
    ¬SendsOnce load cfg (next load cfg q ⟨.tick env, fun _ => true⟩) ⟨.tick env', ok⟩ := by
  have hrow : m ∈ (q.store.deleteExpired env.nowS).messages.rows := List.mem_of_mem_filter hm
  obtain ⟨a, ha, hpair⟩ : ∃ a ∈ attempts load cfg q.store (.tick env), a.pair = (m.messageId, sib.deviceId) :=
    mem_attempts_tick.mpr ⟨m, hrow, hflag, sib, hsib, hchan, rfl⟩
  refine not_sendsOnce_of_sent hm hflag hsib hchan' ?_
  rw [next_sent]
  exact List.mem_append_right _ (List.mem_map.mpr ⟨a, List.mem_filter.mpr ⟨ha, rfl⟩, hpair⟩)

/-- In the runs in which the loop always finds nothing to repeat, and in no others, siblings are sent what they should be. -/
theorem sends_once_iff (load : Bytes → Option Item) (cfg : Config) (s : InboxStore) (es : List Event) :
    Along (next load cfg) (SendsOnce load cfg) ⟨s, .empty, []⟩ es ↔ Along (next load cfg) NothingToRepeat ⟨s, .empty, []⟩ es := by
  refine along_iff Recorded (fun q e hq => sendsOnce_iff hq e) (fun q e hq _ => recorded_next q e hq) ?_ es
  intro pair
  simp [Table.find, Table.empty]

end Runs

/-! ## A sibling that gets a message twice -/

def inReach : Env := ⟨0, 0, fun _ => some [6], []⟩

/-- What a frame is handled with: no answer comes. -/
def unanswered : Env := ⟨0, 0, fun _ => none, []⟩

def siblingParams : CborMap :=
  [(.text (ascii "key_c_pubkey"), .bytes [4]), (.text (ascii "auth_cert"), .bytes [9]), (.text (ascii "device_id"), .text [8])]

/-- A sibling is added and two senders are allowed. -/
def joined : InboxStore :=
  Inbox.next load {} (Inbox.next load {} .empty (.ipc inReach "inbox.add_sibling" siblingParams))
    (.ipc inReach "inbox.update_sender_allowlist" allowParams)

theorem joined_facts : joined.isAllowedSender (senderHex 1) = true ∧ joined.messages.find frameId = none ∧
    joined.siblings.rows.map SiblingInbox.deviceId = [[8]] := by
  decide

/-- A message is stored, and the maintenance loop takes two turns. -/
def sentTwice : List Event :=
  [⟨.ipc inReach "inbox.add_sibling" siblingParams, fun _ => true⟩, ⟨.ipc inReach "inbox.update_sender_allowlist" allowParams, fun _ => true⟩,
    ⟨.frame unanswered [] (frameFrom 1 (ascii "store")), fun _ => true⟩, ⟨.tick inReach, fun _ => true⟩, ⟨.tick inReach, fun _ => true⟩]

theorem not_sendsOnce_sentTwice : ¬ ∀ es, Along (next load {}) (SendsOnce load {}) ⟨.empty, .empty, []⟩ es := by
  intro h
  obtain ⟨_, _, _, _, htick, _⟩ := h sentTwice
  obtain ⟨hallowed, hnew, hdevices⟩ := joined_facts
  obtain ⟨sib, hsib⟩ : ∃ sib, sib ∈ joined.siblings.rows := by
    refine List.exists_mem_of_ne_nil _ ?_
    intro hnil
    rw [hnil] at hdevices
    cases hdevices
  have hdelivery := deliveryOf_frameFrom 1 zero_notMem_store
  obtain ⟨t, hnext, hfind⟩ := @next_frame_new load {} unanswered joined [] _ _ hdelivery hallowed hnew
  have hstore : (next load {} ⟨joined, .empty, []⟩ ⟨.frame unanswered [] (frameFrom 1 (ascii "store")), fun _ => true⟩).store =
      { joined with messages := t } := (next_store load {} ⟨joined, .empty, []⟩ _).trans hnext
  have hmem : sib ∈ (next load {} ⟨joined, .empty, []⟩ ⟨.frame unanswered [] (frameFrom 1 (ascii "store")), fun _ => true⟩).store.siblings.rows := by
    rw [hstore]
    exact hsib
  refine not_sendsOnce_afterTick (q := next load {} ⟨joined, .empty, []⟩ ⟨.frame unanswered [] (frameFrom 1 (ascii "store")), fun _ => true⟩)
    (m := deliveredMessage {} unanswered (frameFrom 1 (ascii "store")) ⟨frameId, senderHex 1, ascii "store"⟩) ?_ rfl hmem rfl rfl htick
  rw [hstore]
  exact List.mem_filter.mpr ⟨List.mem_filter.mpr ⟨Table.mem_of_find hfind, rfl⟩, rfl⟩

end ScatterWeb.Inbox.Replication
