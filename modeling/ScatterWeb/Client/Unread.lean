import Mathlib.Data.List.TakeWhile
import ScatterWeb.Client.Contacts
import ScatterWeb.Client.Establish
import ScatterWeb.Client.Groups
import ScatterWeb.Client.LostFields

/-! # Messages that no client reads

`set_sender_key` is called in three places, each time for the client's own id: nobody is ever given the sender key of another
member, and a `group_sender_key_update` is stored like a message. So no client can open what another one has sent to a group. The
sender keys are found by group and contact, joined by a colon and handed on as a C string. The id of a group is taken
from the envelope as it is, so one that goes on with the reader's own id and a NUL byte finds the key of the reader: what he has
sent to the group himself can be shown to him as a message of somebody else. -/
namespace ScatterWeb.Client
open Crypto Lib Lib.Cbor Ratchet Mailbox
set_option autoImplicit false

/-! ## A member of groups -/

/-- A client with the tables of its groups. The keys are those of the keystore; `saved` has every database that was written. -/
structure Member where
  client : ClientState
  tables : GroupState
  saved : List (Database Keys) := []

inductive MemberEvent
  | contact (e : ContactEvent)
  | group (e : GroupEvent)
  | save
  | lock
  /-- The process ends or crashes, and a new one starts. -/
  | restart
  /-- The database that is read is any of those that were written. -/
  | unlock (i : ℕ)

def keysOf (s : Session Keys) : Keys :=
  match s.keystore.db with
  | none => ⟨none, ∅⟩
  | some db => db.rest

def Session.withDb (s : Session Keys) (db : Option (Database Keys)) : Session Keys := { s with keystore := { s.keystore with db } }

def Session.withKeys (s : Session Keys) (keys : Keys) : Session Keys := s.withDb (s.keystore.db.map (fun db => { db with rest := keys }))

section Steps
variable (P : Primitives wire) (load : Bytes → Option Item) (sha3 : Bytes → ByteArr 32)

def nextMember (m : Member) : MemberEvent → Member
  | .contact e => { m with client := (nextWatched P load sha3 ⟨m.client, []⟩ e).client }
  | .group e =>
    let tables := nextGroups sha3 { m.tables with keys := keysOf m.client.session } e
    { m with tables, client := { m.client with session := m.client.session.withKeys tables.keys } }
  | .save => { m with saved := m.saved ++ m.client.session.keystore.db.toList }
  | .lock => { m with client := { m.client with session := m.client.session.withDb none } }
  | .restart => { m with client := { m.client with session := { m.client.session.withDb none with cache := ∅ } } }
  | .unlock i =>
    if m.client.session.keystore.isUnlocked then m
    else { m with client := { m.client with session := m.client.session.withDb m.saved[i]? } }

/-- A client that has just made its Key A, with the contacts that are in its database. -/
def newMember (pub : Bytes) (contacts : List Contact) : Member where
  client := { store := ⟨[], []⟩, contacts, certs := [], session := { keystore := { db := some ⟨∅, ⟨some pub, ∅⟩⟩ } } }
  tables := { keys := ⟨some pub, ∅⟩ }
  saved := [⟨∅, ⟨some pub, ∅⟩⟩]

/-- The frame changes nothing but the cache of certificates, no event is pushed, the inbox keeps the message, and the process goes on. -/
structure Unread (c : ClientState) (r : Received) : Prop where
  state : r.state = { c with certs := r.state.certs }
  pushes : r.pushes = []
  acked : r.acked = false
  crashed : r.crashed = false

/-- The reader's own id stands behind a group of his, and a NUL byte behind that: the envelope opens under his own sender key. -/
structure Reflected (s : Session Keys) (junk : Uninit) (pub envelope convId appFrame : Bytes) (groupId rest : Bytes) (kvs : List (Item × Item))
    (sk : SenderKey) : Prop where
  map : load envelope = some (.map kvs)
  plain : 0 ∉ groupId
  id : cborGetFieldStr kvs "group_id" = convId
  disguised : convId = groupId ++ ascii ":" ++ hexId sha3 pub ++ 0 :: rest
  own : getSenderKey s groupId (hexId sha3 pub) = some sk
  generation : sk.generation = (cborGetFieldUint junk.behindField kvs "sender_key_generation").toUInt32
  opens : P.aes.decrypt sk.symKey (copyInto (List.Vector.replicate 12 0) (cborGetFieldBytes kvs "iv")) (cborGetFieldBytes kvs "ciphertext")
    (copyInto (List.Vector.replicate 16 0) (cborGetFieldBytes kvs "tag")) [] = some appFrame

end Steps

/-! ## Whose keys there are -/

section Keys
variable {sha3 : Bytes → ByteArr 32} {pub : Bytes} {keys : Keys} {s : GroupState}

/-- Every sender key is under the id of a group and the client's own id. -/
structure OwnKeys (sha3 : Bytes → ByteArr 32) (pub : Bytes) (keys : Keys) : Prop where
  keyA : keys.keyA = some pub
  named : ∀ id sk, keys.senderKeys.lookup id = some sk → ∃ groupId, 0 ∉ groupId ∧ id = groupId ++ ascii ":" ++ hexId sha3 pub

theorem zero_notMem_hexId (sha3 : Bytes → ByteArr 32) (pub : Bytes) : 0 ∉ hexId sha3 pub := zero_notMem_bytesToHex _

theorem length_hexId (sha3 : Bytes → ByteArr 32) (pub : Bytes) : (hexId sha3 pub).length = 64 := by
  unfold hexId
  rw [length_bytesToHex, List.Vector.toList_length]

theorem zero_notMem_keyName {groupId : Bytes} (h : 0 ∉ groupId) (pub : Bytes) : 0 ∉ groupId ++ ascii ":" ++ hexId sha3 pub := by
  rw [List.mem_append, List.mem_append, not_or, not_or]
  exact ⟨⟨h, by decide⟩, zero_notMem_hexId sha3 pub⟩

theorem OwnKeys.set (h : OwnKeys sha3 pub keys) {groupId : Bytes} (hid : 0 ∉ groupId) (sk : SenderKey) :
    OwnKeys sha3 pub (keys.setSenderKey groupId (hexId sha3 pub) sk) where
  keyA := h.keyA
  named := by
    intro id sk' hlook
    unfold Keys.setSenderKey at hlook
    rw [cStr_of_nulFree (zero_notMem_keyName hid pub)] at hlook
    by_cases hsame : id = groupId ++ ascii ":" ++ hexId sha3 pub
    · exact ⟨groupId, hid, hsame⟩
    · rw [AList.lookup_insert_ne hsame] at hlook
      exact h.named id sk' hlook

/-- What a call leaves: the ids of groups are hexadecimal, and at most one own sender key is new. -/
structure KeepsOwn (sha3 : Bytes → ByteArr 32) (pub : Bytes) (s s' : GroupState) : Prop where
  groups : (∀ g ∈ s.groups.rows, 0 ∉ g.id) → ∀ g ∈ s'.groups.rows, 0 ∉ g.id
  keys : (∀ g ∈ s.groups.rows, 0 ∉ g.id) → OwnKeys sha3 pub s.keys → OwnKeys sha3 pub s'.keys

theorem KeepsOwn.refl (sha3 : Bytes → ByteArr 32) (pub : Bytes) (s : GroupState) : KeepsOwn sha3 pub s s := ⟨fun h => h, fun _ h => h⟩

theorem OwnKeys.eq_of_keyA (h : OwnKeys sha3 pub keys) {pub' : Bytes} (hkey : keys.keyA = some pub') : pub' = pub :=
  Option.some.inj (hkey.symm.trans h.keyA)

theorem keepsOwn_createGroup (env : GroupEnv) (name type : Bytes) : KeepsOwn sha3 pub s (createGroup sha3 s env name type).1 := by
  unfold createGroup
  cases hkey : s.keys.keyA with
  | none => exact .refl sha3 pub s
  | some pub' =>
    have hset : OwnKeys sha3 pub s.keys → OwnKeys sha3 pub (s.keys.setSenderKey (groupIdOf sha3 pub' env) (hexId sha3 pub') ⟨env.symKey, 0⟩) := by
      intro h
      obtain rfl := h.eq_of_keyA hkey
      exact h.set (zero_notMem_bytesToHex _) _
    dsimp only
    cases env.save with
    | error e => exact ⟨fun h => h, fun _ h => hset h⟩
    | ok _ =>
      refine ⟨?_, fun _ h => hset h⟩
      intro hgroups g hg
      obtain ⟨hold, _⟩ | rfl := Table.mem_upsert.mp hg
      · exact hgroups g hold
      · exact zero_notMem_bytesToHex _

theorem keepsOwn_createServerChannel (env : GroupEnv) (serverId name channelType : Bytes) :
    KeepsOwn sha3 pub s (createServerChannel sha3 s env serverId name channelType).1 := by
  unfold createServerChannel
  cases s.groups.find serverId with
  | none => exact .refl sha3 pub s
  | some grp =>
    dsimp only
    split
    · exact .refl sha3 pub s
    · cases hkey : s.keys.keyA with
      | none => exact .refl sha3 pub s
      | some pub' =>
        have hset : OwnKeys sha3 pub s.keys →
            OwnKeys sha3 pub (s.keys.setSenderKey (channelIdOf sha3 pub' serverId env) (hexId sha3 pub') ⟨env.symKey, 0⟩) := by
          intro h
          obtain rfl := h.eq_of_keyA hkey
          exact h.set (zero_notMem_bytesToHex _) _
        dsimp only
        cases env.save with
        | error e => exact ⟨fun h => h, fun _ h => hset h⟩
        | ok _ => exact ⟨fun h => h, fun _ h => hset h⟩

theorem keepsOwn_kickFromGroup (env : GroupEnv) (groupId contactId : Bytes) : KeepsOwn sha3 pub s (kickFromGroup sha3 s env groupId contactId).1 := by
  unfold kickFromGroup
  cases hfind : s.groups.find groupId with
  | none => exact .refl sha3 pub s
  | some grp =>
    dsimp only
    split
    · exact .refl sha3 pub s
    · cases hkey : (s.removeGroupMember groupId contactId).keys.keyA with
      | none => exact ⟨fun h => h, fun _ h => h⟩
      | some pub' =>
        have hset : (∀ g ∈ s.groups.rows, 0 ∉ g.id) → OwnKeys sha3 pub s.keys → ∀ sk,
            OwnKeys sha3 pub (s.keys.setSenderKey groupId (hexId sha3 pub') sk) := by
          intro hgroups h sk
          obtain rfl := h.eq_of_keyA hkey
          -- the group is in the table, so its id has no NUL byte
          exact h.set (Table.key_of_find hfind ▸ hgroups grp (Table.mem_of_find hfind)) sk
        dsimp only
        cases env.save with
        | error e => exact ⟨fun h => h, fun hgroups h => hset hgroups h _⟩
        | ok _ => exact ⟨fun h => h, fun hgroups h => hset hgroups h _⟩

theorem keepsOwn_nextGroups (e : GroupEvent) : KeepsOwn sha3 pub s (nextGroups sha3 s e) := by
  cases e with
  | createGroup env name type => exact keepsOwn_createGroup env name type
  | createServerChannel env serverId name channelType => exact keepsOwn_createServerChannel env serverId name channelType
  | upsertMember m => exact ⟨fun h => h, fun _ h => h⟩
  | kick env groupId contactId => exact keepsOwn_kickFromGroup env groupId contactId
  | leave groupId =>
    change KeepsOwn sha3 pub s (leaveGroup sha3 s groupId).1
    unfold leaveGroup
    cases s.keys.keyA with
    | none => exact .refl sha3 pub s
    | some _ => exact ⟨fun h => h, fun _ h => h⟩

end Keys

/-! ## Finding a key by a name -/

section Names
variable {sha3 : Bytes → ByteArr 32} {pub groupId other : Bytes} {keys : Keys} {sk : SenderKey}

/-- Under the name of another contact there is a key only if the id of the group goes on with the own name and a NUL byte. -/
theorem OwnKeys.lookup_iff (h : OwnKeys sha3 pub keys) (hfree : 0 ∉ other) (hlen : other.length = 64) (hother : other ≠ hexId sha3 pub) :
    keys.senderKey groupId other = some sk ↔ ∃ own rest, 0 ∉ own ∧ groupId = own ++ ascii ":" ++ hexId sha3 pub ++ 0 :: rest ∧
      keys.senderKey own (hexId sha3 pub) = some sk := by
  unfold Keys.senderKey
  constructor
  · intro hlook
    obtain ⟨own, hown, hname⟩ := h.named _ _ hlook
    have hmem : 0 ∈ groupId := by
      by_contra hnot
      have hwhole : 0 ∉ groupId ++ ascii ":" ++ other := by
        rw [List.mem_append, List.mem_append, not_or, not_or]
        exact ⟨⟨hnot, by decide⟩, hfree⟩
      rw [cStr_of_nulFree hwhole] at hname
      exact hother (List.append_inj' hname (hlen.trans (length_hexId sha3 pub).symm)).2
    obtain ⟨front, rest, rfl, hfront⟩ := List.eq_append_cons_of_mem hmem
    rw [List.append_assoc, List.append_assoc, List.cons_append, cStr_append_zero hfront] at hname hlook
    refine ⟨own, rest, hown, by rw [hname], ?_⟩
    rw [cStr_of_nulFree (zero_notMem_keyName hown pub), ← hname]
    exact hlook
  · rintro ⟨own, rest, hown, rfl, hlook⟩
    rw [List.append_assoc _ _ other, List.append_assoc _ (0 :: rest), List.cons_append, cStr_append_zero (zero_notMem_keyName hown pub)]
    rwa [cStr_of_nulFree (zero_notMem_keyName hown pub)] at hlook

end Names

/-! ## Runs -/

section Runs
variable {P : Primitives wire} {load : Bytes → Option Item} {sha3 : Bytes → ByteArr 32} {pub : Bytes} {m : Member} {c : ClientState}

def restOf (s : Session Keys) : Option Keys := s.keystore.db.map Database.rest

theorem restOf_perform (s : Session Keys) (o : Op) : restOf (perform P load s o).1 = restOf s := by
  rw [perform_eq]
  dsimp only
  cases (act P (loadState load s o.convId).2 o).1 with
  | nothing => rfl
  | cached st => rfl
  | written st =>
    change (s.keystore.db.map (Database.setRatchetState o.convId (serialize st))).map Database.rest = s.keystore.db.map Database.rest
    rw [Option.map_map]
    rfl

theorem restOf_openEnvelope (s : Session Keys) (junk : Uninit) (frame : DeliveryFrame) :
    restOf (openEnvelope P load sha3 s junk frame).1 = restOf s := by
  unfold openEnvelope openRatchetEnvelope
  split
  · cases getKeyA s with
    | none => rfl
    | some pub =>
      dsimp only
      cases decryptRatchetEnvelope load junk frame.encryptedEnvelope with
      | error e => rfl
      | ok msg =>
        dsimp only
        have hkeep : restOf (decrypt P load s (dmConvId sha3 (bytesToHex (sha3 pub).toList) (bytesToHex frame.senderId)) msg).1 = restOf s :=
          restOf_perform s (.decrypt _ msg)
        split
        · rename_i heq
          rw [heq] at hkeep
          exact hkeep
        · rename_i heq
          rw [heq] at hkeep
          exact hkeep
  · split
    · rfl
    · rfl

theorem restOf_processDeliveryFrame (p : Presentation) : restOf (processDeliveryFrame P load sha3 c p).state.session = restOf c.session := by
  obtain hsame | ⟨frame, _, _, heq⟩ := processDeliveryFrame_cases P load sha3 c p
  · rw [hsame]
  · rw [heq]
    unfold processFromContact
    cases resolveCert c frame p.nowS with
    | none => rfl
    | some certs =>
      have hopen : restOf (openEnvelope P load sha3 c.session p.junk frame).1 = restOf c.session := restOf_openEnvelope c.session p.junk frame
      dsimp only
      split
      · rename_i heq
        rw [heq] at hopen
        exact hopen
      · rename_i heq
        rw [heq] at hopen
        exact (congrArg restOf (dispatchOpened_rest load _ frame p _ _).2.2).trans hopen

theorem restOf_nextWatched (e : ContactEvent) : restOf (nextWatched P load sha3 ⟨c, []⟩ e).client.session = restOf c.session := by
  cases e with
  | client e =>
    cases e with
    | present p => exact restOf_processDeliveryFrame p
    | op o => exact restOf_perform c.session o
    | edit f => rfl
  | request card => rw [nextWatched_request]
  | accept contactId =>
    unfold nextWatched
    dsimp only
    cases hr : acceptContactRequest sha3 c contactId with
    | error e => rfl
    | ok r =>
      change restOf r.1.session = restOf c.session
      rw [(acceptContactRequest_ok hr).2.1]
  | decline contactId => rfl
  | block contactId => rfl
  | connect => rfl

/-- The ids of contacts are hashes, and none is the client's own. -/
def Strangers (sha3 : Bytes → ByteArr 32) (pub : Bytes) (contacts : List Contact) : Prop :=
  ∀ k ∈ contacts, (∃ key, k.id = hexId sha3 key) ∧ k.id ≠ hexId sha3 pub

theorem Strangers.setContactStatus {contacts : List Contact} (h : Strangers sha3 pub contacts) (id status : Bytes) :
    Strangers sha3 pub (setContactStatus contacts id status) := by
  intro k hk
  obtain ⟨hold, _⟩ | ⟨k', hk', _, rfl⟩ := mem_setContactStatus hk
  · exact h k hold
  · exact h k' hk'

theorem Strangers.nextWatched (h : Strangers sha3 pub c.contacts) (e : ContactEvent) :
    Strangers sha3 pub (nextWatched P load sha3 ⟨c, []⟩ e).client.contacts := by
  cases e with
  | client e =>
    change Strangers sha3 pub (nextClient P load sha3 c e).contacts
    rw [nextClient_contacts]
    exact h
  | request card =>
    rw [nextWatched_request]
    exact h
  | accept contactId =>
    unfold Client.nextWatched
    dsimp only
    cases hr : acceptContactRequest sha3 c contactId with
    | error e => exact h
    | ok r =>
      change Strangers sha3 pub r.1.contacts
      rw [(acceptContactRequest_ok hr).2.1]
      exact h.setContactStatus contactId _
  | decline contactId => exact h.setContactStatus contactId _
  | block contactId => exact h.setContactStatus contactId _
  | connect => exact h

/-- The invariant of a member. -/
structure Solitary (sha3 : Bytes → ByteArr 32) (pub : Bytes) (m : Member) : Prop where
  memory : ∀ keys, restOf m.client.session = some keys → OwnKeys sha3 pub keys
  saved : ∀ db ∈ m.saved, OwnKeys sha3 pub db.rest
  groups : ∀ g ∈ m.tables.groups.rows, 0 ∉ g.id
  contacts : Strangers sha3 pub m.client.contacts

theorem solitary_newMember {contacts : List Contact} (hcontacts : Strangers sha3 pub contacts) : Solitary sha3 pub (newMember pub contacts) := by
  have hown : OwnKeys sha3 pub ⟨some pub, ∅⟩ := ⟨rfl, fun id sk hlook => by simp at hlook⟩
  refine ⟨?_, ?_, ?_, hcontacts⟩
  · intro keys hkeys
    obtain rfl : (⟨some pub, ∅⟩ : Keys) = keys := Option.some.inj hkeys
    exact hown
  · intro db hdb
    rw [List.mem_singleton.mp hdb]
    exact hown
  · intro g hg
    cases hg

theorem Solitary.group (h : Solitary sha3 pub m) (e : GroupEvent) : Solitary sha3 pub (nextMember P load sha3 m (.group e)) := by
  have hkeeps : KeepsOwn sha3 pub { m.tables with keys := keysOf m.client.session } _ := keepsOwn_nextGroups e
  refine ⟨?_, h.saved, hkeeps.groups h.groups, h.contacts⟩
  intro keys hkeys
  cases hdb : m.client.session.keystore.db with
  | none =>
    unfold nextMember restOf Session.withKeys Session.withDb at hkeys
    rw [hdb] at hkeys
    cases hkeys
  | some db =>
    have hrest : restOf m.client.session = some db.rest := by
      unfold restOf
      rw [hdb]
      rfl
    have hof : keysOf m.client.session = db.rest := by
      unfold keysOf
      rw [hdb]
    unfold nextMember restOf Session.withKeys Session.withDb at hkeys
    rw [hdb] at hkeys
    obtain rfl := Option.some.inj hkeys
    refine hkeeps.keys h.groups ?_
    change OwnKeys sha3 pub (keysOf m.client.session)
    rw [hof]
    exact h.memory db.rest hrest

theorem Solitary.step (h : Solitary sha3 pub m) (e : MemberEvent) : Solitary sha3 pub (nextMember P load sha3 m e) := by
  cases e with
  | contact e =>
    refine ⟨?_, h.saved, h.groups, h.contacts.nextWatched e⟩
    intro keys hkeys
    exact h.memory keys ((restOf_nextWatched e).symm.trans hkeys)
  | group e => exact h.group e
  | save =>
    refine ⟨h.memory, ?_, h.groups, h.contacts⟩
    intro db hdb
    obtain hold | hnew := List.mem_append.mp hdb
    · exact h.saved db hold
    · refine h.memory db.rest ?_
      unfold restOf
      rw [Option.mem_toList.mp hnew]
      rfl
  | lock => exact ⟨fun _ hkeys => (nomatch hkeys), h.saved, h.groups, h.contacts⟩
  | restart => exact ⟨fun _ hkeys => (nomatch hkeys), h.saved, h.groups, h.contacts⟩
  | unlock i =>
    unfold nextMember
    dsimp only
    split
    · exact h
    · refine ⟨?_, h.saved, h.groups, h.contacts⟩
      intro keys hkeys
      obtain ⟨db, hdb, rfl⟩ := Option.map_eq_some_iff.mp hkeys
      exact h.saved db (List.mem_of_getElem? hdb)

theorem solitary_run (P : Primitives wire) (load : Bytes → Option Item) {contacts : List Contact} (hcontacts : Strangers sha3 pub contacts)
    (es : List MemberEvent) : Solitary sha3 pub (es.foldl (nextMember P load sha3) (newMember pub contacts)) := by
  induction es using List.reverseRecOn with
  | nil => exact solitary_newMember hcontacts
  | append_singleton es e ih =>
    rw [List.foldl_append]
    exact ih.step e

end Runs

/-! ## What is read and what is not -/

section Reading
variable {P : Primitives wire} {load : Bytes → Option Item} {sha3 : Bytes → ByteArr 32} {pub : Bytes} {m : Member} {c : ClientState}

theorem getSenderKey_eq_some {s : Session Keys} {groupId other : Bytes} {sk : SenderKey} :
    getSenderKey s groupId other = some sk ↔ ∃ keys, restOf s = some keys ∧ keys.senderKey groupId other = some sk := by
  rw [getSenderKey_eq, Option.bind_eq_some_iff]
  constructor
  · rintro ⟨db, hdb, hlook⟩
    exact ⟨db.rest, by rw [restOf, hdb, Option.map_some], hlook⟩
  · rintro ⟨keys, hkeys, hlook⟩
    obtain ⟨db, hdb, rfl⟩ := Option.map_eq_some_iff.mp hkeys
    exact ⟨db, hdb, hlook⟩

theorem decryptSenderKeyEnvelope_eq_some {s : Session Keys} {junk : Uninit} {groupId other appFrame : Bytes}
    {kvs : List (Item × Item)} : decryptSenderKeyEnvelope P s junk groupId other kvs = some appFrame ↔ ∃ sk, getSenderKey s groupId other = some sk ∧
      sk.generation = (cborGetFieldUint junk.behindField kvs "sender_key_generation").toUInt32 ∧
      P.aes.decrypt sk.symKey (copyInto (List.Vector.replicate 12 0) (cborGetFieldBytes kvs "iv")) (cborGetFieldBytes kvs "ciphertext")
        (copyInto (List.Vector.replicate 16 0) (cborGetFieldBytes kvs "tag")) [] = some appFrame := by
  unfold decryptSenderKeyEnvelope
  cases getSenderKey s groupId other with
  | none => simp
  | some sk =>
    dsimp only
    split_ifs with hgen
    · simp [hgen]
    · simp [not_not.mp hgen]

theorem openSenderKeyEnvelope_eq_some {s : Session Keys} {junk : Uninit} {other envelope convId appFrame : Bytes} :
    openSenderKeyEnvelope P load s junk other envelope = some (convId, appFrame) ↔ ∃ kvs, load envelope = some (.map kvs) ∧
      cborGetFieldStr kvs "group_id" = convId ∧ decryptSenderKeyEnvelope P s junk convId other kvs = some appFrame := by
  unfold openSenderKeyEnvelope
  cases load envelope with
  | none => simp
  | some item =>
    cases item with
    | map kvs =>
      dsimp only
      rw [Option.map_eq_some_iff]
      constructor
      · rintro ⟨plain, hplain, heq⟩
        obtain ⟨rfl, rfl⟩ := Prod.mk.inj heq
        exact ⟨kvs, rfl, rfl, hplain⟩
      · rintro ⟨kvs', hkvs, rfl, hplain⟩
        cases hkvs
        exact ⟨appFrame, hplain, rfl⟩
    | _ => simp

/-- The id of a contact is a hash, and not the client's own. -/
theorem Solitary.sender (h : Solitary sha3 pub m) {senderHex : Bytes} (hcontact : getContact m.client senderHex ≠ none) :
    0 ∉ senderHex ∧ senderHex.length = 64 ∧ senderHex ≠ hexId sha3 pub := by
  obtain ⟨k, hk⟩ := Option.ne_none_iff_exists'.mp hcontact
  have hid : k.id = senderHex := by simpa using List.find?_some hk
  obtain ⟨⟨key, hkey⟩, hother⟩ := h.contacts k (List.mem_of_find?_eq_some hk)
  rw [hid] at hkey hother
  rw [hkey] at hother ⊢
  exact ⟨zero_notMem_hexId sha3 key, length_hexId sha3 key, hother⟩

theorem Solitary.opened_iff (h : Solitary sha3 pub m) {junk : Uninit} {senderHex envelope convId appFrame : Bytes}
    (hcontact : getContact m.client senderHex ≠ none) :
    openSenderKeyEnvelope P load m.client.session junk senderHex envelope = some (convId, appFrame) ↔
      ∃ groupId rest kvs sk, Reflected P load sha3 m.client.session junk pub envelope convId appFrame groupId rest kvs sk := by
  obtain ⟨hfree, hlen, hother⟩ := h.sender hcontact
  rw [openSenderKeyEnvelope_eq_some]
  constructor
  · rintro ⟨kvs, hmap, hid, hplain⟩
    obtain ⟨sk, hsk, hgen, hopens⟩ := decryptSenderKeyEnvelope_eq_some.mp hplain
    obtain ⟨keys, hkeys, hlook⟩ := getSenderKey_eq_some.mp hsk
    obtain ⟨own, rest, hown, hdisguised, hmine⟩ := ((h.memory keys hkeys).lookup_iff hfree hlen hother).mp hlook
    exact ⟨own, rest, kvs, sk, hmap, hown, hid, hdisguised, getSenderKey_eq_some.mpr ⟨keys, hkeys, hmine⟩, hgen, hopens⟩
  · rintro ⟨own, rest, kvs, sk, hr⟩
    obtain ⟨keys, hkeys, hmine⟩ := getSenderKey_eq_some.mp hr.own
    have hlook := ((h.memory keys hkeys).lookup_iff hfree hlen hother).mpr ⟨own, rest, hr.plain, hr.disguised, hmine⟩
    exact ⟨kvs, hr.map, hr.id, decryptSenderKeyEnvelope_eq_some.mpr ⟨sk, getSenderKey_eq_some.mpr ⟨keys, hkeys, hlook⟩, hr.generation, hr.opens⟩⟩

/-- Alice is a contact of the owner of a group. -/
def ownerContacts : List Contact := [aliceWith "active"]

theorem strangers_ownerContacts : Strangers (fit 32) [7] ownerContacts := by
  intro k hk
  rw [List.mem_singleton.mp hk]
  exact ⟨⟨[1], rfl⟩, by decide⟩

def ownerOfGame : List MemberEvent := [.group (.createGroup (drawing 1) (ascii "game") (ascii "group"))]

theorem unread_of_unopened {p : Presentation} {frame : DeliveryFrame} (hframe : decodeDeliveryFrame load p.junk p.frame = .ok frame)
    (h : getContact c (bytesToHex frame.senderId) ≠ none → openEnvelope P load sha3 c.session p.junk frame = (c.session, none)) :
    Unread c (processDeliveryFrame P load sha3 c p) := by
  by_cases hcontact : getContact c (bytesToHex frame.senderId) = none
  · rw [processDeliveryFrame_of_unknown hframe hcontact]
    exact ⟨rfl, rfl, rfl, rfl⟩
  · rw [processDeliveryFrame_of_contact hframe hcontact]
    unfold processFromContact
    cases resolveCert c frame p.nowS with
    | none => exact ⟨rfl, rfl, rfl, rfl⟩
    | some certs =>
      dsimp only
      rw [h hcontact]
      exact ⟨rfl, rfl, rfl, rfl⟩

theorem groupId_senderKeyEnvelope (groupId : Bytes) (myId : ByteArr 32) (generation : UInt32) (nonce : ByteArr 12) (enc : Bytes × ByteArr 16) :
    cborGetFieldStr (senderKeyEnvelope groupId myId generation nonce enc).pairs "group_id" = cStr groupId := by
  rw [senderKeyEnvelope_pairs]
  simp [cborGetFieldStr, getField]

theorem groupId_of_encryptSenderKeyEnvelope (hload : Loads load) {s : Session Keys} {nonce : ByteArr 12} {groupId appFrame envelope : Bytes}
    (h : encryptSenderKeyEnvelope P sha3 s nonce groupId appFrame = .ok envelope) {kvs : List (Item × Item)} (hkvs : load envelope = some (.map kvs)) :
    cborGetFieldStr kvs "group_id" = cStr groupId := by
  unfold encryptSenderKeyEnvelope at h
  cases hpub : getKeyA s with
  | none =>
    rw [hpub] at h
    cases h
  | some pub =>
    rw [hpub] at h
    dsimp only at h
    cases hsk : getSenderKey s groupId (bytesToHex (sha3 pub).toList) with
    | none =>
      rw [hsk] at h
      cases h
    | some sk =>
      rw [hsk] at h
      obtain rfl := Except.ok.inj h
      have hmap := (hload.load_encode _).symm.trans hkvs
      obtain rfl := Item.map.inj (Option.some.inj hmap)
      exact groupId_senderKeyEnvelope groupId (sha3 pub) sk.generation nonce _

/-- What one client sends to a group no other client reads, whatever has happened on either side. -/
theorem group_message_unread (P : Primitives wire) {load : Bytes → Option Item} (hload : Loads load) (sha3 : Bytes → ByteArr 32) (pub : Bytes)
    {contacts : List Contact} (hcontacts : Strangers sha3 pub contacts) (es : List MemberEvent) (sender : Session Keys) (nonce : ByteArr 12)
    (groupId appFrame envelope : Bytes)
    (hsent : encryptSenderKeyEnvelope P sha3 sender nonce groupId appFrame = .ok envelope) (p : Presentation) (frame : DeliveryFrame)
    (hframe : decodeDeliveryFrame load p.junk p.frame = .ok frame) (htype : frame.envelopeType = ascii "sender_key")
    (hcarried : frame.encryptedEnvelope = envelope) :
    Unread (es.foldl (nextMember P load sha3) (newMember pub contacts)).client
      (processDeliveryFrame P load sha3 (es.foldl (nextMember P load sha3) (newMember pub contacts)).client p) := by
  refine unread_of_unopened hframe ?_
  intro hcontact
  have hnot : ascii "sender_key" ≠ ascii "ratchet" := by decide
  unfold openEnvelope
  rw [htype, if_neg hnot, if_pos rfl, hcarried]
  refine congrArg (Prod.mk _) ?_
  rw [Option.eq_none_iff_forall_ne_some]
  rintro ⟨convId, plain⟩ hopened
  obtain ⟨own, rest, kvs, sk, hr⟩ := ((solitary_run P load hcontacts es).opened_iff hcontact).mp hopened
  -- the id that the encoder writes ends before the first NUL byte
  have hid := (groupId_of_encryptSenderKeyEnvelope hload hsent hr.map).symm.trans hr.id
  have hzero : 0 ∈ cStr groupId := by
    rw [hid, hr.disguised]
    simp
  have hne := List.mem_takeWhile_imp hzero
  simp at hne

/-- A message of another member, who is a contact, comes to the owner. -/
theorem group_message_unread_member : ∃ envelope, encryptSenderKeyEnvelope padding (fit 32) groupMember (fit 12 [1]) [103] [5] = .ok envelope ∧
    Unread (ownerOfGame.foldl (nextMember padding Cbor.load (fit 32)) (newMember [7] ownerContacts)).client
      (processDeliveryFrame padding Cbor.load (fit 32) (ownerOfGame.foldl (nextMember padding Cbor.load (fit 32)) (newMember [7] ownerContacts)).client
        (fromAlice [99] "sender_key" envelope)) := by
  have hpub : getKeyA groupMember = some [2] := rfl
  refine ⟨_, encryptSenderKeyEnvelope_ok hpub getSenderKey_groupMember, ?_⟩
  exact group_message_unread padding load_loads (fit 32) [7] strangers_ownerContacts ownerOfGame groupMember (fit 12 [1]) [103] [5] _
    (encryptSenderKeyEnvelope_ok hpub getSenderKey_groupMember) _ (deliveryFrom "sender_key" _) (decodeDeliveryFrame_frameItem _ _) rfl rfl

/-- There is nothing in an empty envelope, and the session stays. -/
theorem openEnvelope_nil (hload : Loads load) (s : Session Keys) (junk : Uninit) {frame : DeliveryFrame} (h : frame.encryptedEnvelope = []) :
    openEnvelope P load sha3 s junk frame = (s, none) := by
  have hratchet : ∀ senderHex, openRatchetEnvelope P load sha3 s junk senderHex [] = (s, none) := by
    intro senderHex
    unfold openRatchetEnvelope decryptRatchetEnvelope
    rw [load_nil hload]
    cases getKeyA s with
    | none => rfl
    | some pub => rfl
  have hsender : ∀ senderHex, openSenderKeyEnvelope P load s junk senderHex [] = none := by
    intro senderHex
    unfold openSenderKeyEnvelope
    rw [load_nil hload]
  unfold openEnvelope
  rw [h, hratchet, hsender]
  split_ifs <;> rfl

/-- A frame that the encoder of the Client has built, with whatever fields, is never read: its envelope has been lost. -/
theorem built_frame_unread (P : Primitives wire) {load : Bytes → Option Item} (hload : Loads load) (sha3 : Bytes → ByteArr 32) (c : ClientState)
    (f : DeliveryFrame) (p : Presentation) (hbuilt : p.frame = encodeDeliveryFrame f) : Unread c (processDeliveryFrame P load sha3 c p) := by
  obtain ⟨frame, hframe, hnil⟩ := envelope_lost hload p.junk f
  rw [← hbuilt] at hframe
  exact unread_of_unopened hframe (fun _ => openEnvelope_nil hload c.session p.junk hnil)

end Reading

/-! ## A run in which only built frames come -/

section Silence
variable {P : Primitives wire} {load : Bytes → Option Item} {sha3 : Bytes → ByteArr 32} {m : Member}

def presented : MemberEvent → Option Presentation
  | .contact (.client (.present p)) => some p
  | _ => none

/-- A frame that is presented was built by the encoder of a Client. -/
def BuiltOnly (e : MemberEvent) : Prop := ∀ p, presented e = some p → ∃ f, p.frame = encodeDeliveryFrame f

/-- The user interface hears nothing, and the inbox is not told to forget the message. -/
def Silent (P : Primitives wire) (load : Bytes → Option Item) (sha3 : Bytes → ByteArr 32) (m : Member) (e : MemberEvent) : Prop :=
  ∀ p, presented e = some p →
    (processDeliveryFrame P load sha3 m.client p).pushes = [] ∧ (processDeliveryFrame P load sha3 m.client p).acked = false

def Member.withCerts (m : Member) (certs : List KnownCert) : Member := { m with client := { m.client with certs } }

theorem sendContactRequest_withCerts (c : ClientState) (certs : List KnownCert) (card : Option ContactCard) :
    sendContactRequest sha3 { c with certs } card = (sendContactRequest sha3 c card).map (fun c => { c with certs }) := by
  cases card with
  | none => rfl
  | some card =>
    unfold sendContactRequest getContact
    dsimp only
    split_ifs
    · rfl
    · cases getKeyA c.session with
      | none => rfl
      | some pub =>
        dsimp only
        split_ifs
        · rfl
        · cases insertContact c.contacts (pendingContact sha3 card) <;> rfl

theorem acceptContactRequest_withCerts (c : ClientState) (certs : List KnownCert) (contactId : Bytes) :
    acceptContactRequest sha3 { c with certs } contactId =
      (acceptContactRequest sha3 c contactId).map (fun r => ({ r.1 with certs }, r.2)) := by
  unfold acceptContactRequest getContact
  dsimp only
  cases c.contacts.find? (fun k => k.id = contactId) with
  | none => rfl
  | some contact =>
    dsimp only
    split_ifs
    · rfl
    · rfl

/-- Nothing but a frame that comes looks at the certificates. -/
theorem nextMember_withCerts (m : Member) (certs : List KnownCert) {e : MemberEvent} (he : presented e = none) :
    nextMember P load sha3 (m.withCerts certs) e = (nextMember P load sha3 m e).withCerts certs := by
  cases e with
  | contact e =>
    cases e with
    | client e =>
      cases e with
      | present p => cases he
      | op o => rfl
      | edit f => rfl
    | request card =>
      unfold nextMember nextWatched Member.withCerts
      dsimp only
      rw [sendContactRequest_withCerts]
      cases sendContactRequest sha3 m.client card <;> rfl
    | accept contactId =>
      unfold nextMember nextWatched Member.withCerts
      dsimp only
      rw [acceptContactRequest_withCerts]
      cases acceptContactRequest sha3 m.client contactId <;> rfl
    | decline contactId => rfl
    | block contactId => rfl
    | connect => rfl
  | group e => rfl
  | save => rfl
  | lock => rfl
  | restart => rfl
  | unlock i =>
    unfold nextMember Member.withCerts
    dsimp only
    split_ifs
    · rfl
    · rfl

theorem presented_eq_some {e : MemberEvent} {p : Presentation} (h : presented e = some p) : e = .contact (.client (.present p)) := by
  unfold presented at h
  split at h
  · rw [Option.some.inj h]
  · cases h

theorem nextMember_built (P : Primitives wire) {load : Bytes → Option Item} (hload : Loads load) (sha3 : Bytes → ByteArr 32) (m : Member)
    {e : MemberEvent} {p : Presentation} (he : presented e = some p) (hbuilt : BuiltOnly e) :
    ∃ certs, nextMember P load sha3 m e = m.withCerts certs := by
  obtain ⟨f, hf⟩ := hbuilt p he
  obtain rfl := presented_eq_some he
  have hunread := built_frame_unread P hload sha3 m.client f p hf
  exact ⟨_, congrArg (fun c => { m with client := c }) hunread.state⟩

/-- If the frames that come are those that Clients have built, a run is the run without them, but for the certificates: nothing that
anybody sends is ever seen or acknowledged. -/
theorem built_frames_leave_no_trace (P : Primitives wire) {load : Bytes → Option Item} (hload : Loads load) (sha3 : Bytes → ByteArr 32)
    (m : Member) (es : List MemberEvent) (h : ∀ e ∈ es, BuiltOnly e) :
    (∃ certs, es.foldl (nextMember P load sha3) m =
        ((es.filter (fun e => (presented e).isNone)).foldl (nextMember P load sha3) m).withCerts certs) ∧
      Along (nextMember P load sha3) (Silent P load sha3) m es := by
  constructor
  · induction es using List.reverseRecOn with
    | nil => exact ⟨m.client.certs, rfl⟩
    | append_singleton es e ih =>
      obtain ⟨certs, hes⟩ := ih (fun e' he' => h e' (List.mem_append_left [e] he'))
      rw [List.foldl_append, hes, List.filter_append, List.foldl_append]
      cases he : presented e with
      | none =>
        have hkeep : [e].filter (fun e => (presented e).isNone) = [e] := List.filter_cons_of_pos (by rw [he]; rfl)
        rw [hkeep]
        exact ⟨certs, nextMember_withCerts _ certs he⟩
      | some p =>
        have hdrop : [e].filter (fun e => (presented e).isNone) = [] := List.filter_cons_of_neg (by rw [he]; simp)
        rw [hdrop]
        obtain ⟨certs', hnext⟩ := nextMember_built P hload sha3
          (Member.withCerts ((es.filter (fun e => (presented e).isNone)).foldl (nextMember P load sha3) m) certs) he (h e (by simp))
        exact ⟨certs', hnext⟩
  · induction es generalizing m with
    | nil => trivial
    | cons e es ih =>
      refine ⟨?_, ih _ (fun e' he' => h e' (List.mem_cons_of_mem e he'))⟩
      intro p hp
      obtain ⟨f, hf⟩ := h e List.mem_cons_self p hp
      have hunread := built_frame_unread P hload sha3 m.client f p hf
      exact ⟨hunread.pushes, hunread.acked⟩

def builtFrame : MemberEvent := .contact (.client (.present { fromAlice [99] "ratchet" [] with frame := encodeDeliveryFrame certifiedFrame }))

/-- A frame comes twice. -/
theorem built_frames_leave_no_trace_twice :
    ∃ certs, (ownerOfGame ++ [builtFrame, builtFrame]).foldl (nextMember padding Cbor.load (fit 32)) (newMember [7] ownerContacts) =
      (ownerOfGame.foldl (nextMember padding Cbor.load (fit 32)) (newMember [7] ownerContacts)).withCerts certs := by
  refine (built_frames_leave_no_trace padding load_loads (fit 32) (newMember [7] ownerContacts) _ ?_).1
  intro e he p hp
  obtain hold | hnew := List.mem_append.mp he
  · have hnone : ∀ e ∈ ownerOfGame, presented e = none := by
      intro e he
      rw [List.mem_singleton.mp he]
      rfl
    rw [hnone e hold] at hp
    cases hp
  · refine ⟨certifiedFrame, ?_⟩
    simp only [List.mem_cons, List.not_mem_nil, or_false, or_self] at hnew
    subst hnew
    obtain rfl := Option.some.inj hp
    rfl

end Silence

end ScatterWeb.Client
