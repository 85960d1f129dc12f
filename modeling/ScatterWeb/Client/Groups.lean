import ScatterWeb.Client.Receive
import ScatterWeb.Lib.Table
import ScatterWeb.Lib.Transition

/-! # Groups, servers and their channels

A channel of a server is a conversation of its own: it has a copy of the member list, taken when it is created, and a sender
key. `kick_from_group` removes the member from the list of the server and replaces the sender key of the server. The channels
are not touched, so the one who was kicked stays in their lists and can read what is sent there. A server that has no channel
yet is left as it should be, and so are the channels that it gets later. -/
namespace ScatterWeb.Client
open Crypto Lib Lib.Cbor Mailbox
set_option autoImplicit false

/-! ## Tables -/

structure Group where
  id : Bytes
  name : Bytes
  type : Bytes
  myRole : Bytes
  createdAt : Int64

structure GroupMember where
  groupId : Bytes
  contactId : Bytes
  theirKeyBKem : Bytes
  theirKeyBSig : Bytes
  myKeyBId : Bytes
  role : Bytes
  joinedAt : Int64

def GroupMember.key (m : GroupMember) : Bytes × Bytes := (m.groupId, m.contactId)

structure ServerChannel where
  id : Bytes
  serverId : Bytes
  name : Bytes
  type : Bytes
  createdAt : Int64

/-- The columns of a conversation that `enqueue_for_conv` looks at. -/
structure ConversationType where
  id : Bytes
  type : Bytes

structure GroupState where
  groups : Table Group.id := .empty
  members : Table GroupMember.key := .empty
  channels : Table ServerChannel.id := .empty
  conversations : Table ConversationType.id := .empty
  keys : Keys

def Keys.senderKey (keys : Keys) (groupId contactId : Bytes) : Option SenderKey :=
  keys.senderKeys.lookup (cStr (groupId ++ ascii ":" ++ contactId))

def Keys.setSenderKey (keys : Keys) (groupId contactId : Bytes) (sk : SenderKey) : Keys :=
  { keys with senderKeys := keys.senderKeys.insert (cStr (groupId ++ ascii ":" ++ contactId)) sk }

theorem getSenderKey_eq (s : Session Keys) (groupId contactId : Bytes) :
    getSenderKey s groupId contactId = s.keystore.db.bind (fun db => db.rest.senderKey groupId contactId) := rfl

inductive GroupError
  | sessionLocked
  | groupNotFound
  | notAdmin
  | serverNotFound
  | unknownConversation
  | noSenderKey (groupId : Bytes)
  /-- `Keystore::save` throws. -/
  | save (e : Keystore.KeystoreError)

def GroupError.what (keystorePath saltPath : String) : GroupError → Bytes
  | .sessionLocked => ascii "SESSION_LOCKED"
  | .groupNotFound => ascii "group not found"
  | .notAdmin => ascii "NOT_ADMIN"
  | .serverNotFound => ascii "server not found"
  | .unknownConversation => ascii "unknown conversation"
  | .noSenderKey groupId => ascii "no sender key for group " ++ groupId
  | .save e => ascii (e.what keystorePath saltPath)

/-- The clock, what is drawn, and whether the keystore can be written. -/
structure GroupEnv where
  nowS : Int64
  nonce : ByteArr 16
  symKey : ByteArr 32
  save : Except Keystore.KeystoreError Unit := .ok ()

/-! ## Calls -/

section Calls
variable (sha3 : Bytes → ByteArr 32) (s : GroupState)

def GroupState.listGroupMembers (groupId : Bytes) : List GroupMember := s.members.rows.filter (fun m => m.groupId = groupId)

def GroupState.removeGroupMember (groupId contactId : Bytes) : GroupState :=
  { s with members := s.members.filter (fun m => ¬(m.groupId = groupId ∧ m.contactId = contactId)) }

def hexId (pub : Bytes) : Bytes := bytesToHex (sha3 pub).toList

def groupIdOf (pub : Bytes) (env : GroupEnv) : Bytes := bytesToHex (sha3 (pub ++ be 8 env.nowS.toUInt64.toNat ++ env.nonce.toList)).toList

def channelIdOf (pub serverId : Bytes) (env : GroupEnv) : Bytes :=
  bytesToHex (sha3 (pub ++ serverId ++ be 8 env.nowS.toUInt64.toNat ++ env.nonce.toList)).toList

/-- The Key B of the group is left out. -/
def createGroup (env : GroupEnv) (name type : Bytes) : GroupState × Except GroupError Bytes :=
  match s.keys.keyA with
  | none => (s, .error .sessionLocked)
  | some pub =>
    let groupId := groupIdOf sha3 pub env
    let s := { s with keys := s.keys.setSenderKey groupId (hexId sha3 pub) ⟨env.symKey, 0⟩ }
    match env.save with
    | .error e => (s, .error (.save e))
    | .ok () =>
      ({ s with
          groups := s.groups.upsert ⟨groupId, name, type, ascii "owner", env.nowS⟩
          conversations := s.conversations.upsert ⟨groupId, if type = ascii "server" then ascii "server_channel" else ascii "group"⟩ },
        .ok groupId)

def createServerChannel (env : GroupEnv) (serverId name channelType : Bytes) : GroupState × Except GroupError Bytes :=
  match s.groups.find serverId with
  | none => (s, .error .serverNotFound)
  | some grp =>
    if grp.type ≠ ascii "server" then (s, .error .serverNotFound)
    else
      match s.keys.keyA with
      | none => (s, .error .sessionLocked)
      | some pub =>
        let channelId := channelIdOf sha3 pub serverId env
        let s := { s with keys := s.keys.setSenderKey channelId (hexId sha3 pub) ⟨env.symKey, 0⟩ }
        match env.save with
        | .error e => (s, .error (.save e))
        | .ok () =>
          ({ s with
              channels := s.channels.upsert ⟨channelId, serverId, name, channelType, env.nowS⟩
              conversations := s.conversations.upsert ⟨channelId, ascii "server_channel"⟩
              members := (s.listGroupMembers serverId).foldl (fun t mem => t.upsert { mem with groupId := channelId }) s.members },
            .ok channelId)

/-- The member is gone before anything can throw. -/
def kickFromGroup (env : GroupEnv) (groupId contactId : Bytes) : GroupState × Except GroupError Unit :=
  match s.groups.find groupId with
  | none => (s, .error .groupNotFound)
  | some grp =>
    if grp.myRole ≠ ascii "owner" ∧ grp.myRole ≠ ascii "admin" then (s, .error .notAdmin)
    else
      let s := s.removeGroupMember groupId contactId
      match s.keys.keyA with
      | none => (s, .error .sessionLocked)
      | some pub =>
        let generation := match s.keys.senderKey groupId (hexId sha3 pub) with
          | some sk => sk.generation + 1
          | none => 1
        let s := { s with keys := s.keys.setSenderKey groupId (hexId sha3 pub) ⟨env.symKey, generation⟩ }
        match env.save with
        | .error e => (s, .error (.save e))
        | .ok () => (s, .ok ())

def leaveGroup (groupId : Bytes) : GroupState × Except GroupError Unit :=
  match s.keys.keyA with
  | none => (s, .error .sessionLocked)
  | some pub => (s.removeGroupMember groupId (hexId sha3 pub), .ok ())

def upsertGroupMember (m : GroupMember) : GroupState := { s with members := s.members.upsert m }

/-- A call of `outbox.enqueue_broadcast`: the sender key of its envelope, and the members whose Key B is among the recipients. -/
structure GroupBroadcast where
  key : SenderKey
  members : List GroupMember

/-- The field `recipients`. -/
def GroupBroadcast.recipients (b : GroupBroadcast) : List Bytes := b.members.map GroupMember.theirKeyBKem

/-- What goes out by `enqueue_dm` is not a broadcast. -/
def enqueueForConv (convId : Bytes) : Except GroupError (Option GroupBroadcast) :=
  match s.conversations.find convId with
  | none => .error .unknownConversation
  | some conv =>
    if conv.type = ascii "dm" then .ok none
    else
      match s.keys.keyA with
      | none => .error .sessionLocked
      | some pub =>
        match s.keys.senderKey convId (hexId sha3 pub) with
        | none => .error (.noSenderKey convId)
        | some sk => .ok (some ⟨sk, (s.listGroupMembers convId).filter (fun m => m.contactId ≠ hexId sha3 pub)⟩)

end Calls

/-! ## Runs -/

inductive GroupEvent
  | createGroup (env : GroupEnv) (name type : Bytes)
  | createServerChannel (env : GroupEnv) (serverId name channelType : Bytes)
  | upsertMember (m : GroupMember)
  | kick (env : GroupEnv) (groupId contactId : Bytes)
  | leave (groupId : Bytes)

/-- The sender keys that are drawn. -/
def GroupEvent.draws : GroupEvent → List (ByteArr 32)
  | .createGroup env _ _ => [env.symKey]
  | .createServerChannel env _ _ _ => [env.symKey]
  | .kick env _ _ => [env.symKey]
  | _ => []

/-- Somebody who was kicked and has not been added again, and the keys that were drawn since. -/
structure Kicked where
  server : Bytes
  contact : Bytes
  since : List (ByteArr 32)

structure GroupRun where
  state : GroupState
  kicked : List Kicked := []

/-- The server itself, or one of its channels. -/
def GroupState.PartOf (s : GroupState) (server convId : Bytes) : Prop :=
  convId = server ∨ ∃ ch ∈ s.channels.rows, ch.id = convId ∧ ch.serverId = server

instance (s : GroupState) (server convId : Bytes) : Decidable (s.PartOf server convId) :=
  inferInstanceAs (Decidable (convId = server ∨ ∃ ch ∈ s.channels.rows, ch.id = convId ∧ ch.serverId = server))

section Runs
variable (sha3 : Bytes → ByteArr 32)

def nextGroups (s : GroupState) : GroupEvent → GroupState
  | .createGroup env name type => (createGroup sha3 s env name type).1
  | .createServerChannel env serverId name channelType => (createServerChannel sha3 s env serverId name channelType).1
  | .upsertMember m => upsertGroupMember s m
  | .kick env groupId contactId => (kickFromGroup sha3 s env groupId contactId).1
  | .leave groupId => (leaveGroup sha3 s groupId).1

/-- A kick that succeeds. -/
def newlyKicked (s : GroupState) : GroupEvent → List Kicked
  | .kick env groupId contactId =>
    match (kickFromGroup sha3 s env groupId contactId).2 with
    | .ok () => [⟨groupId, contactId, [env.symKey]⟩]
    | .error _ => []
  | _ => []

/-- Who is added to the server or to a channel again. -/
def addsAgain (s : GroupState) (k : Kicked) : GroupEvent → Bool
  | .upsertMember m => decide (m.contactId = k.contact ∧ s.PartOf k.server m.groupId)
  | _ => false

def nextRun (r : GroupRun) (e : GroupEvent) : GroupRun where
  state := nextGroups sha3 r.state e
  kicked := newlyKicked sha3 r.state e ++
    ((r.kicked.filter (fun k => ¬addsAgain r.state k e)).map (fun k => { k with since := e.draws ++ k.since }))

/-- What is sent to the server or to a channel does not go to those who were kicked and is encrypted with a new key. -/
def KeptOut (r : GroupRun) : Prop :=
  ∀ k ∈ r.kicked, ∀ convId, r.state.PartOf k.server convId → ∀ b, enqueueForConv sha3 r.state convId = .ok (some b) →
    (∀ m ∈ b.members, m.contactId ≠ k.contact) ∧ b.key.symKey ∈ k.since

/-- Nobody is kicked from a server that has channels, and the id of a new channel is new. -/
def ChannelFree (r : GroupRun) : GroupEvent → Prop
  | .kick _ groupId _ => ∀ ch ∈ r.state.channels.rows, ch.serverId ≠ groupId
  | .createServerChannel env serverId _ _ => ∀ pub, r.state.keys.keyA = some pub →
      (∀ g ∈ r.state.groups.rows, g.id ≠ channelIdOf sha3 pub serverId env) ∧
        ∀ m ∈ r.state.members.rows, m.groupId ≠ channelIdOf sha3 pub serverId env
  | _ => True

/-- The lists of the server and of its channels are without the contact, and their keys are new. -/
structure Kicked.Out (s : GroupState) (k : Kicked) : Prop where
  group : ∃ g ∈ s.groups.rows, g.id = k.server
  members : ∀ m ∈ s.members.rows, s.PartOf k.server m.groupId → m.contactId ≠ k.contact
  keys : ∀ pub, s.keys.keyA = some pub → ∀ convId, s.PartOf k.server convId → ∀ sk,
    s.keys.senderKey convId (hexId sha3 pub) = some sk → sk.symKey ∈ k.since

variable {sha3} {s s' : GroupState} {k : Kicked}

/-! ### What every call leaves -/

theorem Keys.senderKey_setSenderKey {keys : Keys} {groupId contactId groupId' contactId' : Bytes} {sk sk' : SenderKey}
    (h : (keys.setSenderKey groupId contactId sk).senderKey groupId' contactId' = some sk') :
    keys.senderKey groupId' contactId' = some sk' ∨ sk' = sk := by
  unfold Keys.setSenderKey Keys.senderKey at h
  dsimp only at h
  by_cases hid : cStr (groupId' ++ ascii ":" ++ contactId') = cStr (groupId ++ ascii ":" ++ contactId)
  · rw [hid, AList.lookup_insert] at h
    exact Or.inr (Option.some.inj h).symm
  · rw [AList.lookup_insert_ne hid] at h
    exact Or.inl h

theorem Keys.senderKey_setSenderKey_self (keys : Keys) (groupId contactId : Bytes) (sk : SenderKey) :
    (keys.setSenderKey groupId contactId sk).senderKey groupId contactId = some sk := AList.lookup_insert _

/-- Groups and Key A stay, and a sender key is an old one or one of those that were drawn. -/
structure Lasting (drawn : List (ByteArr 32)) (s s' : GroupState) : Prop where
  groups : ∀ g ∈ s.groups.rows, ∃ g' ∈ s'.groups.rows, g'.id = g.id
  keyA : s'.keys.keyA = s.keys.keyA
  keys : ∀ convId me sk, s'.keys.senderKey convId me = some sk → s.keys.senderKey convId me = some sk ∨ sk.symKey ∈ drawn

/-- A call that makes no channel and adds nobody. -/
structure Shrinks (drawn : List (ByteArr 32)) (s s' : GroupState) : Prop extends Lasting drawn s s' where
  channels : s'.channels = s.channels
  members : ∀ m ∈ s'.members.rows, m ∈ s.members.rows

theorem Shrinks.refl (drawn : List (ByteArr 32)) (s : GroupState) : Shrinks drawn s s :=
  ⟨⟨fun g hg => ⟨g, hg, rfl⟩, rfl, fun _ _ _ h => Or.inl h⟩, rfl, fun _ h => h⟩

/-- A call that sets one sender key and keeps the groups. -/
theorem Lasting.of_set {groupId me : Bytes} (sk : SenderKey) (hgroups : ∀ g ∈ s.groups.rows, ∃ g' ∈ s'.groups.rows, g'.id = g.id)
    (hkeys : s'.keys = s.keys.setSenderKey groupId me sk) : Lasting [sk.symKey] s s' := by
  refine ⟨hgroups, by rw [hkeys]; rfl, ?_⟩
  intro convId me' sk' h
  rw [hkeys] at h
  rcases Keys.senderKey_setSenderKey h with hold | rfl
  · exact Or.inl hold
  · exact Or.inr (List.mem_singleton_self _)

theorem mem_groups_upsert {t : Table Group.id} {g new : Group} (hg : g ∈ t.rows) : ∃ g' ∈ (t.upsert new).rows, g'.id = g.id := by
  by_cases hid : g.id = new.id
  · exact ⟨new, Table.mem_upsert.mpr (Or.inr rfl), hid.symm⟩
  · exact ⟨g, Table.mem_upsert.mpr (Or.inl ⟨hg, hid⟩), rfl⟩

theorem createGroup_shrinks (env : GroupEnv) (name type : Bytes) : Shrinks [env.symKey] s (createGroup sha3 s env name type).1 := by
  unfold createGroup
  cases s.keys.keyA with
  | none => exact .refl _ s
  | some pub =>
    dsimp only
    cases env.save with
    | error e => exact ⟨.of_set ⟨env.symKey, 0⟩ (fun g hg => ⟨g, hg, rfl⟩) rfl, rfl, fun _ h => h⟩
    | ok _ => exact ⟨.of_set ⟨env.symKey, 0⟩ (fun g hg => mem_groups_upsert hg) rfl, rfl, fun _ h => h⟩

theorem kickFromGroup_shrinks (env : GroupEnv) (groupId contactId : Bytes) :
    Shrinks [env.symKey] s (kickFromGroup sha3 s env groupId contactId).1 := by
  unfold kickFromGroup
  cases s.groups.find groupId with
  | none => exact .refl _ s
  | some grp =>
    dsimp only
    split
    · exact .refl _ s
    · have hmembers : ∀ m ∈ (s.removeGroupMember groupId contactId).members.rows, m ∈ s.members.rows :=
        fun _ hm => List.mem_of_mem_filter hm
      cases (s.removeGroupMember groupId contactId).keys.keyA with
      | none => exact ⟨⟨fun g hg => ⟨g, hg, rfl⟩, rfl, fun _ _ _ h => Or.inl h⟩, rfl, hmembers⟩
      | some pub =>
        dsimp only
        cases env.save with
        | error e => exact ⟨.of_set ⟨env.symKey, _⟩ (fun g hg => ⟨g, hg, rfl⟩) rfl, rfl, hmembers⟩
        | ok _ => exact ⟨.of_set ⟨env.symKey, _⟩ (fun g hg => ⟨g, hg, rfl⟩) rfl, rfl, hmembers⟩

theorem leaveGroup_shrinks (groupId : Bytes) : Shrinks [] s (leaveGroup sha3 s groupId).1 := by
  unfold leaveGroup
  cases s.keys.keyA with
  | none => exact .refl _ s
  | some pub => exact ⟨⟨fun g hg => ⟨g, hg, rfl⟩, rfl, fun _ _ _ h => Or.inl h⟩, rfl, fun _ hm => List.mem_of_mem_filter hm⟩

/-- A channel that was made has the members that the server has now, and the key that was drawn. -/
structure Makes (sha3 : Bytes → ByteArr 32) (env : GroupEnv) (pub : Bytes) (ch : ServerChannel) (s s' : GroupState) : Prop
    extends Lasting [env.symKey] s s' where
  me : s.keys.keyA = some pub
  id : ch.id = channelIdOf sha3 pub ch.serverId env
  channels : s'.channels = s.channels.upsert ch
  members : ∀ m ∈ s'.members.rows, m ∈ s.members.rows ∨ ∃ mem ∈ s.listGroupMembers ch.serverId, m = { mem with groupId := ch.id }
  key : s'.keys.senderKey ch.id (hexId sha3 pub) = some ⟨env.symKey, 0⟩

theorem createServerChannel_cases (env : GroupEnv) (serverId name channelType : Bytes) :
    Shrinks [env.symKey] s (createServerChannel sha3 s env serverId name channelType).1 ∨
      ∃ pub ch, ch.serverId = serverId ∧ Makes sha3 env pub ch s (createServerChannel sha3 s env serverId name channelType).1 := by
  unfold createServerChannel
  cases s.groups.find serverId with
  | none => exact Or.inl (.refl _ s)
  | some grp =>
    dsimp only
    split
    · exact Or.inl (.refl _ s)
    · cases hkey : s.keys.keyA with
      | none => exact Or.inl (.refl _ s)
      | some pub =>
        dsimp only
        cases env.save with
        | error e => exact Or.inl ⟨.of_set ⟨env.symKey, 0⟩ (fun g hg => ⟨g, hg, rfl⟩) rfl, rfl, fun _ h => h⟩
        | ok _ =>
          refine Or.inr ⟨pub, ⟨channelIdOf sha3 pub serverId env, serverId, name, channelType, env.nowS⟩, rfl, ?_⟩
          refine ⟨.of_set ⟨env.symKey, 0⟩ (fun g hg => ⟨g, hg, rfl⟩) rfl, hkey, rfl, rfl, ?_, ?_⟩
          · intro m hm
            exact Table.mem_foldl_upsert hm
          · exact Keys.senderKey_setSenderKey_self _ _ _ _

/-- A kick that succeeds. -/
theorem kickFromGroup_ok {env : GroupEnv} {groupId contactId : Bytes} (h : (kickFromGroup sha3 s env groupId contactId).2 = .ok ()) :
    (∃ g ∈ (kickFromGroup sha3 s env groupId contactId).1.groups.rows, g.id = groupId) ∧
      (∀ m ∈ (kickFromGroup sha3 s env groupId contactId).1.members.rows, m.groupId = groupId → m.contactId ≠ contactId) ∧
      ∀ pub, (kickFromGroup sha3 s env groupId contactId).1.keys.keyA = some pub →
        ∃ generation, (kickFromGroup sha3 s env groupId contactId).1.keys.senderKey groupId (hexId sha3 pub) = some ⟨env.symKey, generation⟩ := by
  unfold kickFromGroup at h ⊢
  cases hfind : s.groups.find groupId with
  | none =>
    rw [hfind] at h
    cases h
  | some grp =>
    rw [hfind] at h
    dsimp only at h ⊢
    split at h
    · cases h
    · rename_i hrole
      rw [if_neg hrole]
      cases hkey : (s.removeGroupMember groupId contactId).keys.keyA with
      | none =>
        rw [hkey] at h
        cases h
      | some pub =>
        rw [hkey] at h
        dsimp only at h ⊢
        cases hsave : env.save with
        | error e =>
          rw [hsave] at h
          cases h
        | ok _ =>
          refine ⟨⟨grp, Table.mem_of_find hfind, Table.key_of_find hfind⟩, ?_, ?_⟩
          · intro m hm hgroup hcontact
            have hkeep := of_decide_eq_true (List.mem_filter.mp hm).2
            exact hkeep ⟨hgroup, hcontact⟩
          · intro pub' hpub'
            have hsame : some pub = some pub' := hkey.symm.trans hpub'
            obtain rfl := Option.some.inj hsame
            exact ⟨_, Keys.senderKey_setSenderKey_self _ _ _ _⟩

/-! ### Who is out stays out -/

theorem Kicked.Out.keys_of_lasting (h : k.Out sha3 s) {drawn : List (ByteArr 32)} (hlast : Lasting drawn s s') {pub convId : Bytes} {sk : SenderKey}
    (hpub : s'.keys.keyA = some pub) (hpart : s.PartOf k.server convId) (hsk : s'.keys.senderKey convId (hexId sha3 pub) = some sk) :
    sk.symKey ∈ drawn ++ k.since := by
  rw [hlast.keyA] at hpub
  rcases hlast.keys _ _ _ hsk with hold | hnew
  · exact List.mem_append_right drawn (h.keys pub hpub convId hpart sk hold)
  · exact List.mem_append_left k.since hnew

theorem Kicked.Out.group_of_lasting (h : k.Out sha3 s) {drawn : List (ByteArr 32)} (hlast : Lasting drawn s s') :
    ∃ g ∈ s'.groups.rows, g.id = k.server := by
  obtain ⟨g, hg, hid⟩ := h.group
  obtain ⟨g', hg', hid'⟩ := hlast.groups g hg
  exact ⟨g', hg', hid'.trans hid⟩

theorem Shrinks.partOf {drawn : List (ByteArr 32)} (h : Shrinks drawn s s') {server convId : Bytes} (hpart : s'.PartOf server convId) :
    s.PartOf server convId := by
  unfold GroupState.PartOf at hpart ⊢
  rw [h.channels] at hpart
  exact hpart

theorem Kicked.Out.shrinks (h : k.Out sha3 s) {drawn : List (ByteArr 32)} (hs : Shrinks drawn s s') :
    Kicked.Out sha3 s' { k with since := drawn ++ k.since } where
  group := h.group_of_lasting hs.toLasting
  members := by
    intro m hm hpart
    exact h.members m (hs.members m hm) (hs.partOf hpart)
  keys := by
    intro pub hpub convId hpart sk hsk
    exact h.keys_of_lasting hs.toLasting hpub (hs.partOf hpart) hsk

/-- The new channel is the only conversation that a server gets. -/
theorem Makes.partOf {env : GroupEnv} {pub : Bytes} {ch : ServerChannel} (h : Makes sha3 env pub ch s s') {server convId : Bytes}
    (hpart : s'.PartOf server convId) : s.PartOf server convId ∨ (convId = ch.id ∧ server = ch.serverId) := by
  rcases hpart with rfl | ⟨ch', hch', hid, hserver⟩
  · exact Or.inl (Or.inl rfl)
  · rw [h.channels] at hch'
    rcases Table.mem_upsert.mp hch' with ⟨hold, _⟩ | rfl
    · exact Or.inl (Or.inr ⟨ch', hold, hid, hserver⟩)
    · exact Or.inr ⟨hid.symm, hserver.symm⟩

theorem Kicked.Out.makes (h : k.Out sha3 s) {env : GroupEnv} {pub : Bytes} {ch : ServerChannel} (hm : Makes sha3 env pub ch s s')
    (hgroups : ∀ g ∈ s.groups.rows, g.id ≠ ch.id) (hfresh : ∀ m ∈ s.members.rows, m.groupId ≠ ch.id) :
    Kicked.Out sha3 s' { k with since := [env.symKey] ++ k.since } where
  group := h.group_of_lasting hm.toLasting
  members := by
    intro m hmem hpart
    rcases hm.members m hmem with hold | ⟨mem, hmem', rfl⟩
    · rcases hm.partOf hpart with hpart | ⟨hid, _⟩
      · exact h.members m hold hpart
      · exact absurd hid (hfresh m hold)
    · -- a copy is in the new channel only, and the member it is a copy of is in the server
      obtain ⟨hold, hserver⟩ := List.mem_filter.mp hmem'
      have hserver := of_decide_eq_true hserver
      rcases hpart with hself | ⟨ch', hch', hid, hof⟩
      · obtain ⟨g, hg, hgid⟩ := h.group
        exact absurd (hgid.trans hself.symm) (hgroups g hg)
      · rw [hm.channels] at hch'
        rcases Table.mem_upsert.mp hch' with ⟨_, hne⟩ | rfl
        · exact absurd hid hne
        · exact h.members mem hold (Or.inl (hserver.trans hof))
  keys := by
    intro pub' hpub' convId hpart sk hsk
    rcases hm.partOf hpart with hpart | ⟨rfl, _⟩
    · exact h.keys_of_lasting hm.toLasting hpub' hpart hsk
    · have hme : pub = pub' := Option.some.inj (hm.me.symm.trans (hm.keyA.symm.trans hpub'))
      rw [← hme, hm.key] at hsk
      obtain rfl := Option.some.inj hsk
      exact List.mem_cons_self

theorem Kicked.Out.upsertMember (h : k.Out sha3 s) {m : GroupMember} (hagain : ¬(m.contactId = k.contact ∧ s.PartOf k.server m.groupId)) :
    k.Out sha3 (upsertGroupMember s m) where
  group := h.group
  members := by
    intro m' hm' hpart
    rcases Table.mem_upsert.mp hm' with ⟨hold, _⟩ | rfl
    · exact h.members m' hold hpart
    · intro hcontact
      exact hagain ⟨hcontact, hpart⟩
  keys := h.keys

theorem Kicked.Out.step {r : GroupRun} (h : k.Out sha3 r.state) {e : GroupEvent} (hfree : ChannelFree sha3 r e) (hagain : ¬addsAgain r.state k e) :
    Kicked.Out sha3 (nextGroups sha3 r.state e) { k with since := e.draws ++ k.since } := by
  cases e with
  | createGroup env name type => exact h.shrinks (createGroup_shrinks env name type)
  | createServerChannel env serverId name channelType =>
    rcases @createServerChannel_cases sha3 r.state env serverId name channelType with hs | ⟨pub, ch, rfl, hm⟩
    · exact h.shrinks hs
    · obtain ⟨hgroups, hfresh⟩ := hfree pub hm.me
      rw [← hm.id] at hgroups hfresh
      exact h.makes hm hgroups hfresh
  | upsertMember m =>
    refine h.upsertMember ?_
    simpa [addsAgain] using hagain
  | kick env groupId contactId => exact h.shrinks (kickFromGroup_shrinks env groupId contactId)
  | leave groupId => exact h.shrinks (leaveGroup_shrinks groupId)

/-- Who is kicked from a server without channels is out. -/
theorem out_of_kick {env : GroupEnv} {groupId contactId : Bytes} (h : (kickFromGroup sha3 s env groupId contactId).2 = .ok ())
    (hfree : ∀ ch ∈ s.channels.rows, ch.serverId ≠ groupId) :
    Kicked.Out sha3 (kickFromGroup sha3 s env groupId contactId).1 ⟨groupId, contactId, [env.symKey]⟩ := by
  obtain ⟨hgroup, hmembers, hkeys⟩ := kickFromGroup_ok h
  have hself : ∀ convId, (kickFromGroup sha3 s env groupId contactId).1.PartOf groupId convId → convId = groupId := by
    intro convId hpart
    rcases (kickFromGroup_shrinks env groupId contactId).partOf hpart with hself | ⟨ch, hch, _, hserver⟩
    · exact hself
    · exact absurd hserver (hfree ch hch)
  refine ⟨hgroup, ?_, ?_⟩
  · intro m hm hpart
    exact hmembers m hm (hself _ hpart)
  · intro pub hpub convId hpart sk hsk
    obtain ⟨generation, hnew⟩ := hkeys pub hpub
    rw [hself _ hpart, hnew] at hsk
    obtain rfl := Option.some.inj hsk
    exact List.mem_singleton_self _

theorem out_of_newlyKicked {e : GroupEvent} {r : GroupRun} (hfree : ChannelFree sha3 r e) (hk : k ∈ newlyKicked sha3 r.state e) :
    k.Out sha3 (nextGroups sha3 r.state e) := by
  cases e with
  | kick env groupId contactId =>
    unfold newlyKicked at hk
    dsimp only at hk
    split at hk
    · rename_i hok
      rw [List.mem_singleton.mp hk]
      exact out_of_kick hok hfree
    · cases hk
  | _ => cases hk

theorem Kicked.Out.keptOut (h : k.Out sha3 s) {convId : Bytes} (hpart : s.PartOf k.server convId) {b : GroupBroadcast}
    (hb : enqueueForConv sha3 s convId = .ok (some b)) : (∀ m ∈ b.members, m.contactId ≠ k.contact) ∧ b.key.symKey ∈ k.since := by
  unfold enqueueForConv at hb
  cases hconv : s.conversations.find convId with
  | none =>
    rw [hconv] at hb
    cases hb
  | some conv =>
    rw [hconv] at hb
    dsimp only at hb
    split at hb
    · cases hb
    · cases hpub : s.keys.keyA with
      | none =>
        rw [hpub] at hb
        cases hb
      | some pub =>
        rw [hpub] at hb
        dsimp only at hb
        cases hsk : s.keys.senderKey convId (hexId sha3 pub) with
        | none =>
          rw [hsk] at hb
          cases hb
        | some sk =>
          rw [hsk] at hb
          obtain rfl := Option.some.inj (Except.ok.inj hb)
          refine ⟨?_, h.keys pub hpub convId hpart sk hsk⟩
          intro m hm
          obtain ⟨hm, hconvId⟩ := List.mem_filter.mp (List.mem_of_mem_filter hm)
          have hconvId : m.groupId = convId := of_decide_eq_true hconvId
          exact h.members m hm (hconvId ▸ hpart)

/-- In every run in which nobody is kicked from a server that has channels, those who were kicked are kept out. -/
theorem keptOut_of_channelFree (s : GroupState) {es : List GroupEvent} (h : Along (nextRun sha3) (ChannelFree sha3) ⟨s, []⟩ es) :
    KeptOut sha3 (es.foldl (nextRun sha3) ⟨s, []⟩) := by
  have hout : ∀ k ∈ (es.foldl (nextRun sha3) ⟨s, []⟩).kicked, k.Out sha3 (es.foldl (nextRun sha3) ⟨s, []⟩).state := by
    refine along_foldl (fun r => ∀ k ∈ r.kicked, k.Out sha3 r.state) ?_ ?_ h
    · intro r e hr hfree k hk
      rcases List.mem_append.mp hk with hnew | hold
      · exact out_of_newlyKicked hfree hnew
      · obtain ⟨k', hk', rfl⟩ := List.mem_map.mp hold
        obtain ⟨hk', hagain⟩ := List.mem_filter.mp hk'
        exact (hr k' hk').step hfree (of_decide_eq_true hagain)
    · intro k hk
      cases hk
  intro k hk convId hpart b hb
  exact (hout k hk).keptOut hpart hb

def owner : GroupState := { keys := ⟨some [7], ∅⟩ }

def drawing (n : UInt8) : GroupEnv := ⟨0, fit 16 [n], fit 32 [n], .ok ()⟩

def gameServer : Bytes := groupIdOf (fit 32) [7] (drawing 1)

def generalChannel : Bytes := channelIdOf (fit 32) [7] gameServer (drawing 2)

def bob : GroupMember := ⟨gameServer, ascii "bob", [1], [2], ascii "3", ascii "member", 0⟩

/-- Bob is kicked, and then the server gets a channel. -/
def channelLater : List GroupEvent :=
  [.createGroup (drawing 1) (ascii "game") (ascii "server"), .upsertMember bob, .kick (drawing 3) gameServer (ascii "bob"),
    .createServerChannel (drawing 2) gameServer (ascii "general") (ascii "text")]

/-- The server has a channel, and then Bob is kicked. -/
def channelBefore : List GroupEvent :=
  [.createGroup (drawing 1) (ascii "game") (ascii "server"), .upsertMember bob,
    .createServerChannel (drawing 2) gameServer (ascii "general") (ascii "text"), .kick (drawing 3) gameServer (ascii "bob")]

theorem channelFree_channelLater : Along (nextRun (fit 32)) (ChannelFree (fit 32)) ⟨owner, []⟩ channelLater := by
  refine ⟨trivial, trivial, ?_, ?_, trivial⟩
  · intro ch hch
    exact absurd hch List.not_mem_nil
  · intro pub hpub
    obtain rfl : [7] = pub := Option.some.inj hpub
    exact ⟨by decide, by decide⟩

theorem keptOut_of_channelFree_channelLater : KeptOut (fit 32) (channelLater.foldl (nextRun (fit 32)) ⟨owner, []⟩) :=
  keptOut_of_channelFree owner channelFree_channelLater

/-- Bob gets what is sent to the channel, under the key that she knows. -/
theorem not_keptOut_channelBefore : ¬KeptOut (fit 32) (channelBefore.foldl (nextRun (fit 32)) ⟨owner, []⟩) := by
  intro h
  have hkicked : (⟨gameServer, ascii "bob", [fit 32 [3]]⟩ : Kicked) ∈ (channelBefore.foldl (nextRun (fit 32)) ⟨owner, []⟩).kicked := by
    exact List.mem_cons_self
  have hpart : (channelBefore.foldl (nextRun (fit 32)) ⟨owner, []⟩).state.PartOf gameServer generalChannel := by
    decide
  have hsent : enqueueForConv (fit 32) (channelBefore.foldl (nextRun (fit 32)) ⟨owner, []⟩).state generalChannel =
      .ok (some ⟨⟨fit 32 [2], 0⟩, [{ bob with groupId := generalChannel }]⟩) := by
    rfl
  obtain ⟨hlists, _⟩ := h _ hkicked generalChannel hpart _ hsent
  exact hlists _ (List.mem_singleton_self _) rfl

end Runs

end ScatterWeb.Client
