import ScatterWeb.Client.Establish
import ScatterWeb.Client.Groups

/-! # Groups without members

`create_group` writes the keystore before the store, so a crash leaves no group without its Key B and its sender key. But it does not
add its creator, an invitation is sent without a member, and the one who gets a `group_invite` is only shown it. The two other callers of
`upsert_group_member` copy or change members that are there already. So no list of members ever has an entry: every invitation
says that there is nobody yet, and every message to a group is encrypted for nobody. -/
namespace ScatterWeb.Client.Invitations
open Crypto Lib Lib.Cbor Mailbox Client
set_option autoImplicit false

/-! ## A client and its groups -/

structure ServerRole where
  serverId : Bytes
  contactId : Bytes
  role : Bytes
  assignedAt : Int64

def ServerRole.key (r : ServerRole) : Bytes × Bytes := (r.serverId, r.contactId)

structure GroupContact extends Contact where
  myKeyBId : Bytes

/-- The tables of the keystore that groups have rows in. -/
structure GroupKeystore where
  keys : Keys
  keyBs : List KeyB

/-- The store, the keystore in memory, which has no Key A while it is locked, and what its file gives when it is read: nothing once a
write has been cut off. -/
structure GroupClient where
  tables : GroupState
  keyBs : List KeyB := []
  roles : Table ServerRole.key := .empty
  contacts : List GroupContact := []
  file : Option GroupKeystore

def GroupClient.memory (c : GroupClient) : GroupKeystore := ⟨c.tables.keys, c.keyBs⟩

def GroupClient.withMemory (c : GroupClient) (k : GroupKeystore) : GroupClient :=
  { c with tables := { c.tables with keys := k.keys }, keyBs := k.keyBs }

def noKeystore : GroupKeystore := ⟨⟨none, ∅⟩, []⟩

/-- A write that is cut off is not noticed. -/
structure CallEnv extends GroupEnv where
  kem : KemKeyPair (ByteArr 1184) (ByteArr 2400)
  sig : DsaKeyPair
  cut : Bool := false

/-! ### Statements -/

inductive Statement
  | insertKeyB (kb : KeyB)
  | setSenderKey (groupId contactId : Bytes) (sk : SenderKey)
  | save
  | upsertGroup (g : Group)
  | upsertConversation (conv : ConversationType)
  | upsertServerChannel (ch : ServerChannel)
  | upsertGroupMember (m : GroupMember)
  | removeGroupMember (groupId contactId : Bytes)
  | setServerRole (r : ServerRole)

section Statements
variable (env : CallEnv) (c : GroupClient)

def save : Except Keystore.KeystoreError GroupClient :=
  match env.save with
  | .error e => .error e
  | .ok () => .ok { c with file := if env.cut then none else some c.memory }

def exec : Statement → Except Keystore.KeystoreError GroupClient
  | .insertKeyB kb => .ok { c with keyBs := Client.insertKeyB c.keyBs kb }
  | .setSenderKey groupId contactId sk => .ok { c with tables := { c.tables with keys := c.tables.keys.setSenderKey groupId contactId sk } }
  | .save => save env c
  | .upsertGroup g => .ok { c with tables := { c.tables with groups := c.tables.groups.upsert g } }
  | .upsertConversation conv => .ok { c with tables := { c.tables with conversations := c.tables.conversations.upsert conv } }
  | .upsertServerChannel ch => .ok { c with tables := { c.tables with channels := c.tables.channels.upsert ch } }
  | .upsertGroupMember m => .ok { c with tables := Client.upsertGroupMember c.tables m }
  | .removeGroupMember groupId contactId => .ok { c with tables := c.tables.removeGroupMember groupId contactId }
  | .setServerRole r => .ok { c with roles := c.roles.upsert r }

/-- The statements one after the other, up to the first that throws. -/
def performs (c : GroupClient) : List Statement → GroupClient × Except Keystore.KeystoreError Unit
  | [] => (c, .ok ())
  | st :: rest =>
    match exec env c st with
    | .error e => (c, .error e)
    | .ok c' => performs c' rest

end Statements

/-! ### Calls -/

inductive GroupCall
  | createGroup (name type : Bytes)
  | createServerChannel (serverId name channelType : Bytes)
  | kick (groupId contactId : Bytes)
  | leave (groupId : Bytes)
  | setServerMemberRole (serverId contactId role : Bytes)

section Calls
variable (sha3 : Bytes → ByteArr 32) (env : CallEnv) (c : GroupClient)

def createGroupPlan (name type : Bytes) : List Statement × Except GroupError Bytes :=
  match c.tables.keys.keyA with
  | none => ([], .error .sessionLocked)
  | some pub =>
    let groupId := groupIdOf sha3 pub env.toGroupEnv
    let relationship := (if type = ascii "server" then ascii "server_channel:" else ascii "group:") ++ groupId
    ([.insertKeyB ⟨groupId, relationship, env.kem, env.sig, env.nowS⟩,
      .setSenderKey groupId (hexId sha3 pub) ⟨env.symKey, 0⟩,
      .save,
      .upsertGroup ⟨groupId, name, type, ascii "owner", env.nowS⟩,
      .upsertConversation ⟨groupId, if type = ascii "server" then ascii "server_channel" else ascii "group"⟩], .ok groupId)

def createServerChannelPlan (serverId name channelType : Bytes) : List Statement × Except GroupError Bytes :=
  match c.tables.groups.find serverId with
  | none => ([], .error .serverNotFound)
  | some grp =>
    if grp.type ≠ ascii "server" then ([], .error .serverNotFound)
    else
      match c.tables.keys.keyA with
      | none => ([], .error .sessionLocked)
      | some pub =>
        let channelId := channelIdOf sha3 pub serverId env.toGroupEnv
        ([.setSenderKey channelId (hexId sha3 pub) ⟨env.symKey, 0⟩,
          .save,
          .upsertServerChannel ⟨channelId, serverId, name, channelType, env.nowS⟩,
          .upsertConversation ⟨channelId, ascii "server_channel"⟩] ++
          (c.tables.listGroupMembers serverId).map (fun mem => .upsertGroupMember { mem with groupId := channelId }), .ok channelId)

def kickPlan (groupId contactId : Bytes) : List Statement × Except GroupError Bytes :=
  match c.tables.groups.find groupId with
  | none => ([], .error .groupNotFound)
  | some grp =>
    if grp.myRole ≠ ascii "owner" ∧ grp.myRole ≠ ascii "admin" then ([], .error .notAdmin)
    else
      match c.tables.keys.keyA with
      | none => ([.removeGroupMember groupId contactId], .error .sessionLocked)
      | some pub =>
        let generation := match c.tables.keys.senderKey groupId (hexId sha3 pub) with
          | some sk => sk.generation + 1
          | none => 1
        ([.removeGroupMember groupId contactId,
          .setSenderKey groupId (hexId sha3 pub) ⟨env.symKey, generation⟩,
          .save], .ok [])

def leavePlan (groupId : Bytes) : List Statement × Except GroupError Bytes :=
  match c.tables.keys.keyA with
  | none => ([], .error .sessionLocked)
  | some pub => ([.removeGroupMember groupId (hexId sha3 pub)], .ok [])

def setServerMemberRolePlan (serverId contactId role : Bytes) : List Statement × Except GroupError Bytes :=
  match c.tables.groups.find serverId with
  | none => ([], .error .serverNotFound)
  | some _ =>
    (.setServerRole ⟨serverId, contactId, role, env.nowS⟩ ::
      match c.tables.members.find (serverId, contactId) with
      | none => []
      | some mem => [.upsertGroupMember { mem with role }], .ok [])

/-- What a call will do, from what it finds at its start, and its result if nothing throws in between. -/
def plan : GroupCall → List Statement × Except GroupError Bytes
  | .createGroup name type => createGroupPlan sha3 env c name type
  | .createServerChannel serverId name channelType => createServerChannelPlan sha3 env c serverId name channelType
  | .kick groupId contactId => kickPlan sha3 env c groupId contactId
  | .leave groupId => leavePlan sha3 c groupId
  | .setServerMemberRole serverId contactId role => setServerMemberRolePlan env c serverId contactId role

def call (e : GroupCall) : GroupClient × Except GroupError Bytes :=
  let r := performs env c (plan sha3 env c e).1
  (r.1, match r.2 with
    | .error err => .error (.save err)
    | .ok () => (plan sha3 env c e).2)

end Calls

/-! ### Invitations -/

inductive InviteError
  | groupNotFound
  | notAdmin
  | contactNotFound
  | sessionLocked
  | noKeyB

def InviteError.what : InviteError → String
  | .groupNotFound => "group not found"
  | .notAdmin => "NOT_ADMIN"
  | .contactNotFound => "CONTACT_NOT_FOUND"
  | .sessionLocked => "SESSION_LOCKED"
  | .noKeyB => "no key_b for group"

/-- A call of `enqueue_dm` for a `group_invite`. -/
structure Invitation where
  convId : Bytes
  appFrame : Bytes
  frameId : Bytes

section Invite
variable (sha3 : Bytes → ByteArr 32) (c : GroupClient)

def GroupClient.getContact (id : Bytes) : Option GroupContact := c.contacts.find? (fun k => decide (k.id = id))

def memberItem (m : GroupMember) : Item :=
  let memMap := DefMap.new 3
  let memMap := match c.getContact m.contactId with
    | none => memMap
    | some mc => mapAddBytes memMap "key_a_pubkey" mc.keyAPubkey
  (mapAddBytes memMap "key_b_kem_pubkey" m.theirKeyBKem).item

def inviteMap (frameId : Bytes) (nowMs : Int64) (grp : Group) (contact : GroupContact) (kb : KeyB) (members : List Item) : DefMap :=
  let af := DefMap.new 9
  let af := mapAddStr af "type" (ascii "group_invite")
  let af := mapAddBytes af "id" frameId
  let af := mapAddStr af "conversation_id" contact.myKeyBId
  let af := mapAddUint af "sent_at" nowMs.toUInt64
  let af := mapAddStr af "group_id" grp.id
  let af := mapAddStr af "group_name" grp.name
  let af := mapAddStr af "server_type" grp.type
  let af := mapAddBytes af "my_key_b_kem_pk" kb.kem.pub.toList
  af.add (.text (ascii "existing_members")) (.array members)

/-- `invite_to_group` up to `enqueue_dm`. -/
def inviteToGroup (frameId : Bytes) (nowMs : Int64) (groupId contactId : Bytes) : Except InviteError Invitation :=
  match c.tables.groups.find groupId with
  | none => .error .groupNotFound
  | some grp =>
    if grp.myRole ≠ ascii "owner" ∧ grp.myRole ≠ ascii "admin" then .error .notAdmin
    else
      match c.getContact contactId with
      | none => .error .contactNotFound
      | some contact =>
        match c.tables.keys.keyA with
        | none => .error .sessionLocked
        | some pub =>
          let members := (c.tables.listGroupMembers groupId).map (memberItem c)
          match c.keyBs.find? (fun kb => decide (kb.id = groupId)) with
          | none => .error .noKeyB
          | some kb => .ok ⟨dmConvId sha3 (hexId sha3 pub) contactId, cborSer (inviteMap frameId nowMs grp contact kb members), frameId⟩

end Invite

/-! ## Runs -/

inductive Event
  | call (env : CallEnv) (e : GroupCall)
  /-- The process ends after so many statements of a call; the last of them may be a write that is cut off. -/
  | dies (env : CallEnv) (e : GroupCall) (n : ℕ)
  /-- What the other calls change: the contacts, conversations with one contact, Key Bs. -/
  | contacts (contacts : List GroupContact)
  | dmConversation (convId : Bytes)
  | insertKeyB (kb : KeyB)
  | save (env : CallEnv)
  | lock (env : CallEnv)
  | restart
  | unlock

section Runs
variable (sha3 : Bytes → ByteArr 32)

def unlocked (c : GroupClient) : Bool := c.tables.keys.keyA.isSome

def saved (env : CallEnv) (c : GroupClient) : GroupClient :=
  match Invitations.save env c with
  | .error _ => c
  | .ok c' => c'

/-- The keystore is locked only if the write does not throw. -/
def locked (env : CallEnv) (c : GroupClient) : GroupClient :=
  match Invitations.save env c with
  | .error _ => c
  | .ok c' => c'.withMemory noKeystore

def next (c : GroupClient) : Event → GroupClient
  | .call env e => (call sha3 env c e).1
  | .dies env e n => (performs env c ((plan sha3 env c e).1.take n)).1.withMemory noKeystore
  | .contacts contacts => { c with contacts }
  | .dmConversation convId => { c with tables := { c.tables with conversations := c.tables.conversations.upsert ⟨convId, ascii "dm"⟩ } }
  | .insertKeyB kb => if unlocked c then { c with keyBs := Client.insertKeyB c.keyBs kb } else c
  | .save env => if unlocked c then saved env c else c
  | .lock env => if unlocked c then locked env c else c
  | .restart => c.withMemory noKeystore
  | .unlock => if unlocked c then c else c.withMemory (c.file.getD noKeystore)

/-- A client that has just made its Key A and written it. -/
def newClient (pub : Bytes) : GroupClient where
  tables := { keys := ⟨some pub, ∅⟩ }
  file := some ⟨⟨some pub, ∅⟩, []⟩

end Runs

/-! ### The calls as they are elsewhere -/

section Agree
variable {sha3 : Bytes → ByteArr 32} {env : CallEnv} {c : GroupClient}

def GroupCall.event (env : CallEnv) : GroupCall → Option GroupEvent
  | .createGroup name type => some (.createGroup env.toGroupEnv name type)
  | .createServerChannel serverId name channelType => some (.createServerChannel env.toGroupEnv serverId name channelType)
  | .kick groupId contactId => some (.kick env.toGroupEnv groupId contactId)
  | .leave groupId => some (.leave groupId)
  | .setServerMemberRole _ _ _ => none

theorem tables_performs_members (f : GroupMember → GroupMember) (ms : List GroupMember) (c : GroupClient) :
    (performs env c (ms.map (fun m => .upsertGroupMember (f m)))).1.tables =
      { c.tables with members := ms.foldl (fun t m => t.upsert (f m)) c.tables.members } := by
  induction ms generalizing c with
  | nil => rfl
  | cons m ms ih =>
    rw [List.map_cons, performs, exec]
    dsimp only
    rw [ih]
    rfl

/-- The statements of a call make of the tables what the call does. -/
theorem tables_call {e : GroupCall} {e' : GroupEvent} (h : e.event env = some e') : (call sha3 env c e).1.tables = nextGroups sha3 c.tables e' := by
  cases e with
  | createGroup name type =>
    cases h
    simp only [call, plan, createGroupPlan, nextGroups, createGroup]
    cases c.tables.keys.keyA with
    | none => rfl
    | some pub =>
      dsimp only
      simp only [performs, exec, Invitations.save]
      cases env.save <;> rfl
  | createServerChannel serverId name channelType =>
    cases h
    simp only [call, plan, createServerChannelPlan, nextGroups, createServerChannel]
    cases c.tables.groups.find serverId with
    | none => rfl
    | some grp =>
      dsimp only
      split
      · rfl
      · cases c.tables.keys.keyA with
        | none => rfl
        | some pub =>
          dsimp only
          simp only [List.cons_append, List.nil_append, performs, exec, Invitations.save]
          cases env.save with
          | error err => rfl
          | ok _ =>
            dsimp only
            rw [tables_performs_members]
            rfl
  | kick groupId contactId =>
    cases h
    simp only [call, plan, kickPlan, nextGroups, kickFromGroup]
    cases c.tables.groups.find groupId with
    | none => rfl
    | some grp =>
      dsimp only
      split
      · rfl
      · have hkeys : (c.tables.removeGroupMember groupId contactId).keys = c.tables.keys := rfl
        rw [hkeys]
        cases c.tables.keys.keyA with
        | none => rfl
        | some pub =>
          dsimp only
          simp only [performs, exec, Invitations.save]
          cases env.save <;> rfl
  | leave groupId =>
    cases h
    simp only [call, plan, leavePlan, nextGroups, leaveGroup]
    cases c.tables.keys.keyA <;> rfl
  | setServerMemberRole serverId contactId role => cases h

end Agree

/-! ## What every statement keeps -/

section Keystores
variable {sha3 : Bytes → ByteArr 32} {pub : Bytes} {k : GroupKeystore} {id : Bytes}

def GroupKeystore.HasKeyB (k : GroupKeystore) (id : Bytes) : Prop := ∃ kb ∈ k.keyBs, kb.id = id

def GroupKeystore.HasSenderKey (sha3 : Bytes → ByteArr 32) (pub : Bytes) (k : GroupKeystore) (id : Bytes) : Prop :=
  ∃ sk, k.keys.senderKey id (hexId sha3 pub) = some sk

/-- The keys for every group and for every conversation with more than one contact. -/
structure Equipped (sha3 : Bytes → ByteArr 32) (pub : Bytes) (groups : Table Group.id) (conversations : Table ConversationType.id)
    (k : GroupKeystore) : Prop where
  keyA : k.keys.keyA = some pub
  keyB : ∀ g ∈ groups.rows, k.HasKeyB g.id
  senderKey : ∀ conv ∈ conversations.rows, conv.type ≠ ascii "dm" → k.HasSenderKey sha3 pub conv.id

theorem GroupKeystore.HasKeyB.insert (h : k.HasKeyB id) (kb : KeyB) : GroupKeystore.HasKeyB ⟨k.keys, insertKeyB k.keyBs kb⟩ id := by
  obtain ⟨kb', hmem, hid⟩ := h
  refine ⟨kb', ?_, hid⟩
  unfold insertKeyB
  split
  · exact hmem
  · exact List.mem_append_left _ hmem

theorem hasKeyB_insert (k : GroupKeystore) (kb : KeyB) : GroupKeystore.HasKeyB ⟨k.keys, insertKeyB k.keyBs kb⟩ kb.id := by
  unfold insertKeyB GroupKeystore.HasKeyB
  split
  · rename_i hold
    exact hold
  · exact ⟨kb, List.mem_append_right _ (List.mem_singleton_self _), rfl⟩

theorem GroupKeystore.HasSenderKey.set (h : k.HasSenderKey sha3 pub id) (groupId contactId : Bytes) (sk : SenderKey) :
    GroupKeystore.HasSenderKey sha3 pub ⟨k.keys.setSenderKey groupId contactId sk, k.keyBs⟩ id := by
  obtain ⟨sk', hold⟩ := h
  unfold GroupKeystore.HasSenderKey Keys.senderKey Keys.setSenderKey
  dsimp only
  by_cases hsame : cStr (id ++ ascii ":" ++ hexId sha3 pub) = cStr (groupId ++ ascii ":" ++ contactId)
  · exact ⟨sk, by rw [hsame, AList.lookup_insert]⟩
  · exact ⟨sk', by rw [AList.lookup_insert_ne hsame]; exact hold⟩

theorem hasSenderKey_set (k : GroupKeystore) (groupId : Bytes) (sk : SenderKey) :
    GroupKeystore.HasSenderKey sha3 pub ⟨k.keys.setSenderKey groupId (hexId sha3 pub) sk, k.keyBs⟩ groupId :=
  ⟨sk, Keys.senderKey_setSenderKey_self k.keys groupId (hexId sha3 pub) sk⟩

variable {groups : Table Group.id} {conversations : Table ConversationType.id}

theorem Equipped.insertKeyB (h : Equipped sha3 pub groups conversations k) (kb : KeyB) :
    Equipped sha3 pub groups conversations ⟨k.keys, Client.insertKeyB k.keyBs kb⟩ where
  keyA := h.keyA
  keyB := fun g hg => (h.keyB g hg).insert kb
  senderKey := h.senderKey

theorem Equipped.setSenderKey (h : Equipped sha3 pub groups conversations k) (groupId contactId : Bytes) (sk : SenderKey) :
    Equipped sha3 pub groups conversations ⟨k.keys.setSenderKey groupId contactId sk, k.keyBs⟩ where
  keyA := h.keyA
  keyB := h.keyB
  senderKey := fun conv hconv htype => (h.senderKey conv hconv htype).set groupId contactId sk

theorem Equipped.upsertGroup (h : Equipped sha3 pub groups conversations k) {g : Group} (hg : k.HasKeyB g.id) :
    Equipped sha3 pub (groups.upsert g) conversations k where
  keyA := h.keyA
  keyB := by
    intro g' hg'
    obtain ⟨hold, _⟩ | rfl := Table.mem_upsert.mp hg'
    · exact h.keyB g' hold
    · exact hg
  senderKey := h.senderKey

theorem Equipped.upsertConversation (h : Equipped sha3 pub groups conversations k) {conv : ConversationType}
    (hconv : conv.type ≠ ascii "dm" → k.HasSenderKey sha3 pub conv.id) :
    Equipped sha3 pub groups (conversations.upsert conv) k where
  keyA := h.keyA
  keyB := h.keyB
  senderKey := by
    intro conv' hmem htype
    obtain ⟨hold, _⟩ | rfl := Table.mem_upsert.mp hmem
    · exact h.senderKey conv' hold htype
    · exact hconv htype

end Keystores

section Invariant
variable (sha3 : Bytes → ByteArr 32) (pub : Bytes) (env : CallEnv)

/-- The keystore in memory and the one in the file, of those that there are. -/
def GroupClient.Every (c : GroupClient) (Q : GroupKeystore → Prop) : Prop :=
  (c.tables.keys.keyA ≠ none → Q c.memory) ∧ ∀ k, c.file = some k → Q k

structure Founded (c : GroupClient) : Prop where
  members : c.tables.members.rows = []
  owner : ∀ g ∈ c.tables.groups.rows, g.myRole = ascii "owner"
  equipped : c.Every (Equipped sha3 pub c.tables.groups c.tables.conversations)

/-- A row of the store is written when the keys for it are in the keystore and in its file. -/
def Prepared (c : GroupClient) : Statement → Prop
  | .upsertGroup g => g.myRole = ascii "owner" ∧ c.Every (fun k => k.HasKeyB g.id)
  | .upsertConversation conv => c.Every (fun k => k.HasSenderKey sha3 pub conv.id)
  | .upsertGroupMember _ => False
  | .save => c.tables.keys.keyA ≠ none
  | _ => True

def PreparedAll (c : GroupClient) : List Statement → Prop
  | [] => True
  | st :: rest => Prepared sha3 pub c st ∧ ∀ c', exec env c st = .ok c' → PreparedAll c' rest

variable {sha3 pub env} {c c' : GroupClient}

theorem Founded.exec (h : Founded sha3 pub c) {st : Statement} (hst : Prepared sha3 pub c st) (hc' : Invitations.exec env c st = .ok c') :
    Founded sha3 pub c' := by
  obtain ⟨hmembers, howner, hmemory, hfile⟩ := h
  cases st with
  | insertKeyB kb =>
    cases hc'
    exact ⟨hmembers, howner, fun hkey => (hmemory hkey).insertKeyB kb, hfile⟩
  | setSenderKey groupId contactId sk =>
    cases hc'
    exact ⟨hmembers, howner, fun hkey => (hmemory hkey).setSenderKey groupId contactId sk, hfile⟩
  | save =>
    simp only [Invitations.exec, Invitations.save] at hc'
    cases hsave : env.save with
    | error e => rw [hsave] at hc'; cases hc'
    | ok _ =>
      rw [hsave] at hc'
      cases hc'
      refine ⟨hmembers, howner, hmemory, ?_⟩
      intro k hk
      dsimp only at hk
      split at hk
      · cases hk
      · cases hk
        exact hmemory hst
  | upsertGroup g =>
    cases hc'
    refine ⟨hmembers, ?_, fun hkey => (hmemory hkey).upsertGroup (hst.2.1 hkey), fun k hk => (hfile k hk).upsertGroup (hst.2.2 k hk)⟩
    intro g' hg'
    obtain ⟨hold, _⟩ | rfl := Table.mem_upsert.mp hg'
    · exact howner g' hold
    · exact hst.1
  | upsertConversation conv =>
    cases hc'
    exact ⟨hmembers, howner, fun hkey => (hmemory hkey).upsertConversation (fun _ => hst.1 hkey),
      fun k hk => (hfile k hk).upsertConversation (fun _ => hst.2 k hk)⟩
  | upsertServerChannel ch =>
    cases hc'
    exact ⟨hmembers, howner, hmemory, hfile⟩
  | upsertGroupMember m => exact hst.elim
  | removeGroupMember groupId contactId =>
    cases hc'
    refine ⟨?_, howner, hmemory, hfile⟩
    change c.tables.members.rows.filter _ = []
    rw [hmembers]
    rfl
  | setServerRole r =>
    cases hc'
    exact ⟨hmembers, howner, hmemory, hfile⟩

theorem Founded.performs {ws : List Statement} (h : Founded sha3 pub c) (hws : PreparedAll sha3 pub env c ws) :
    Founded sha3 pub (performs env c ws).1 := by
  induction ws generalizing c with
  | nil => exact h
  | cons st ws ih =>
    rw [Invitations.performs]
    cases hst : Invitations.exec env c st with
    | error e => exact h
    | ok c' => exact ih (h.exec hws.1 hst) (hws.2 c' hst)

theorem PreparedAll.take {ws : List Statement} (h : PreparedAll sha3 pub env c ws) (n : ℕ) : PreparedAll sha3 pub env c (ws.take n) := by
  induction ws generalizing c n with
  | nil => rw [List.take_nil]; trivial
  | cons st ws ih =>
    cases n with
    | zero => trivial
    | succ n => exact ⟨h.1, fun c' hc' => ih (h.2 c' hc') n⟩

/-! ### The order of the statements of a call -/

theorem every_saved {Q : GroupKeystore → Prop} (hQ : Q c.memory) (hc' : Invitations.exec env c .save = .ok c') : c'.Every Q := by
  simp only [Invitations.exec, Invitations.save] at hc'
  cases hsave : env.save with
  | error e => rw [hsave] at hc'; cases hc'
  | ok _ =>
    rw [hsave] at hc'
    cases hc'
    refine ⟨fun _ => hQ, ?_⟩
    intro k hk
    dsimp only at hk
    split at hk
    · cases hk
    · cases hk
      exact hQ

theorem Founded.eq_of_keyA (h : Founded sha3 pub c) {pub' : Bytes} (hkey : c.tables.keys.keyA = some pub') : pub' = pub := by
  have hunlocked : c.tables.keys.keyA ≠ none := by rw [hkey]; exact Option.some_ne_none _
  exact Option.some.inj (hkey.symm.trans (h.equipped.1 hunlocked).keyA)

theorem Founded.listGroupMembers (h : Founded sha3 pub c) (groupId : Bytes) : c.tables.listGroupMembers groupId = [] := by
  unfold GroupState.listGroupMembers
  rw [h.members]
  rfl

theorem preparedAll_createGroup (h : Founded sha3 pub c) (name type : Bytes) :
    PreparedAll sha3 pub env c (createGroupPlan sha3 env c name type).1 := by
  unfold createGroupPlan
  cases hkey : c.tables.keys.keyA with
  | none => trivial
  | some pub' =>
    obtain rfl := h.eq_of_keyA hkey
    have hunlocked : c.tables.keys.keyA ≠ none := by rw [hkey]; exact Option.some_ne_none _
    refine ⟨trivial, ?_⟩
    rintro c1 ⟨⟩
    refine ⟨trivial, ?_⟩
    rintro c2 ⟨⟩
    refine ⟨hunlocked, ?_⟩
    intro c3 hc3
    have hkeyB : c3.Every (fun k => k.HasKeyB (groupIdOf sha3 pub' env.toGroupEnv)) := by
      refine every_saved ?_ hc3
      exact hasKeyB_insert c.memory _
    have hsender : c3.Every (fun k => k.HasSenderKey sha3 pub' (groupIdOf sha3 pub' env.toGroupEnv)) := by
      refine every_saved ?_ hc3
      exact hasSenderKey_set c.memory _ _
    refine ⟨⟨rfl, hkeyB⟩, ?_⟩
    rintro c4 ⟨⟩
    refine ⟨hsender, ?_⟩
    rintro c5 ⟨⟩
    trivial

theorem preparedAll_createServerChannel (h : Founded sha3 pub c) (serverId name channelType : Bytes) :
    PreparedAll sha3 pub env c (createServerChannelPlan sha3 env c serverId name channelType).1 := by
  unfold createServerChannelPlan
  cases c.tables.groups.find serverId with
  | none => trivial
  | some grp =>
    dsimp only
    split
    · trivial
    · cases hkey : c.tables.keys.keyA with
      | none => trivial
      | some pub' =>
        obtain rfl := h.eq_of_keyA hkey
        have hunlocked : c.tables.keys.keyA ≠ none := by rw [hkey]; exact Option.some_ne_none _
        dsimp only
        rw [h.listGroupMembers]
        refine ⟨trivial, ?_⟩
        rintro c1 ⟨⟩
        refine ⟨hunlocked, ?_⟩
        intro c2 hc2
        have hsender : c2.Every (fun k => k.HasSenderKey sha3 pub' (channelIdOf sha3 pub' serverId env.toGroupEnv)) := by
          refine every_saved ?_ hc2
          exact hasSenderKey_set c.memory _ _
        refine ⟨trivial, ?_⟩
        rintro c3 ⟨⟩
        refine ⟨hsender, ?_⟩
        rintro c4 ⟨⟩
        trivial

theorem preparedAll_kick (groupId contactId : Bytes) : PreparedAll sha3 pub env c (kickPlan sha3 env c groupId contactId).1 := by
  unfold kickPlan
  cases c.tables.groups.find groupId with
  | none => trivial
  | some grp =>
    dsimp only
    split
    · trivial
    · cases hkey : c.tables.keys.keyA with
      | none => exact ⟨trivial, fun _ _ => trivial⟩
      | some pub' =>
        have hunlocked : c.tables.keys.keyA ≠ none := by rw [hkey]; exact Option.some_ne_none _
        refine ⟨trivial, ?_⟩
        rintro c1 ⟨⟩
        refine ⟨trivial, ?_⟩
        rintro c2 ⟨⟩
        exact ⟨hunlocked, fun _ _ => trivial⟩

/-- No statement of a call comes too early, and none adds a member. -/
theorem preparedAll_plan (h : Founded sha3 pub c) (e : GroupCall) : PreparedAll sha3 pub env c (plan sha3 env c e).1 := by
  cases e with
  | createGroup name type => exact preparedAll_createGroup h name type
  | createServerChannel serverId name channelType => exact preparedAll_createServerChannel h serverId name channelType
  | kick groupId contactId => exact preparedAll_kick groupId contactId
  | leave groupId =>
    change PreparedAll sha3 pub env c (leavePlan sha3 c groupId).1
    unfold leavePlan
    cases c.tables.keys.keyA with
    | none => trivial
    | some pub' => exact ⟨trivial, fun _ _ => trivial⟩
  | setServerMemberRole serverId contactId role =>
    change PreparedAll sha3 pub env c (setServerMemberRolePlan env c serverId contactId role).1
    have hnone : c.tables.members.find (serverId, contactId) = none := by
      rw [Table.find_eq_none_iff, h.members]
      intro m hm
      cases hm
    unfold setServerMemberRolePlan
    cases c.tables.groups.find serverId with
    | none => trivial
    | some grp =>
      dsimp only
      rw [hnone]
      exact ⟨trivial, fun _ _ => trivial⟩

end Invariant

/-! ## Runs keep it -/

section Steps
variable {sha3 : Bytes → ByteArr 32} {pub : Bytes} {c : GroupClient}

theorem Founded.withMemory (h : Founded sha3 pub c) {k : GroupKeystore}
    (hk : k.keys.keyA ≠ none → Equipped sha3 pub c.tables.groups c.tables.conversations k) : Founded sha3 pub (c.withMemory k) :=
  ⟨h.members, h.owner, hk, h.equipped.2⟩

theorem Founded.forget (h : Founded sha3 pub c) : Founded sha3 pub (c.withMemory noKeystore) := h.withMemory (fun hkey => absurd rfl hkey)

theorem founded_newClient (sha3 : Bytes → ByteArr 32) (pub : Bytes) : Founded sha3 pub (newClient pub) := by
  have hempty : Equipped sha3 pub .empty .empty ⟨⟨some pub, ∅⟩, []⟩ := ⟨rfl, (fun _ hg => nomatch hg), (fun _ hconv => nomatch hconv)⟩
  refine ⟨rfl, (fun _ hg => nomatch hg), fun _ => hempty, ?_⟩
  rintro k ⟨⟩
  exact hempty

theorem Founded.save (h : Founded sha3 pub c) (hkey : c.tables.keys.keyA ≠ none) {env : CallEnv} {c' : GroupClient}
    (hsave : Invitations.save env c = .ok c') : Founded sha3 pub c' := h.exec (show Prepared sha3 pub c .save from hkey) hsave

theorem Founded.saved (h : Founded sha3 pub c) (hkey : c.tables.keys.keyA ≠ none) (env : CallEnv) : Founded sha3 pub (saved env c) := by
  unfold Invitations.saved
  cases hsave : Invitations.save env c with
  | error e => exact h
  | ok c' => exact h.save hkey hsave

theorem Founded.locked (h : Founded sha3 pub c) (hkey : c.tables.keys.keyA ≠ none) (env : CallEnv) : Founded sha3 pub (locked env c) := by
  unfold Invitations.locked
  cases hsave : Invitations.save env c with
  | error e => exact h
  | ok c' => exact (h.save hkey hsave).forget

theorem Founded.next (h : Founded sha3 pub c) (e : Event) : Founded sha3 pub (next sha3 c e) := by
  cases e with
  | call env e => exact h.performs (preparedAll_plan h e)
  | dies env e n => exact (h.performs ((preparedAll_plan h e).take n)).forget
  | contacts contacts => exact ⟨h.members, h.owner, h.equipped⟩
  | dmConversation convId =>
    have hdm : ∀ {k}, (⟨convId, ascii "dm"⟩ : ConversationType).type ≠ ascii "dm" → GroupKeystore.HasSenderKey sha3 pub k convId :=
      fun hne => absurd rfl hne
    exact ⟨h.members, h.owner, fun hkey => (h.equipped.1 hkey).upsertConversation hdm, fun k hk => (h.equipped.2 k hk).upsertConversation hdm⟩
  | insertKeyB kb =>
    rw [Invitations.next]
    split
    · exact ⟨h.members, h.owner, fun hkey => (h.equipped.1 hkey).insertKeyB kb, h.equipped.2⟩
    · exact h
  | save env =>
    rw [Invitations.next]
    split
    · rename_i hunlocked
      exact h.saved (Option.ne_none_iff_isSome.mpr hunlocked) env
    · exact h
  | lock env =>
    rw [Invitations.next]
    split
    · rename_i hunlocked
      exact h.locked (Option.ne_none_iff_isSome.mpr hunlocked) env
    · exact h
  | restart => exact h.forget
  | unlock =>
    rw [Invitations.next]
    split
    · exact h
    · cases hfile : c.file with
      | none => exact h.forget
      | some k => exact h.withMemory (fun _ => h.equipped.2 k hfile)

theorem Founded.run (h : Founded sha3 pub c) (es : List Event) : Founded sha3 pub (es.foldl (Invitations.next sha3) c) := by
  induction es generalizing c with
  | nil => exact h
  | cons e es ih => exact ih (h.next e)

end Steps

/-! ## What comes of it -/

/-- No list of members has an entry, and what the store has rows for has its keys in the file, if that can be read. While the keystore
is unlocked, a message to a group or a channel is encrypted for nobody, and whoever is known and invited to a group is told that it
has no members. -/
structure Alone (sha3 : Bytes → ByteArr 32) (pub : Bytes) (c : GroupClient) : Prop where
  members : ∀ groupId, c.tables.listGroupMembers groupId = []
  kept : ∀ k, c.file = some k → Equipped sha3 pub c.tables.groups c.tables.conversations k
  sends : unlocked c = true → ∀ conv ∈ c.tables.conversations.rows, conv.type ≠ ascii "dm" →
    ∃ sk, enqueueForConv sha3 c.tables conv.id = .ok (some ⟨sk, []⟩)
  invites : unlocked c = true → ∀ g ∈ c.tables.groups.rows, ∀ contactId contact, c.getContact contactId = some contact →
    ∀ frameId nowMs, ∃ kb ∈ c.keyBs, kb.id = g.id ∧ inviteToGroup sha3 c frameId nowMs g.id contactId =
      .ok ⟨dmConvId sha3 (hexId sha3 pub) contactId, cborSer (inviteMap frameId nowMs g contact kb []), frameId⟩

theorem Founded.sends {sha3 : Bytes → ByteArr 32} {pub : Bytes} {c : GroupClient} (h : Founded sha3 pub c) (hunlocked : unlocked c = true)
    {conv : ConversationType} (hconv : conv ∈ c.tables.conversations.rows) (htype : conv.type ≠ ascii "dm") :
    ∃ sk, enqueueForConv sha3 c.tables conv.id = .ok (some ⟨sk, []⟩) := by
  have hkeys := h.equipped.1 (Option.ne_none_iff_isSome.mpr hunlocked)
  have hkeyA : c.tables.keys.keyA = some pub := hkeys.keyA
  obtain ⟨sk, hsk⟩ := hkeys.senderKey conv hconv htype
  have hfind : c.tables.keys.senderKey conv.id (hexId sha3 pub) = some sk := hsk
  refine ⟨sk, ?_⟩
  unfold enqueueForConv
  rw [Table.find_of_mem hconv]
  dsimp only
  rw [if_neg htype, hkeyA]
  dsimp only
  rw [hfind, h.listGroupMembers]
  rfl

theorem Founded.invites {sha3 : Bytes → ByteArr 32} {pub : Bytes} {c : GroupClient} (h : Founded sha3 pub c) (hunlocked : unlocked c = true)
    {g : Group} (hg : g ∈ c.tables.groups.rows) {contactId : Bytes} {contact : GroupContact} (hcontact : c.getContact contactId = some contact)
    (frameId : Bytes) (nowMs : Int64) : ∃ kb ∈ c.keyBs, kb.id = g.id ∧ inviteToGroup sha3 c frameId nowMs g.id contactId =
      .ok ⟨dmConvId sha3 (hexId sha3 pub) contactId, cborSer (inviteMap frameId nowMs g contact kb []), frameId⟩ := by
  have hkeys := h.equipped.1 (Option.ne_none_iff_isSome.mpr hunlocked)
  have hkeyA : c.tables.keys.keyA = some pub := hkeys.keyA
  obtain ⟨kb0, hkb0, hid0⟩ := hkeys.keyB g hg
  cases hfind : c.keyBs.find? (fun kb => decide (kb.id = g.id)) with
  | none => exact absurd (decide_eq_true hid0) (List.find?_eq_none.mp hfind kb0 hkb0)
  | some kb =>
    have hid := List.find?_some hfind
    refine ⟨kb, List.mem_of_find?_eq_some hfind, of_decide_eq_true hid, ?_⟩
    unfold inviteToGroup
    rw [Table.find_of_mem hg]
    dsimp only
    rw [if_neg (fun hrole => hrole.1 (h.owner g hg)), hcontact]
    dsimp only
    rw [hkeyA]
    dsimp only
    rw [hfind, h.listGroupMembers]
    rfl

/-- In every run, whatever is written, cut off or lost with the process. -/
theorem groups_stay_alone (sha3 : Bytes → ByteArr 32) (pub : Bytes) (es : List Event) :
    Alone sha3 pub (es.foldl (next sha3) (newClient pub)) := by
  have h := (founded_newClient sha3 pub).run es
  refine ⟨h.listGroupMembers, h.equipped.2, ?_, ?_⟩
  · intro hunlocked conv hconv htype
    exact h.sends hunlocked hconv htype
  · intro hunlocked g hg contactId contact hcontact frameId nowMs
    exact h.invites hunlocked hg hcontact frameId nowMs

def aCall (nonce : Bytes) : CallEnv where
  nowS := 0
  nonce := fit 16 nonce
  symKey := fit 32 nonce
  kem := ⟨fit 1184 [], fit 2400 []⟩
  sig := ⟨fit 1952 [], fit 4032 []⟩

/-- The second process dies between the keystore and the store. -/
example : ([.call (aCall [1]) (.createGroup (ascii "a") (ascii "group")), .dies (aCall [2]) (.createGroup (ascii "b") (ascii "server")) 3,
    .unlock].foldl (next (fit 32)) (newClient [7])).tables.groups.rows.map Group.name = [ascii "a"] := by
  decide +kernel

end ScatterWeb.Client.Invitations
