import ScatterWeb.Client.Cert
import ScatterWeb.Lib.Table
import ScatterWeb.Lib.Transition

/-! # The Key C of the daemons

The Client draws a Key C for the Inbox and one for the Outbox, hands each to its daemon over IPC and keeps a row in `key_c_issued`.
`provision_devices` inserts the row only if the call returned. `check_renew_key_c` goes on after a call that failed, so
the new row replaces the one that the daemon still has. -/
namespace ScatterWeb.Client
open Crypto Lib Lib.Cbor Mailbox
set_option autoImplicit false

/-! ## Tables and calls -/

inductive DeviceType
  | inbox
  | outbox
  deriving DecidableEq

def DeviceType.text : DeviceType → Bytes
  | .inbox => ascii "inbox"
  | .outbox => ascii "outbox"

structure KeyCIssued where
  deviceId : Bytes
  deviceType : DeviceType
  deviceLabel : Bytes
  keyCPubkey : ByteArr 1952
  keyCPrivkey : ByteArr 4032
  authCert : Bytes
  dhtDelegCert : Bytes := []
  issuedAt : Int64
  expiresAt : Int64
  revoked : Bool := false

/-- The parameters of `inbox.update_dht_delegation`, or those of `outbox.update_auth_cert` with no delegation certificate. -/
structure Credentials where
  keyCPubkey : ByteArr 1952
  keyCPrivkey : ByteArr 4032
  authCert : Bytes
  delegationCert : Bytes

structure DeviceState where
  keyA : Option DsaKeyPair
  keyC : Table KeyCIssued.deviceId := .empty
  /-- What each daemon has accepted last. -/
  accepted : DeviceType → Option Credentials

/-- How a call ends: it returns, or it throws before or after the daemon has accepted the credentials. -/
inductive CallOutcome
  | returned
  | refused
  | lost
  deriving DecidableEq

/-- A key pair and certificates that are drawn, and how the call with them ends. -/
structure Attempt where
  keySeed : ByteArr 32
  certSeed : ByteArr 32
  delegSeed : ByteArr 32
  outcome : CallOutcome

section Calls
variable (s : DeviceState)

def DeviceState.call (type : DeviceType) (c : Credentials) : CallOutcome → DeviceState
  | .refused => s
  | _ => { s with accepted := Function.update s.accepted type (some c) }

def DeviceState.insertKeyC (k : KeyCIssued) : DeviceState := { s with keyC := s.keyC.upsert k }

def DeviceState.revokeKeyC (deviceId : Bytes) : DeviceState :=
  { s with keyC := s.keyC.update (cStr deviceId) (fun k => { k with revoked := true }) (fun _ => rfl) }

/-- Ordered by `issued_at`. -/
def DeviceState.listKeyC : List KeyCIssued := s.keyC.rows.mergeSort (fun k k' => k.issuedAt ≤ k'.issuedAt)

def KeyCIssued.credentials (k : KeyCIssued) : Credentials where
  keyCPubkey := k.keyCPubkey
  keyCPrivkey := k.keyCPrivkey
  authCert := k.authCert
  delegationCert := match k.deviceType with
    | .inbox => k.dhtDelegCert
    | .outbox => []

variable {Sig : Type} (D : Dsa Sig) (sha3 : Bytes → ByteArr 32)

/-- A new key pair with its certificates, in place of the ones in `k`. -/
def KeyCIssued.rotate (ka : DsaKeyPair) (nowS : Int64) (a : Attempt) (k : KeyCIssued) : KeyCIssued :=
  let kp := D.keygen a.keySeed
  { k with
    deviceId := bytesToHex (sha3 kp.pub.toList).toList
    keyCPubkey := kp.pub
    keyCPrivkey := kp.priv
    authCert := issueAuthCert D sha3 ka.priv ka.pub kp.pub k.deviceType.text k.deviceLabel nowS a.certSeed
    dhtDelegCert := match k.deviceType with
      | .inbox => issueDelegationCert D ka.priv ka.pub kp.pub nowS a.delegSeed
      | .outbox => k.dhtDelegCert
    issuedAt := nowS
    expiresAt := nowS + certLifetime }

/-- A row that `provision_devices` starts from. -/
def KeyCIssued.blank (type : DeviceType) : KeyCIssued := ⟨[], type, type.text, fit 1952 [], fit 4032 [], [], [], 0, 0, false⟩

def hasKeyC (type : DeviceType) : Bool := s.listKeyC.any (fun k => !k.revoked && k.deviceType = type)

structure ProvisionEnv where
  nowS : Int64
  connected : DeviceType → Bool
  attempt : DeviceType → Attempt

/-- The row is inserted only if the call returned. -/
def provisionDevice (ka : DsaKeyPair) (env : ProvisionEnv) (type : DeviceType) : DeviceState :=
  let k := (KeyCIssued.blank type).rotate D sha3 ka env.nowS (env.attempt type)
  let s := s.call type k.credentials (env.attempt type).outcome
  match (env.attempt type).outcome with
  | .returned => s.insertKeyC k
  | _ => s

def provisionDevices (env : ProvisionEnv) : DeviceState :=
  match s.keyA with
  | none => s
  | some ka =>
    let hasInbox := hasKeyC s .inbox
    let hasOutbox := hasKeyC s .outbox
    let s := if !hasInbox && env.connected .inbox then provisionDevice s D sha3 ka env .inbox else s
    if !hasOutbox && env.connected .outbox then provisionDevice s D sha3 ka env .outbox else s

/-- The rows of the snapshot have different ids, so an attempt is chosen for each of them. -/
structure RenewEnv where
  nowS : Int64
  thresholdDays : Int32
  attempt : (deviceId : Bytes) → Attempt

def RenewEnv.Due (env : RenewEnv) (k : KeyCIssued) : Prop :=
  k.revoked = false ∧ k.expiresAt ≤ env.nowS + (env.thresholdDays * 86400).toInt64

instance (env : RenewEnv) (k : KeyCIssued) : Decidable (env.Due k) :=
  inferInstanceAs (Decidable (k.revoked = false ∧ k.expiresAt ≤ env.nowS + (env.thresholdDays * 86400).toInt64))

/-- However the call ends, the old row is revoked and the new one inserted. -/
def renewKeyC (ka : DsaKeyPair) (env : RenewEnv) (kc : KeyCIssued) : DeviceState :=
  if env.Due kc then
    let updated := kc.rotate D sha3 ka env.nowS (env.attempt kc.deviceId)
    ((s.call kc.deviceType updated.credentials (env.attempt kc.deviceId).outcome).revokeKeyC kc.deviceId).insertKeyC updated
  else s

def checkRenewKeyC (env : RenewEnv) : DeviceState :=
  match s.keyA with
  | none => s
  | some ka => s.listKeyC.foldl (fun s kc => renewKeyC s D sha3 ka env kc) s

def revokeDevice (deviceId : Bytes) : DeviceState := s.revokeKeyC deviceId

end Calls

/-! ## Runs -/

inductive DeviceEvent
  | provision (env : ProvisionEnv)
  | renew (env : RenewEnv)
  | revoke (deviceId : Bytes)

def nextDevices {Sig : Type} (D : Dsa Sig) (sha3 : Bytes → ByteArr 32) (s : DeviceState) : DeviceEvent → DeviceState
  | .provision env => provisionDevices s D sha3 env
  | .renew env => checkRenewKeyC s D sha3 env
  | .revoke deviceId => revokeDevice s deviceId

/-- At most one Key C of each type is in use, and it is the one that the daemon has accepted last. -/
structure Agreed (s : DeviceState) : Prop where
  unique : ∀ k ∈ s.keyC.rows, ∀ k' ∈ s.keyC.rows, k.revoked = false → k'.revoked = false → k.deviceType = k'.deviceType → k = k'
  current : ∀ k ∈ s.keyC.rows, k.revoked = false → ∃ c, s.accepted k.deviceType = some c ∧ c.keyCPubkey = k.keyCPubkey

/-- Every renewal that is due reaches its daemon. -/
def Reaches (s : DeviceState) : DeviceEvent → Prop
  | .renew env => ∀ k ∈ s.keyC.rows, env.Due k → (env.attempt k.deviceId).outcome ≠ .refused
  | _ => True

/-- The ids are hexadecimal, so `revoke_key_c` finds the rows by them. -/
structure Settled (s : DeviceState) : Prop extends Agreed s where
  ids : ∀ k ∈ s.keyC.rows, 0 ∉ k.deviceId

section Runs
variable {Sig : Type} {D : Dsa Sig} {sha3 : Bytes → ByteArr 32} {s s' : DeviceState} {ka : DsaKeyPair}

/-! ### Rows in use -/

theorem mem_revokeKeyC {deviceId : Bytes} {k : KeyCIssued} (h : k ∈ (s.revokeKeyC deviceId).keyC.rows) :
    (k ∈ s.keyC.rows ∧ k.deviceId ≠ cStr deviceId) ∨ ∃ k₀ ∈ s.keyC.rows, k = { k₀ with revoked := true } := by
  obtain ⟨k₀, hk₀, rfl⟩ := List.mem_map.mp h
  by_cases hid : k₀.deviceId = cStr deviceId
  · rw [if_pos hid]
    exact Or.inr ⟨k₀, hk₀, rfl⟩
  · rw [if_neg hid]
    exact Or.inl ⟨hk₀, hid⟩

theorem inUse_revokeKeyC {deviceId : Bytes} {k : KeyCIssued} (h : k ∈ (s.revokeKeyC deviceId).keyC.rows) (huse : k.revoked = false) :
    k ∈ s.keyC.rows ∧ k.deviceId ≠ cStr deviceId := by
  rcases mem_revokeKeyC h with hold | ⟨k₀, _, rfl⟩
  · exact hold
  · cases huse

theorem id_revokeKeyC {deviceId : Bytes} {k : KeyCIssued} (h : k ∈ (s.revokeKeyC deviceId).keyC.rows) : ∃ k₀ ∈ s.keyC.rows, k₀.deviceId = k.deviceId := by
  rcases mem_revokeKeyC h with ⟨hold, _⟩ | ⟨k₀, hk₀, rfl⟩
  · exact ⟨k, hold, rfl⟩
  · exact ⟨k₀, hk₀, rfl⟩

theorem mem_insertKeyC {k new : KeyCIssued} (h : k ∈ (s.insertKeyC new).keyC.rows) : k ∈ s.keyC.rows ∨ k = new := by
  rcases Table.mem_upsert.mp h with ⟨hold, _⟩ | rfl
  · exact Or.inl hold
  · exact Or.inr rfl

@[simp] theorem call_keyC (type : DeviceType) (c : Credentials) (outcome : CallOutcome) : (s.call type c outcome).keyC = s.keyC := by
  cases outcome <;> rfl

theorem call_accepted (type : DeviceType) (c : Credentials) {outcome : CallOutcome} (h : outcome ≠ .refused) :
    (s.call type c outcome).accepted = Function.update s.accepted type (some c) := by
  cases outcome with
  | returned => rfl
  | refused => exact absurd rfl h
  | lost => rfl

theorem rotate_ids (nowS : Int64) (a : Attempt) (k : KeyCIssued) : 0 ∉ (k.rotate D sha3 ka nowS a).deviceId := zero_notMem_bytesToHex _

/-! ### Revoking -/

theorem Settled.revoke (h : Settled s) (deviceId : Bytes) : Settled (s.revokeKeyC deviceId) where
  unique := by
    intro k hk k' hk' huse huse' htype
    exact h.unique k (inUse_revokeKeyC hk huse).1 k' (inUse_revokeKeyC hk' huse').1 huse huse' htype
  current := by
    intro k hk huse
    exact h.current k (inUse_revokeKeyC hk huse).1 huse
  ids := by
    intro k hk
    obtain ⟨k₀, hk₀, hid⟩ := id_revokeKeyC hk
    rw [← hid]
    exact h.ids k₀ hk₀

/-! ### A daemon that has accepted a new key -/

/-- The new key is the only one of its type that may be in use, and the daemon has it. -/
theorem Settled.install (h : Settled s) (new : KeyCIssued)
    (hrows : ∀ k ∈ s'.keyC.rows, k.revoked = false → k = new ∨ (k ∈ s.keyC.rows ∧ k.deviceType ≠ new.deviceType))
    (hids : ∀ k ∈ s'.keyC.rows, 0 ∉ k.deviceId)
    (haccepted : s'.accepted = Function.update s.accepted new.deviceType (some new.credentials)) : Settled s' where
  unique := by
    intro k hk k' hk' huse huse' htype
    rcases hrows k hk huse with rfl | ⟨hold, hne⟩
    · rcases hrows k' hk' huse' with heq | ⟨_, hne'⟩
      · exact heq.symm
      · exact absurd htype.symm hne'
    · rcases hrows k' hk' huse' with rfl | ⟨hold', _⟩
      · exact absurd htype hne
      · exact h.unique k hold k' hold' huse huse' htype
  current := by
    intro k hk huse
    rw [haccepted]
    rcases hrows k hk huse with rfl | ⟨hold, hne⟩
    · exact ⟨k.credentials, Function.update_self _ _ _, rfl⟩
    · rw [Function.update_of_ne hne]
      exact h.current k hold huse
  ids := hids

/-- No key of the type is in use. -/
def DeviceState.Lacks (s : DeviceState) (type : DeviceType) : Prop := ∀ k ∈ s.keyC.rows, k.revoked = false → k.deviceType ≠ type

theorem lacks_of_hasKeyC {type : DeviceType} (h : hasKeyC s type = false) : s.Lacks type := by
  intro k hk huse htype
  have hnone := List.any_eq_false.mp h k (List.mem_mergeSort.mpr hk)
  simp [huse, htype] at hnone

theorem provisionDevice_settled (h : Settled s) (env : ProvisionEnv) {type : DeviceType} (hlacks : s.Lacks type) :
    Settled (provisionDevice s D sha3 ka env type) := by
  have hkeep : ∀ k ∈ s.keyC.rows, k.revoked = false → k ∈ s.keyC.rows ∧ k.deviceType ≠ type := fun k hk huse => ⟨hk, hlacks k hk huse⟩
  unfold provisionDevice
  cases (env.attempt type).outcome with
  | returned =>
    refine h.install ((KeyCIssued.blank type).rotate D sha3 ka env.nowS (env.attempt type)) ?_ ?_ rfl
    · intro k hk huse
      rcases mem_insertKeyC hk with hold | rfl
      · exact Or.inr (hkeep k hold huse)
      · exact Or.inl rfl
    · intro k hk
      rcases mem_insertKeyC hk with hold | rfl
      · exact h.ids k hold
      · exact rotate_ids _ _ _
  | refused => exact h
  | lost =>
    refine h.install ((KeyCIssued.blank type).rotate D sha3 ka env.nowS (env.attempt type)) ?_ h.ids rfl
    intro k hk huse
    exact Or.inr (hkeep k hk huse)

theorem provisionDevice_lacks (env : ProvisionEnv) {type other : DeviceType} (hne : type ≠ other) (hlacks : s.Lacks other) :
    (provisionDevice s D sha3 ka env type).Lacks other := by
  unfold provisionDevice
  cases (env.attempt type).outcome with
  | returned =>
    intro k hk huse
    rcases mem_insertKeyC hk with hold | rfl
    · exact hlacks k hold huse
    · exact hne
  | refused => exact hlacks
  | lost => exact hlacks

theorem Settled.provision (h : Settled s) (env : ProvisionEnv) : Settled (provisionDevices s D sha3 env) := by
  unfold provisionDevices
  cases s.keyA with
  | none => exact h
  | some ka =>
    dsimp only
    generalize hs₁ : (if (!hasKeyC s .inbox && env.connected .inbox) = true then provisionDevice s D sha3 ka env .inbox else s) = s₁
    have h₁ : Settled s₁ ∧ (s.Lacks .outbox → s₁.Lacks .outbox) := by
      rw [← hs₁]
      split
      · rename_i hnew
        rw [Bool.and_eq_true, Bool.not_eq_true'] at hnew
        exact ⟨provisionDevice_settled h env (lacks_of_hasKeyC hnew.1), provisionDevice_lacks env (by decide)⟩
      · exact ⟨h, id⟩
    split
    · rename_i hnew
      rw [Bool.and_eq_true, Bool.not_eq_true'] at hnew
      exact provisionDevice_settled h₁.1 env (h₁.2 (lacks_of_hasKeyC hnew.1))
    · exact h₁.1

/-! ### Renewal -/

/-- What is left of the snapshot: rows of different types, and no other row of their type is in use. -/
structure Snapshot (env : RenewEnv) (s : DeviceState) (rest : List KeyCIssued) : Prop where
  types : rest.Pairwise (fun k k' => k.revoked = false → k'.revoked = false → k.deviceType ≠ k'.deviceType)
  only : ∀ kc ∈ rest, kc.revoked = false → ∀ k ∈ s.keyC.rows, k.revoked = false → k.deviceType = kc.deviceType → k = kc
  ids : ∀ kc ∈ rest, 0 ∉ kc.deviceId
  reached : ∀ kc ∈ rest, env.Due kc → (env.attempt kc.deviceId).outcome ≠ .refused

theorem mem_listKeyC {k : KeyCIssued} : k ∈ s.listKeyC ↔ k ∈ s.keyC.rows := List.mem_mergeSort

theorem snapshot_listKeyC (h : Settled s) {env : RenewEnv} (hreach : Reaches s (.renew env)) : Snapshot env s s.listKeyC where
  types := by
    have hnodup : s.listKeyC.Nodup := (List.mergeSort_perm _ _).nodup_iff.mpr (List.Nodup.of_map _ s.keyC.nodup)
    refine List.Pairwise.imp_of_mem ?_ hnodup
    intro k k' hk hk' hne huse huse' htype
    exact hne (h.unique k (mem_listKeyC.mp hk) k' (mem_listKeyC.mp hk') huse huse' htype)
  only := by
    intro kc hkc huse k hk huse' htype
    exact h.unique k hk kc (mem_listKeyC.mp hkc) huse' huse htype
  ids := by
    intro kc hkc
    exact h.ids kc (mem_listKeyC.mp hkc)
  reached := by
    intro kc hkc hdue
    exact hreach kc (mem_listKeyC.mp hkc) hdue

/-- A renewed key replaces the one that was in use. -/
theorem mem_renewKeyC {env : RenewEnv} {kc k : KeyCIssued} (hdue : env.Due kc) (hk : k ∈ (renewKeyC s D sha3 ka env kc).keyC.rows) :
    (∃ k₀ ∈ s.keyC.rows, k₀.deviceId = k.deviceId ∧ (k.revoked = false → k₀ = k ∧ k.deviceId ≠ cStr kc.deviceId)) ∨
      k = kc.rotate D sha3 ka env.nowS (env.attempt kc.deviceId) := by
  unfold renewKeyC at hk
  rw [if_pos hdue] at hk
  rcases mem_insertKeyC hk with hold | hnew
  · rcases mem_revokeKeyC hold with ⟨hmem, hid⟩ | ⟨k₀, hk₀, rfl⟩
    · rw [call_keyC] at hmem
      exact Or.inl ⟨k, hmem, rfl, fun _ => ⟨rfl, hid⟩⟩
    · rw [call_keyC] at hk₀
      refine Or.inl ⟨k₀, hk₀, rfl, ?_⟩
      intro huse
      cases huse
  · exact Or.inr hnew

theorem inUse_renewKeyC {env : RenewEnv} {kc k : KeyCIssued} {rest : List KeyCIssued} (hsnap : Snapshot env s (kc :: rest)) (hdue : env.Due kc)
    (hk : k ∈ (renewKeyC s D sha3 ka env kc).keyC.rows) (huse : k.revoked = false) :
    k = kc.rotate D sha3 ka env.nowS (env.attempt kc.deviceId) ∨ (k ∈ s.keyC.rows ∧ k.deviceType ≠ kc.deviceType) := by
  rcases mem_renewKeyC hdue hk with ⟨k₀, hk₀, _, hsame⟩ | hnew
  · obtain ⟨rfl, hid⟩ := hsame huse
    refine Or.inr ⟨hk₀, ?_⟩
    intro htype
    have hkc : k₀ = kc := hsnap.only kc List.mem_cons_self hdue.1 k₀ hk₀ huse htype
    rw [hkc, cStr_of_nulFree (hsnap.ids kc List.mem_cons_self)] at hid
    exact hid rfl
  · exact Or.inl hnew

theorem renewKeyC_settled (h : Settled s) {env : RenewEnv} {kc : KeyCIssued} {rest : List KeyCIssued} (hsnap : Snapshot env s (kc :: rest)) :
    Settled (renewKeyC s D sha3 ka env kc) := by
  by_cases hdue : env.Due kc
  · refine h.install (kc.rotate D sha3 ka env.nowS (env.attempt kc.deviceId)) ?_ ?_ ?_
    · intro k hk huse
      exact inUse_renewKeyC hsnap hdue hk huse
    · intro k hk
      rcases mem_renewKeyC hdue hk with ⟨k₀, hk₀, hid, _⟩ | rfl
      · rw [← hid]
        exact h.ids k₀ hk₀
      · exact rotate_ids _ _ _
    · unfold renewKeyC
      rw [if_pos hdue]
      exact call_accepted _ _ (hsnap.reached kc List.mem_cons_self hdue)
  · rw [renewKeyC, if_neg hdue]
    exact h

theorem renewKeyC_snapshot {env : RenewEnv} {kc : KeyCIssued} {rest : List KeyCIssued} (hsnap : Snapshot env s (kc :: rest)) :
    Snapshot env (renewKeyC s D sha3 ka env kc) rest := by
  obtain ⟨hfirst, hrest⟩ := List.pairwise_cons.mp hsnap.types
  refine ⟨hrest, ?_, fun kc' hkc' => hsnap.ids kc' (List.mem_cons_of_mem kc hkc'), fun kc' hkc' => hsnap.reached kc' (List.mem_cons_of_mem kc hkc')⟩
  intro kc' hkc' huse' k hk huse htype
  have honly := hsnap.only kc' (List.mem_cons_of_mem kc hkc') huse'
  by_cases hdue : env.Due kc
  · rcases inUse_renewKeyC hsnap hdue hk huse with rfl | ⟨hold, _⟩
    · exact absurd htype (hfirst kc' hkc' hdue.1 huse')
    · exact honly k hold huse htype
  · rw [renewKeyC, if_neg hdue] at hk
    exact honly k hk huse htype

/-- The loop over the snapshot. -/
theorem renewKeyC_foldl {env : RenewEnv} {rest : List KeyCIssued} (h : Settled s) (hsnap : Snapshot env s rest) :
    Settled (rest.foldl (fun s kc => renewKeyC s D sha3 ka env kc) s) := by
  induction rest generalizing s with
  | nil => exact h
  | cons kc rest ih => exact ih (renewKeyC_settled h hsnap) (renewKeyC_snapshot hsnap)

theorem Settled.renew (h : Settled s) {env : RenewEnv} (hreach : Reaches s (.renew env)) : Settled (checkRenewKeyC s D sha3 env) := by
  unfold checkRenewKeyC
  cases s.keyA with
  | none => exact h
  | some ka => exact renewKeyC_foldl h (snapshot_listKeyC h hreach)

/-! ### All calls -/

theorem Settled.step (h : Settled s) {e : DeviceEvent} (hreach : Reaches s e) : Settled (nextDevices D sha3 s e) := by
  cases e with
  | provision env => exact h.provision env
  | renew env => exact h.renew hreach
  | revoke deviceId => exact h.revoke deviceId

/-- In every run in which the renewals reach their daemons, the keystore and the daemons agree. -/
theorem agreed_of_reaches (keyA : Option DsaKeyPair) (accepted : DeviceType → Option Credentials) {es : List DeviceEvent}
    (h : Along (nextDevices D sha3) Reaches ⟨keyA, .empty, accepted⟩ es) : Agreed (es.foldl (nextDevices D sha3) ⟨keyA, .empty, accepted⟩) := by
  have hsettled : Settled (es.foldl (nextDevices D sha3) ⟨keyA, .empty, accepted⟩) := by
    refine along_foldl Settled ?_ ?_ h
    · intro s e hs hreach
      exact hs.step hreach
    · exact ⟨⟨fun k hk => absurd hk List.not_mem_nil, fun k hk => absurd hk List.not_mem_nil⟩, fun k hk => absurd hk List.not_mem_nil⟩
  exact hsettled.toAgreed

end Runs

/-! ### One inbox, renewed once -/

def newKeystore : DeviceState := ⟨some (idealDsa.keygen (fit 32 [1])), .empty, fun _ => none⟩

def inboxAttempt (n : UInt8) (outcome : CallOutcome) : Attempt := ⟨fit 32 [n], fit 32 [], fit 32 [], outcome⟩

/-- Only the inbox is connected. -/
def firstProvision : ProvisionEnv := ⟨0, fun type => decide (type = .inbox), fun _ => inboxAttempt 2 .returned⟩

/-- On the day the certificate expires. -/
def lastDay (outcome : CallOutcome) : RenewEnv := ⟨certLifetime, 7, fun _ => inboxAttempt 3 outcome⟩

def firstKeyC : KeyCIssued := (KeyCIssued.blank .inbox).rotate idealDsa (fit 32) (idealDsa.keygen (fit 32 [1])) 0 (inboxAttempt 2 .returned)

def renewal (outcome : CallOutcome) : List DeviceEvent := [.provision firstProvision, .renew (lastDay outcome)]

theorem provisioned : provisionDevices newKeystore idealDsa (fit 32) firstProvision =
    ⟨newKeystore.keyA, Table.empty.upsert firstKeyC, Function.update newKeystore.accepted .inbox (some firstKeyC.credentials)⟩ := by
  have hnone : ∀ type, hasKeyC newKeystore type = false := by
    intro type
    simp [hasKeyC, DeviceState.listKeyC, newKeystore, Table.empty]
  unfold provisionDevices
  dsimp only [newKeystore]
  rw [show hasKeyC ⟨some (idealDsa.keygen (fit 32 [1])), .empty, fun _ => none⟩ .inbox = false from hnone .inbox,
    show hasKeyC ⟨some (idealDsa.keygen (fit 32 [1])), .empty, fun _ => none⟩ .outbox = false from hnone .outbox]
  rfl

/-- With one row the loop renews that row. -/
theorem checkRenewKeyC_single {Sig : Type} {D : Dsa Sig} {sha3 : Bytes → ByteArr 32} {s : DeviceState} {ka : DsaKeyPair} {k : KeyCIssued}
    (hkey : s.keyA = some ka) (hrows : s.keyC.rows = [k]) (env : RenewEnv) :
    checkRenewKeyC s D sha3 env = renewKeyC s D sha3 ka env k := by
  unfold checkRenewKeyC DeviceState.listKeyC
  rw [hkey, hrows]
  simp

theorem firstKeyC_due (outcome : CallOutcome) : (lastDay outcome).Due firstKeyC :=
  ⟨rfl, show 0 + certLifetime ≤ certLifetime + ((7 : Int32) * 86400).toInt64 by decide⟩

theorem reaches_renewal : Along (nextDevices idealDsa (fit 32)) Reaches newKeystore (renewal .returned) := by
  refine ⟨trivial, ?_, trivial⟩
  intro k _ _
  exact show CallOutcome.returned ≠ .refused by decide

theorem agreed_of_reaches_renewal : Agreed ((renewal .returned).foldl (nextDevices idealDsa (fit 32)) newKeystore) :=
  agreed_of_reaches newKeystore.keyA newKeystore.accepted reaches_renewal

/-- The inbox has not heard of the key that the keystore has for it. -/
theorem not_agreed_renewal : ¬Agreed ((renewal .refused).foldl (nextDevices idealDsa (fit 32)) newKeystore) := by
  intro h
  change Agreed (checkRenewKeyC (provisionDevices newKeystore idealDsa (fit 32) firstProvision) idealDsa (fit 32) (lastDay .refused)) at h
  rw [provisioned, checkRenewKeyC_single rfl rfl, renewKeyC, if_pos (firstKeyC_due .refused)] at h
  obtain ⟨c, hc, hpub⟩ := h.current _ (Table.mem_upsert.mpr (Or.inr rfl)) rfl
  have hfirst : firstKeyC.credentials = c := Option.some.inj hc
  rw [← hfirst] at hpub
  have hhead := congrArg List.Vector.head hpub
  exact absurd hhead (by decide)

end ScatterWeb.Client
