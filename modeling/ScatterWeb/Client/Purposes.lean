import ScatterWeb.Client.Cert
import ScatterWeb.Client.ContactCard

/-! # What Key A signs

Six kinds of byte strings, put together from their fields without a tag that would say which kind it is. Within a kind the
bytes give the fields back. Between kinds only lengths and the few fixed bytes keep them apart: a payload of a guard record has
no fixed byte at all, so every string that is long enough is one. -/
namespace ScatterWeb.Client
open Crypto Lib Lib.Cbor
set_option autoImplicit false

inductive Purpose
  | guardV1
  | guardV2
  | prekeys
  | delegation
  | revocation
  | card
  deriving DecidableEq

/-- The fields that the builders put into the bytes they sign. -/
inductive Payload
  | guardV1 (timeslot timestamp : UInt64) (iv : ByteArr 12) (ct : Bytes) (tag : ByteArr 16)
  | guardV2 (timeslot timestamp : UInt64) (keyB : ByteArr 1184) (iv : ByteArr 12) (ct : Bytes) (tag : ByteArr 16)
  | prekeys (timestamp : UInt64) (pks : List (ByteArr 1184))
  | delegation (keyC keyA : ByteArr 1952) (issuedAt expiresAt : UInt64)
  | revocation (keyC : ByteArr 1952) (revokedAt : Int64)
  | card (keyA : ByteArr 1952) (crKeyBKem : ByteArr 1184) (displayName : Bytes) (createdAt : Int64)

namespace Payload

def purpose : Payload → Purpose
  | guardV1 .. => .guardV1
  | guardV2 .. => .guardV2
  | prekeys .. => .prekeys
  | delegation .. => .delegation
  | revocation .. => .revocation
  | card .. => .card

def bytes : Payload → Bytes
  | guardV1 timeslot timestamp iv ct tag => Dht.signPayloadV1 timeslot timestamp iv ct tag
  | guardV2 timeslot timestamp keyB iv ct tag => Dht.signPayloadV2 timeslot timestamp keyB iv ct tag
  | prekeys timestamp pks => Dht.prekeySigned timestamp (Dht.prekeyArray pks)
  | delegation keyC keyA issuedAt expiresAt => Dht.delegationSignPayload keyC keyA issuedAt expiresAt
  | revocation keyC revokedAt => revocationToSign keyC revokedAt
  | card keyA crKeyBKem displayName createdAt => cardToSign keyA.toList crKeyBKem displayName createdAt

/-- The payload of a guard record as `build_guard_record_v1` signs it. -/
def ofGuardRecord {Sig : Type} (L : Dht.Library Sig) (env : Dht.BuildEnv) (keyB : ByteArr 1184) (timeslot : UInt64) (p : Dht.GuardPlaintext) :
    Payload :=
  let enc := L.aes.encrypt (Dht.guardAeadKey L keyB timeslot) env.nonce (Dht.encodePlaintext p) []
  guardV1 timeslot env.now env.nonce enc.1 enc.2

/-! ## Lengths -/

theorem length_guardV1 (timeslot timestamp : UInt64) (iv : ByteArr 12) (ct : Bytes) (tag : ByteArr 16) :
    (guardV1 timeslot timestamp iv ct tag).bytes.length = 44 + ct.length := by
  simp only [bytes, Dht.signPayloadV1, List.length_append, length_be, List.Vector.toList_length]
  omega

theorem length_guardV2 (timeslot timestamp : UInt64) (keyB : ByteArr 1184) (iv : ByteArr 12) (ct : Bytes) (tag : ByteArr 16) :
    (guardV2 timeslot timestamp keyB iv ct tag).bytes.length = 1228 + ct.length := by
  simp only [bytes, Dht.signPayloadV2, List.length_append, length_be, List.Vector.toList_length]
  omega

theorem length_delegation (keyC keyA : ByteArr 1952) (issuedAt expiresAt : UInt64) :
    (delegation keyC keyA issuedAt expiresAt).bytes.length = 3925 := by
  simp only [bytes, Dht.delegationSignPayload, List.length_append, length_be, List.Vector.toList_length, show (ascii "inbox").length = 5 from rfl]

theorem length_revocation (keyC : ByteArr 1952) (revokedAt : Int64) : (revocation keyC revokedAt).bytes.length = 1960 := by
  simp only [bytes, revocationToSign, List.length_append, length_be, List.Vector.toList_length]

theorem length_card (keyA : ByteArr 1952) (crKeyBKem : ByteArr 1184) (displayName : Bytes) (createdAt : Int64) :
    (card keyA crKeyBKem displayName createdAt).bytes.length = 3145 + displayName.length := by
  simp only [bytes, cardToSign, List.length_cons, List.length_append, length_be, List.Vector.toList_length]
  omega

/-- A prekey takes three bytes more than its size. -/
theorem length_encodeAll_prekeys (pks : List (ByteArr 1184)) :
    (encodeAll (pks.map (fun pk => .bytes pk.toList))).length = 1187 * pks.length := by
  induction pks with
  | nil => rfl
  | cons pk pks ih =>
    have hhead : (encodeHead 2 (Head.ofNat 1184)).length = 3 := rfl
    simp only [List.map_cons, encodeAll, encode, List.length_append, List.Vector.toList_length, hhead, ih, List.length_cons]
    omega

theorem length_prekeys (timestamp : UInt64) (pks : List (ByteArr 1184)) :
    (prekeys timestamp pks).bytes.length = 8 + (encodeHead 4 (Head.ofNat pks.length)).length + 1187 * pks.length := by
  simp only [bytes, Dht.prekeySigned, Dht.prekeyArray, encode, List.length_append, length_be, List.length_map, length_encodeAll_prekeys]
  omega

/-- Up to three prekeys the head is one byte, and four are longer than what has a fixed length. -/
theorem length_prekeys_ne (timestamp : UInt64) (pks : List (ByteArr 1184)) :
    (prekeys timestamp pks).bytes.length ≠ 1960 ∧ (prekeys timestamp pks).bytes.length ≠ 3925 := by
  rw [length_prekeys]
  by_cases hmany : 4 ≤ pks.length
  · omega
  · have hhead : (encodeHead 4 (Head.ofNat pks.length)).length = 1 := by
      have hcases : pks.length = 0 ∨ pks.length = 1 ∨ pks.length = 2 ∨ pks.length = 3 := by omega
      rcases hcases with h | h | h | h <;> rw [h] <;> rfl
    omega

/-! ## Within a kind -/

theorem be_toNat_inj {a b : UInt64} (h : be 8 a.toNat = be 8 b.toNat) : a = b := by
  apply UInt64.toNat_inj.mp
  rw [← ofBe_be_of_lt (show a.toNat < 256 ^ 8 from a.toNat_lt), h, ofBe_be_of_lt (show b.toNat < 256 ^ 8 from b.toNat_lt)]

theorem be_toUInt64_inj {a b : Int64} (h : be 8 a.toUInt64.toNat = be 8 b.toUInt64.toNat) : a = b := by
  rw [← a.toInt64_toUInt64, be_toNat_inj h, b.toInt64_toUInt64]

theorem toList_inj {n : ℕ} {v w : ByteArr n} (h : v.toList = w.toList) : v = w := List.Vector.toList_injective h

theorem prekeyArray_inj {pks pks' : List (ByteArr 1184)} (h : encode (Dht.prekeyArray pks) = encode (Dht.prekeyArray pks')) : pks = pks' := by
  have hload := congrArg load h
  rw [load_loads.load_encode, load_loads.load_encode] at hload
  injection Option.some.inj hload with hitems
  refine List.map_injective_iff.mpr ?_ hitems
  intro pk pk' hpk
  injection hpk with hpk
  exact toList_inj hpk

/-- Every field but one has a fixed length, so the bytes are cut up in one way only. -/
theorem eq_of_bytes {p q : Payload} (hpurpose : p.purpose = q.purpose) (h : p.bytes = q.bytes) : p = q := by
  cases p with
  | guardV1 timeslot timestamp iv ct tag =>
    cases q with
    | guardV1 timeslot' timestamp' iv' ct' tag' =>
      simp only [bytes, Dht.signPayloadV1] at h
      obtain ⟨h, htag⟩ := List.append_inj' h (by simp)
      simp only [List.append_assoc] at h
      obtain ⟨htimeslot, h⟩ := List.append_inj h (by simp)
      obtain ⟨htimestamp, h⟩ := List.append_inj h (by simp)
      obtain ⟨hiv, hct⟩ := List.append_inj h (by simp)
      rw [be_toNat_inj htimeslot, be_toNat_inj htimestamp, toList_inj hiv, hct, toList_inj htag]
    | _ => cases hpurpose
  | guardV2 timeslot timestamp keyB iv ct tag =>
    cases q with
    | guardV2 timeslot' timestamp' keyB' iv' ct' tag' =>
      simp only [bytes, Dht.signPayloadV2] at h
      obtain ⟨h, htag⟩ := List.append_inj' h (by simp)
      simp only [List.append_assoc] at h
      obtain ⟨htimeslot, h⟩ := List.append_inj h (by simp)
      obtain ⟨htimestamp, h⟩ := List.append_inj h (by simp)
      obtain ⟨hkeyB, h⟩ := List.append_inj h (by simp)
      obtain ⟨hiv, hct⟩ := List.append_inj h (by simp)
      rw [be_toNat_inj htimeslot, be_toNat_inj htimestamp, toList_inj hkeyB, toList_inj hiv, hct, toList_inj htag]
    | _ => cases hpurpose
  | prekeys timestamp pks =>
    cases q with
    | prekeys timestamp' pks' =>
      simp only [bytes, Dht.prekeySigned] at h
      obtain ⟨htimestamp, harray⟩ := List.append_inj h (by simp)
      rw [be_toNat_inj htimestamp, prekeyArray_inj harray]
    | _ => cases hpurpose
  | delegation keyC keyA issuedAt expiresAt =>
    cases q with
    | delegation keyC' keyA' issuedAt' expiresAt' =>
      simp only [bytes, Dht.delegationSignPayload] at h
      obtain ⟨h, hexpiresAt⟩ := List.append_inj' h (by simp)
      obtain ⟨h, hissuedAt⟩ := List.append_inj' h (by simp)
      obtain ⟨h, _⟩ := List.append_inj' h rfl
      obtain ⟨hkeyC, hkeyA⟩ := List.append_inj h (by simp)
      rw [toList_inj hkeyC, toList_inj hkeyA, be_toNat_inj hissuedAt, be_toNat_inj hexpiresAt]
    | _ => cases hpurpose
  | revocation keyC revokedAt =>
    cases q with
    | revocation keyC' revokedAt' =>
      simp only [bytes, revocationToSign] at h
      obtain ⟨hkeyC, hrevokedAt⟩ := List.append_inj h (by simp)
      rw [toList_inj hkeyC, be_toUInt64_inj hrevokedAt]
    | _ => cases hpurpose
  | card keyA crKeyBKem displayName createdAt =>
    cases q with
    | card keyA' crKeyBKem' displayName' createdAt' =>
      simp only [bytes, cardToSign] at h
      obtain ⟨h, hcreatedAt⟩ := List.append_inj' (List.cons.inj h).2 (by simp)
      simp only [List.append_assoc] at h
      obtain ⟨hkeyA, h⟩ := List.append_inj h (by simp)
      obtain ⟨hkem, hname⟩ := List.append_inj h (by simp)
      rw [toList_inj hkeyA, toList_inj hkem, hname, be_toUInt64_inj hcreatedAt]
    | _ => cases hpurpose

/-! ## Between kinds -/

theorem exists_word_append {b : Bytes} (h : 8 ≤ b.length) : ∃ (n : UInt64) (rest : Bytes), b = be 8 n.toNat ++ rest ∧ 8 + rest.length = b.length := by
  obtain ⟨v, rest, rfl, hlen⟩ := exists_vector_append h
  have hv : v.toList.length = 8 := v.toList_length
  have hlt := ofBe_lt v.toList
  have hword := be_ofBe v.toList
  rw [hv] at hlt hword
  refine ⟨UInt64.ofNat (ofBe v.toList), rest, ?_, hlen⟩
  rw [UInt64.toNat_ofNat_of_lt' (show ofBe v.toList < UInt64.size from hlt), hword]

theorem exists_append_word {b : Bytes} (h : 8 ≤ b.length) : ∃ (rest : Bytes) (n : UInt64), b = rest ++ be 8 n.toNat ∧ rest.length + 8 = b.length := by
  obtain ⟨rest, v, rfl, hlen⟩ := exists_append_vector h
  obtain ⟨n, rest', hv, hv'⟩ := exists_word_append (le_of_eq v.toList_length.symm)
  have hnil : rest' = [] := List.length_eq_zero_iff.mp (by rw [v.toList_length] at hv'; omega)
  exact ⟨rest, n, by rw [hv, hnil, List.append_nil], hlen⟩

/-- Whatever is long enough is a payload of version 1. -/
theorem exists_guardV1_iff {b : Bytes} : (∃ p : Payload, p.purpose = .guardV1 ∧ p.bytes = b) ↔ 44 ≤ b.length := by
  constructor
  · rintro ⟨p, hp, rfl⟩
    cases p with
    | guardV1 timeslot timestamp iv ct tag =>
      rw [length_guardV1]
      omega
    | _ => cases hp
  · intro h
    obtain ⟨timeslot, b, rfl, h1⟩ := exists_word_append (b := b) (by omega)
    obtain ⟨timestamp, b, rfl, h2⟩ := exists_word_append (b := b) (by omega)
    obtain ⟨iv, b, rfl, h3⟩ := exists_vector_append (n := 12) (b := b) (by omega)
    obtain ⟨ct, tag, rfl, _⟩ := exists_append_vector (n := 16) (b := b) (by omega)
    refine ⟨.guardV1 timeslot timestamp iv ct tag, rfl, ?_⟩
    simp only [bytes, Dht.signPayloadV1, List.append_assoc]

theorem exists_guardV2_iff {b : Bytes} : (∃ p : Payload, p.purpose = .guardV2 ∧ p.bytes = b) ↔ 1228 ≤ b.length := by
  constructor
  · rintro ⟨p, hp, rfl⟩
    cases p with
    | guardV2 timeslot timestamp keyB iv ct tag =>
      rw [length_guardV2]
      omega
    | _ => cases hp
  · intro h
    obtain ⟨timeslot, b, rfl, h1⟩ := exists_word_append (b := b) (by omega)
    obtain ⟨timestamp, b, rfl, h2⟩ := exists_word_append (b := b) (by omega)
    obtain ⟨keyB, b, rfl, h3⟩ := exists_vector_append (n := 1184) (b := b) (by omega)
    obtain ⟨iv, b, rfl, h4⟩ := exists_vector_append (n := 12) (b := b) (by omega)
    obtain ⟨ct, tag, rfl, _⟩ := exists_append_vector (n := 16) (b := b) (by omega)
    refine ⟨.guardV2 timeslot timestamp keyB iv ct tag, rfl, ?_⟩
    simp only [bytes, Dht.signPayloadV2, List.append_assoc]

/-- A notice is any string of its length. -/
theorem exists_revocation {b : Bytes} (h : b.length = 1960) : ∃ keyC revokedAt, (revocation keyC revokedAt).bytes = b := by
  obtain ⟨keyC, b, rfl, h1⟩ := exists_vector_append (n := 1952) (b := b) (by omega)
  obtain ⟨revokedAt, rest, rfl, h2⟩ := exists_word_append (b := b) (by omega)
  have hnil : rest = [] := List.length_eq_zero_iff.mp (by omega)
  refine ⟨keyC, revokedAt.toInt64, ?_⟩
  simp only [bytes, revocationToSign, UInt64.toUInt64_toInt64, hnil, List.append_nil]

/-- A card begins with its version. -/
theorem exists_card_iff {b : Bytes} : (∃ p : Payload, p.purpose = .card ∧ p.bytes = b) ↔ 3145 ≤ b.length ∧ b.head? = some 1 := by
  constructor
  · rintro ⟨p, hp, rfl⟩
    cases p with
    | card keyA crKeyBKem displayName createdAt =>
      rw [length_card]
      exact ⟨by omega, rfl⟩
    | _ => cases hp
  · rintro ⟨h, hhead⟩
    obtain ⟨b, rfl⟩ := List.head?_eq_some_iff.mp hhead
    rw [List.length_cons] at h
    obtain ⟨keyA, b, rfl, h1⟩ := exists_vector_append (n := 1952) (b := b) (by omega)
    obtain ⟨kem, b, rfl, h2⟩ := exists_vector_append (n := 1184) (b := b) (by omega)
    obtain ⟨name, createdAt, rfl, _⟩ := exists_append_word (b := b) (by omega)
    refine ⟨.card keyA kem name createdAt.toInt64, rfl, ?_⟩
    simp only [bytes, cardToSign, UInt64.toUInt64_toInt64, List.append_assoc]

/-- The kinds that the lengths keep apart. -/
def Apart : Purpose → Purpose → Prop
  | .prekeys, .delegation | .delegation, .prekeys => True
  | .prekeys, .revocation | .revocation, .prekeys => True
  | .delegation, .revocation | .revocation, .delegation => True
  | .revocation, .card | .card, .revocation => True
  | _, _ => False

theorem ne_of_apart {p q : Payload} (h : Apart p.purpose q.purpose) : p.bytes ≠ q.bytes := by
  intro heq
  have hlen := congrArg List.length heq
  cases p with
  | guardV1 timeslot timestamp iv ct tag => cases q <;> exact h
  | guardV2 timeslot timestamp keyB iv ct tag => cases q <;> exact h
  | prekeys timestamp pks =>
    obtain ⟨hrevocation, hdelegation⟩ := length_prekeys_ne timestamp pks
    cases q with
    | delegation keyC keyA issuedAt expiresAt => exact hdelegation (hlen.trans (length_delegation keyC keyA issuedAt expiresAt))
    | revocation keyC revokedAt => exact hrevocation (hlen.trans (length_revocation keyC revokedAt))
    | _ => exact h
  | delegation keyC keyA issuedAt expiresAt =>
    rw [length_delegation] at hlen
    cases q with
    | prekeys timestamp pks => exact (length_prekeys_ne timestamp pks).2 hlen.symm
    | revocation keyC revokedAt =>
      rw [length_revocation] at hlen
      omega
    | _ => exact h
  | revocation keyC revokedAt =>
    rw [length_revocation] at hlen
    cases q with
    | prekeys timestamp pks => exact (length_prekeys_ne timestamp pks).1 hlen.symm
    | delegation keyC keyA issuedAt expiresAt =>
      rw [length_delegation] at hlen
      omega
    | card keyA crKeyBKem displayName createdAt =>
      rw [length_card] at hlen
      omega
    | _ => exact h
  | card keyA crKeyBKem displayName createdAt =>
    rw [length_card] at hlen
    cases q with
    | revocation keyC revokedAt =>
      rw [length_revocation] at hlen
      omega
    | _ => exact h

end Payload

/-- What Key A signs gives its fields back within a kind. Lists of prekeys, delegations and revocations are kept apart, and
revocations from cards; a card may be anything that begins with 1, and a guard record anything, from a certain length on. -/
theorem payloads_separate :
    (∀ p q : Payload, p.purpose = q.purpose → p.bytes = q.bytes → p = q) ∧
      (∀ p q : Payload, Payload.Apart p.purpose q.purpose → p.bytes ≠ q.bytes) ∧
      (∀ p : Payload, (∃ q : Payload, q.purpose = .card ∧ q.bytes = p.bytes) ↔ 3145 ≤ p.bytes.length ∧ p.bytes.head? = some 1) ∧
      (∀ p : Payload, (∃ q : Payload, q.purpose = .guardV1 ∧ q.bytes = p.bytes) ↔ 44 ≤ p.bytes.length) ∧
      ∀ p : Payload, (∃ q : Payload, q.purpose = .guardV2 ∧ q.bytes = p.bytes) ↔ 1228 ≤ p.bytes.length :=
  ⟨fun _ _ => Payload.eq_of_bytes, fun _ _ => Payload.ne_of_apart, fun _ => Payload.exists_card_iff, fun _ => Payload.exists_guardV1_iff,
    fun _ => Payload.exists_guardV2_iff⟩

/-- A guard record with a long key for its inbox. -/
def wideGuard : Dht.GuardPlaintext := ⟨List.replicate 32 7, ascii "10.0.0.1:443", fit 32 [9], true, List.replicate 1728 0, 1000⟩

def wideRecord : Payload := .ofGuardRecord Dht.sampleLibrary ⟨90, fit 12 [4], fit 32 [5]⟩ (fit 1184 [3]) 50 wideGuard

theorem length_wideRecord : wideRecord.bytes.length = 1960 := by
  have hplain : (Dht.encodePlaintext wideGuard).length = 1916 := by decide +kernel
  exact (Payload.length_guardV1 50 90 (fit 12 [4]) (Dht.encodePlaintext wideGuard) _).trans (by rw [hplain])

/-- What is signed for that record is what would be signed to revoke a certain Key C. -/
theorem not_payloads_separate_wideRecord : ∃ keyC revokedAt, (Payload.revocation keyC revokedAt).purpose ≠ wideRecord.purpose ∧
    (Payload.revocation keyC revokedAt).bytes = wideRecord.bytes := by
  obtain ⟨keyC, revokedAt, h⟩ := Payload.exists_revocation length_wideRecord
  exact ⟨keyC, revokedAt, nofun, h⟩

end ScatterWeb.Client
