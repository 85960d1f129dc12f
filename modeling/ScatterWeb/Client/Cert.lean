import ScatterWeb.Dht.RoundTrip

/-! # Certificates that the Client issues

`cert.cpp` signs a certificate as a CBOR map that has every field but the signature. `verify_delegation_cert` of the common library
rebuilds other bytes, the two keys, the scope and the times one after the other, so it turns away every delegation
certificate that a Client issues. -/
namespace ScatterWeb.Client
open Crypto Lib Lib.Cbor
set_option autoImplicit false

/-- The trimmed map has room for every pair. The keys are compared with `strcmp`, which is taken to find the end of a key that
`cbor_build_string` has made. -/
def cborMapWithoutSig (m : DefMap) : Bytes := encode (.map (m.pairs.filter (fun kv => ¬textKey kv.1 "signature")))

/-- The first slot with the name is filled; the keys are compared in the same way. -/
def fillSignature (sig : Bytes) : List (Item × Item) → List (Item × Item)
  | [] => []
  | (k, v) :: kvs => if textKey k "signature" then (k, .bytes sig) :: kvs else (k, v) :: fillSignature sig kvs

section Issue
variable {Sig : Type} (D : Dsa Sig)

def signCert (root : DefMap) (keyAPriv : ByteArr 4032) (seed : ByteArr 32) : Bytes :=
  encode (.map (fillSignature (D.toBytes (D.sign keyAPriv (cborMapWithoutSig root) seed)) root.pairs))

def certLifetime : Int64 := 2592000

def authCertMap (sha3 : Bytes → ByteArr 32) (keyAPub keyCPub : ByteArr 1952) (deviceType deviceLabel : Bytes) (nowS : Int64) : DefMap :=
  let root := DefMap.new 8
  let root := mapAddBytes root "key_c_pubkey" keyCPub.toList
  let root := mapAddBytes root "owner_key_a_pubkey" keyAPub.toList
  let root := mapAddStr root "device_type" deviceType
  let root := mapAddStr root "device_label" deviceLabel
  let root := mapAddBytes root "device_id" (sha3 keyCPub.toList).toList
  let root := mapAddUint root "issued_at" nowS.toUInt64
  let root := mapAddUint root "expires_at" (nowS + certLifetime).toUInt64
  mapAddBytes root "signature" []

def issueAuthCert (sha3 : Bytes → ByteArr 32) (keyAPriv : ByteArr 4032) (keyAPub keyCPub : ByteArr 1952) (deviceType deviceLabel : Bytes)
    (nowS : Int64) (seed : ByteArr 32) : Bytes := signCert D (authCertMap sha3 keyAPub keyCPub deviceType deviceLabel nowS) keyAPriv seed

def delegationMap (keyAPub keyCPub : ByteArr 1952) (nowS : Int64) : DefMap :=
  let root := DefMap.new 6
  let root := mapAddBytes root "key_c_pubkey" keyCPub.toList
  let root := mapAddBytes root "owner_key_a_pubkey" keyAPub.toList
  let root := mapAddStr root "scope" (ascii "inbox")
  let root := mapAddUint root "issued_at" nowS.toUInt64
  let root := mapAddUint root "expires_at" (nowS + certLifetime).toUInt64
  mapAddBytes root "signature" []

def issueDelegationCert (keyAPriv : ByteArr 4032) (keyAPub keyCPub : ByteArr 1952) (nowS : Int64) (seed : ByteArr 32) : Bytes :=
  signCert D (delegationMap keyAPub keyCPub nowS) keyAPriv seed

/-- The key and the time are signed. -/
def revocationToSign (keyCPub : ByteArr 1952) (nowS : Int64) : Bytes := keyCPub.toList ++ be 8 nowS.toUInt64.toNat

def issueRevocationNotice (keyAPriv : ByteArr 4032) (keyAPub keyCPub : ByteArr 1952) (nowS : Int64) (seed : ByteArr 32) : Bytes :=
  let sig := D.sign keyAPriv (revocationToSign keyCPub nowS) seed
  let root := DefMap.new 4
  let root := mapAddBytes root "revoked_key_c_pubkey" keyCPub.toList
  let root := mapAddBytes root "owner_key_a_pubkey" keyAPub.toList
  let root := mapAddUint root "revoked_at" nowS.toUInt64
  let root := mapAddBytes root "signature" (D.toBytes sig)
  cborSer root

/-! ## What is signed -/

/-- Everything but the signature. -/
def delegationPairs (keyAPub keyCPub : ByteArr 1952) (nowS : Int64) : List (Item × Item) :=
  [(.text (ascii "key_c_pubkey"), .bytes keyCPub.toList), (.text (ascii "owner_key_a_pubkey"), .bytes keyAPub.toList),
    (.text (ascii "scope"), .text (ascii "inbox")), (.text (ascii "issued_at"), .uint (.a64 nowS.toUInt64)),
    (.text (ascii "expires_at"), .uint (.a64 (nowS + certLifetime).toUInt64))]

theorem delegationMap_pairs (keyAPub keyCPub : ByteArr 1952) (nowS : Int64) :
    (delegationMap keyAPub keyCPub nowS).pairs = delegationPairs keyAPub keyCPub nowS ++ [(.text (ascii "signature"), .bytes [])] := by
  have hscope : cStr (ascii "inbox") = ascii "inbox" := cStr_of_nulFree (by decide)
  simp [delegationMap, delegationPairs, mapAddBytes, mapAddStr, mapAddUint, DefMap.add_pairs, hscope]

theorem cborMapWithoutSig_delegationMap (keyAPub keyCPub : ByteArr 1952) (nowS : Int64) :
    cborMapWithoutSig (delegationMap keyAPub keyCPub nowS) = encode (.map (delegationPairs keyAPub keyCPub nowS)) := by
  unfold cborMapWithoutSig
  rw [delegationMap_pairs]
  simp [delegationPairs]

theorem fillSignature_delegationMap (keyAPub keyCPub : ByteArr 1952) (nowS : Int64) (sig : Bytes) :
    fillSignature sig (delegationMap keyAPub keyCPub nowS).pairs =
      delegationPairs keyAPub keyCPub nowS ++ [(.text (ascii "signature"), .bytes sig)] := by
  rw [delegationMap_pairs]
  simp [delegationPairs, fillSignature]

variable {D}

/-- The map is longer than what the library rebuilds: it has the names of the fields too. -/
theorem signed_ne_payload (keyAPub keyCPub : ByteArr 1952) (nowS : Int64) (issuedAt expiresAt : UInt64) :
    Dht.delegationSignPayload keyCPub keyAPub issuedAt expiresAt ≠ cborMapWithoutSig (delegationMap keyAPub keyCPub nowS) := by
  intro h
  have hlen := congrArg List.length h
  have hpayload : (Dht.delegationSignPayload keyCPub keyAPub issuedAt expiresAt).length = 3925 := by
    simp [Dht.delegationSignPayload, show (ascii "inbox").length = 5 from rfl]
  have hmap : 3934 ≤ (cborMapWithoutSig (delegationMap keyAPub keyCPub nowS)).length := by
    rw [cborMapWithoutSig_delegationMap]
    simp only [delegationPairs, encode, encodePairs, List.length_append, List.Vector.toList_length,
      show (ascii "key_c_pubkey").length = 12 from rfl, show (ascii "owner_key_a_pubkey").length = 18 from rfl]
    omega
  omega

end Issue

/-! ## Verification by the common library -/

section Verify
variable {Sig : Type} {L : Dht.Library Sig}

/-- The certificate is accepted as long as it has not expired. -/
def DelegationVerifies (L : Dht.Library Sig) (a : ByteArr 32) (keyC : ByteArr 1952) (nowS : Int64) (seed : ByteArr 32) : Prop :=
  ∀ now : UInt64, now ≤ (nowS + certLifetime).toUInt64 →
    Dht.verifyDelegationCert L now (issueDelegationCert L.dsa (L.dsa.keygen a).priv (L.dsa.keygen a).pub keyC nowS seed) (L.dsa.keygen a).pub = .ok keyC

/-- Whatever the time, the signature is found invalid. -/
theorem verifyDelegationCert_issueDelegationCert (hdsa : L.dsa.Exact) (hload : Loads L.load) (a : ByteArr 32) (keyC : ByteArr 1952) (nowS : Int64)
    (seed : ByteArr 32) (now : UInt64) :
    Dht.verifyDelegationCert L now (issueDelegationCert L.dsa (L.dsa.keygen a).priv (L.dsa.keygen a).pub keyC nowS seed) (L.dsa.keygen a).pub =
      .error .certSig := by
  have hbad : ∀ issuedAt expiresAt, L.dsa.verify (L.dsa.keygen a).pub
      (Dht.delegationSignPayload keyC (L.dsa.keygen a).pub issuedAt expiresAt)
      (L.dsa.sign (L.dsa.keygen a).priv (cborMapWithoutSig (delegationMap (L.dsa.keygen a).pub keyC nowS)) seed) = false := by
    intro issuedAt expiresAt
    rw [Bool.eq_false_iff]
    intro hver
    exact signed_ne_payload _ _ _ _ _ (hdsa.same_inputs hver).2
  have hmap : Dht.loadMap L (issueDelegationCert L.dsa (L.dsa.keygen a).priv (L.dsa.keygen a).pub keyC nowS seed) = .ok _ :=
    Dht.loadMap_eq_ok.mpr (hload.load_encode _)
  unfold Dht.verifyDelegationCert
  rw [hmap, fillSignature_delegationMap]
  unfold delegationPairs
  simp only [List.cons_append, List.nil_append, ok_bind]
  simp [Dht.findKey_cons, Dht.bstrOrThrow_bytes, Dht.sized_toList, ok_bind, orThrow_some, asText, Dht.cborGetUint64, check_pos,
    hdsa.ofBytes_toBytes, hbad]
  rw [check_neg not_false, error_bind]

theorem not_delegationVerifies (hdsa : L.dsa.Exact) (hload : Loads L.load) (a : ByteArr 32) (keyC : ByteArr 1952) (nowS : Int64)
    (seed : ByteArr 32) : ¬DelegationVerifies L a keyC nowS seed := by
  intro h
  have hok := h 0 (UInt64.le_iff_toNat_le.mpr (Nat.zero_le _))
  rw [verifyDelegationCert_issueDelegationCert hdsa hload] at hok
  cases hok

/-- No delegation certificate of a Client verifies, at no time. -/
theorem delegation_never_verifies (hdsa : L.dsa.Exact) (hload : Loads L.load) (a : ByteArr 32) (keyC : ByteArr 1952) (nowS : Int64)
    (seed : ByteArr 32) : ¬DelegationVerifies L a keyC nowS seed ∧ ∀ now, Dht.verifyDelegationCert L now
      (issueDelegationCert L.dsa (L.dsa.keygen a).priv (L.dsa.keygen a).pub keyC nowS seed) (L.dsa.keygen a).pub = .error .certSig :=
  ⟨not_delegationVerifies hdsa hload a keyC nowS seed, verifyDelegationCert_issueDelegationCert hdsa hload a keyC nowS seed⟩

end Verify

theorem delegation_never_verifies_sample : ¬DelegationVerifies Dht.sampleLibrary (fit 32 [1]) (fit 1952 [2]) 1000 (fit 32 [5]) :=
  (delegation_never_verifies Dht.sampleLibrary_exact load_loads (fit 32 [1]) (fit 1952 [2]) 1000 (fit 32 [5])).1

theorem not_delegationVerifies_sample : ¬DelegationVerifies Dht.sampleLibrary (fit 32 [1]) (fit 1952 [2]) 1000 (fit 32 [5]) :=
  not_delegationVerifies Dht.sampleLibrary_exact load_loads (fit 32 [1]) (fit 1952 [2]) 1000 (fit 32 [5])

end ScatterWeb.Client
