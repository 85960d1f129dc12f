import ScatterWeb.Crypto.Symbolic
import ScatterWeb.Dht.Accept

/-! # Reading back what was built

The parsers of the common library return what its builders put into a record, for both versions of a guard record and for prekey
records. A guard record is read under its own timeslot only. -/
namespace ScatterWeb.Dht
open Crypto Lib Lib.Cbor Client Mailbox
set_option autoImplicit false

section Library
variable {Sig : Type} {L : Library Sig}

/-! ## The maps -/

theorem plaintextMap_pairs (p : GuardPlaintext) : (plaintextMap p).pairs =
    ([(.text (ascii "guard_node_id"), .bytes p.guardNodeId), (.text (ascii "guard_endpoint"), .text (cStr p.guardEndpoint)),
      (.text (ascii "session_token"), .bytes p.sessionToken.toList), (.text (ascii "prekey_available"), .bool p.prekeyAvailable),
      (.text (ascii "inbox_auth_key"), .bytes p.inboxAuthKey), (.text (ascii "inbox_auth_expiry"), .uint (.a64 p.inboxAuthExpiry))] :
        List (Item × Item)) := by
  simp [plaintextMap, mapAddBstr, mapAddBytes, mapAddStr, mapAddBool, mapAddUint, DefMap.add_pairs]

theorem delegationCertMap_pairs (cert : DelegationCert) (sig : Sig) : (delegationCertMap L cert sig).pairs =
    ([(.text (ascii "key_c_pubkey"), .bytes cert.keyCPubkey.toList), (.text (ascii "owner_key_a_pubkey"), .bytes cert.ownerKeyAPubkey.toList),
      (.text (ascii "scope"), .text (cStr (ascii "inbox"))), (.text (ascii "issued_at"), .uint (.a64 cert.issuedAt)),
      (.text (ascii "expires_at"), .uint (.a64 cert.expiresAt)), (.text (ascii "signature"), .bytes (L.dsa.toBytes sig))] :
        List (Item × Item)) := by
  simp [delegationCertMap, mapAddBstr, mapAddBytes, mapAddStr, mapAddUint, DefMap.add_pairs]

theorem ciphertextMap_pairs (iv : ByteArr 12) (ct : Bytes) (tag : ByteArr 16) : (ciphertextMap iv ct tag).pairs =
    ([(.text (ascii "iv"), .bytes iv.toList), (.text (ascii "ciphertext"), .bytes ct), (.text (ascii "tag"), .bytes tag.toList)] :
      List (Item × Item)) := by
  simp [ciphertextMap, mapAddBstr, mapAddBytes, DefMap.add_pairs]

theorem guardRecordV1Map_pairs (timeslot timestamp : UInt64) (ctMap : Item) (sig : Sig) : (guardRecordV1Map L timeslot timestamp ctMap sig).pairs =
    ([(.text (ascii "version"), .uint (.a64 1)), (.text (ascii "timeslot"), .uint (.a64 timeslot)),
      (.text (ascii "timestamp"), .uint (.a64 timestamp)), (.text (ascii "ciphertext"), ctMap),
      (.text (ascii "signature"), .bytes (L.dsa.toBytes sig))] : List (Item × Item)) := by
  simp [guardRecordV1Map, mapAddBstr, mapAddBytes, mapAddItem, mapAddUint, DefMap.add_pairs]

theorem guardRecordV2Map_pairs (keyB : ByteArr 1184) (timeslot timestamp : UInt64) (ctMap : Item) (sig : Sig) (cert : Bytes) :
    (guardRecordV2Map L keyB timeslot timestamp ctMap sig cert).pairs =
    ([(.text (ascii "version"), .uint (.a64 2)), (.text (ascii "timeslot"), .uint (.a64 timeslot)),
      (.text (ascii "timestamp"), .uint (.a64 timestamp)), (.text (ascii "target_key_b_pubkey"), .bytes keyB.toList),
      (.text (ascii "ciphertext"), ctMap), (.text (ascii "signature"), .bytes (L.dsa.toBytes sig)),
      (.text (ascii "dht_delegation_cert"), .bytes cert)] : List (Item × Item)) := by
  simp [guardRecordV2Map, mapAddBstr, mapAddBytes, mapAddItem, mapAddUint, DefMap.add_pairs]

theorem prekeyRecordMap_pairs (timestamp : UInt64) (arr : Item) (sig : Sig) : (prekeyRecordMap L timestamp arr sig).pairs =
    ([(.text (ascii "timestamp"), .uint (.a64 timestamp)), (.text (ascii "prekeys"), arr),
      (.text (ascii "signature"), .bytes (L.dsa.toBytes sig))] : List (Item × Item)) := by
  simp [prekeyRecordMap, mapAddBstr, mapAddBytes, mapAddItem, mapAddUint, DefMap.add_pairs]

/-! ## Guard records -/

theorem decodePlaintext_encodePlaintext (hload : Loads L.load) (env : ParseEnv) {p : GuardPlaintext} (hep : 0 ∉ p.guardEndpoint) :
    decodePlaintext L env (encodePlaintext p) = .ok p := by
  have hbool : cborIsTrue (.bool p.prekeyAvailable) = p.prekeyAvailable := by
    cases p.prekeyAvailable <;> rfl
  unfold decodePlaintext encodePlaintext
  rw [loadMap_cborSer hload, plaintextMap_pairs]
  simp [ok_bind, orThrow_some, findKey_cons, bstrOrThrow_bytes, sized_toList, asBytes, asText, asUint, cborGetUint64, hbool, cStr_of_nulFree hep]

theorem ciphertext_found (iv : ByteArr 12) (ct : Bytes) (tag : ByteArr 16) :
    ∃ kvs, (ciphertextMap iv ct tag).item = .map kvs ∧ findKey kvs "iv" = some (.bytes iv.toList) ∧
      findKey kvs "ciphertext" = some (.bytes ct) ∧ findKey kvs "tag" = some (.bytes tag.toList) := by
  refine ⟨_, rfl, ?_⟩
  rw [ciphertextMap_pairs]
  simp [findKey_cons]

/-- A record with an encrypted plaintext that is signed by the one it has to be signed by. -/
theorem parseGuardRecord_signed (hL : L.Correct) {env : ParseEnv} {m : DefMap} {f : GuardFields Sig} {keyB : ByteArr 1184} {keyA : ByteArr 1952}
    {timeslot : UInt64} {p : GuardPlaintext} {r seed : ByteArr 32} (hfields : f.In L m.pairs timeslot)
    (hsigner : signingPub L env.now m.pairs f.version keyA = .ok (L.dsa.keygen r).pub)
    (hsig : f.sig = L.dsa.sign (L.dsa.keygen r).priv (signedPayload f keyB timeslot) seed)
    (henc : L.aes.encrypt (aeadKey L f.version keyB timeslot) f.iv (encodePlaintext p) [] = (f.ct, f.tag)) (hep : 0 ∉ p.guardEndpoint) :
    parseGuardRecord L env (cborSer m) keyB keyA timeslot = .ok p := by
  have hopen := hL.aes.decrypt_encrypt (aeadKey L f.version keyB timeslot) f.iv (encodePlaintext p) []
  rw [henc] at hopen
  refine parseGuardRecord_eq_ok.mpr ⟨m.pairs, f, _, hL.load.load_encode m.item, hfields, hsigner, ?_, encodePlaintext p, hopen, ?_⟩
  · rw [hsig]
    exact hL.dsa.verify_sign r _ seed
  · exact decodePlaintext_encodePlaintext hL.load env hep

theorem guardRecordV1Map_fields (hL : L.Correct) (timeslot timestamp : UInt64) (iv : ByteArr 12) (ct : Bytes) (tag : ByteArr 16) (sig : Sig) :
    GuardFields.In L ⟨1, timestamp, iv, ct, tag, sig⟩ (guardRecordV1Map L timeslot timestamp (ciphertextMap iv ct tag).item sig).pairs timeslot := by
  obtain ⟨kvs, hkvs, hct⟩ := ciphertext_found iv ct tag
  rw [guardRecordV1Map_pairs, hkvs]
  exact ⟨⟨.a64 1, by simp [findKey_cons], rfl⟩, ⟨.uint (.a64 timeslot), by simp [findKey_cons], rfl⟩, by simp [findKey_cons, cborGetUint64],
    ⟨kvs, by simp [findKey_cons], hct⟩, L.dsa.toBytes sig, by simp [findKey_cons], hL.dsa.ofBytes_toBytes sig⟩

theorem guardRecordV2Map_fields (hL : L.Correct) (keyB : ByteArr 1184) (timeslot timestamp : UInt64) (iv : ByteArr 12) (ct : Bytes)
    (tag : ByteArr 16) (sig : Sig) (cert : Bytes) : GuardFields.In L ⟨2, timestamp, iv, ct, tag, sig⟩
      (guardRecordV2Map L keyB timeslot timestamp (ciphertextMap iv ct tag).item sig cert).pairs timeslot := by
  obtain ⟨kvs, hkvs, hct⟩ := ciphertext_found iv ct tag
  rw [guardRecordV2Map_pairs, hkvs]
  exact ⟨⟨.a64 2, by simp [findKey_cons], rfl⟩, ⟨.uint (.a64 timeslot), by simp [findKey_cons], rfl⟩, by simp [findKey_cons, cborGetUint64],
    ⟨kvs, by simp [findKey_cons], hct⟩, L.dsa.toBytes sig, by simp [findKey_cons], hL.dsa.ofBytes_toBytes sig⟩

theorem parseGuardRecord_buildGuardRecordV1 (hL : L.Correct) (env : BuildEnv) (env' : ParseEnv) (keyB : ByteArr 1184) (timeslot : UInt64)
    {p : GuardPlaintext} (hep : 0 ∉ p.guardEndpoint) (a : ByteArr 32) :
    parseGuardRecord L env' (buildGuardRecordV1 L env keyB timeslot p (L.dsa.keygen a).priv) keyB (L.dsa.keygen a).pub timeslot = .ok p := by
  refine parseGuardRecord_signed hL (guardRecordV1Map_fields hL _ _ _ _ _ _) ?_ rfl rfl hep
  exact signingPub_eq_ok.mpr (Or.inl ⟨show (1 : UInt64) ≠ 2 by decide, rfl⟩)

theorem delegationCertMap_fields (hL : L.Correct) (cert : DelegationCert) (sig : Sig) :
    CertFields.In L ⟨cert.keyCPubkey, cert.issuedAt, cert.expiresAt, sig⟩ (delegationCertMap L cert sig).pairs := by
  have hscope : cStr (ascii "inbox") = ascii "inbox" := cStr_of_nulFree (by decide)
  rw [delegationCertMap_pairs, hscope]
  exact ⟨by simp [findKey_cons], ⟨cert.ownerKeyAPubkey, by simp [findKey_cons]⟩, by simp [findKey_cons],
    ⟨.uint (.a64 cert.issuedAt), by simp [findKey_cons], rfl⟩, ⟨.uint (.a64 cert.expiresAt), by simp [findKey_cons], rfl⟩,
    L.dsa.toBytes sig, by simp [findKey_cons], hL.dsa.ofBytes_toBytes sig⟩

theorem verifyDelegationCert_buildDelegationCert (hL : L.Correct) {now : UInt64} (cert : DelegationCert) {a : ByteArr 32}
    (howner : cert.ownerKeyAPubkey = (L.dsa.keygen a).pub) (hnow : now ≤ cert.expiresAt) (seed : ByteArr 32) :
    verifyDelegationCert L now (buildDelegationCert L cert (L.dsa.keygen a).priv seed) (L.dsa.keygen a).pub = .ok cert.keyCPubkey := by
  refine verifyDelegationCert_eq_ok.mpr ⟨_, ⟨_, hL.load.load_encode _, delegationCertMap_fields hL cert _⟩, rfl, ?_, hnow⟩
  rw [howner]
  exact hL.dsa.verify_sign a _ seed

theorem parseGuardRecord_buildGuardRecordV2 (hL : L.Correct) (env : BuildEnv) (env' : ParseEnv) (keyB : ByteArr 1184) (timeslot : UInt64)
    {p : GuardPlaintext} (hep : 0 ∉ p.guardEndpoint) {a c : ByteArr 32} {cert : Bytes}
    (hcert : verifyDelegationCert L env'.now cert (L.dsa.keygen a).pub = .ok (L.dsa.keygen c).pub) :
    parseGuardRecord L env' (buildGuardRecordV2 L env keyB timeslot p (L.dsa.keygen c).priv cert) keyB (L.dsa.keygen a).pub timeslot = .ok p := by
  refine parseGuardRecord_signed hL (guardRecordV2Map_fields hL _ _ _ _ _ _ _ _) ?_ rfl rfl hep
  refine signingPub_eq_ok.mpr (Or.inr ⟨rfl, cert, ?_, verifyDelegationCert_eq_ok.mp hcert⟩)
  rw [guardRecordV2Map_pairs]
  simp [findKey_cons]

/-- The timeslot is compared before anything is verified. -/
theorem parseGuardRecord_otherTimeslot (hload : Loads L.load) {m : DefMap} {f : GuardFields Sig} {t timeslot : UInt64} (env : ParseEnv)
    (hfields : f.In L m.pairs t) (hne : timeslot ≠ t) (keyB : ByteArr 1184) (keyA : ByteArr 1952) :
    parseGuardRecord L env (cborSer m) keyB keyA timeslot = .error .timeslot := by
  obtain ⟨a, hver, _⟩ := hfields.version
  obtain ⟨item, hts, hslot⟩ := hfields.timeslot
  unfold parseGuardRecord readGuardFields
  rw [loadMap_cborSer hload]
  simp [ok_bind, hver, hts, orThrow_some, asUint, hslot, check_neg (Ne.symm hne), error_bind]

/-! ## Prekey records -/

theorem decodePrekey_bytes (pk : ByteArr 1184) : decodePrekey (.bytes pk.toList) = .ok pk := by
  simp [decodePrekey, asBytes, sized_toList, orThrow_some]

/-- A prekey record of Key A, under any Key B. -/
theorem parsePrekeyRecord_buildPrekeyRecord (hL : L.Correct) (keyB keyB' : ByteArr 1184) (rec : PrekeyRecord) (a seed : ByteArr 32) :
    parsePrekeyRecord L (buildPrekeyRecord L keyB rec (L.dsa.keygen a).priv seed) keyB' (L.dsa.keygen a).pub = .ok rec := by
  have hitems := mapM_map_eq_ok decodePrekey_bytes rec.prekeys
  have hver := hL.dsa.verify_sign a (prekeySigned rec.timestamp (prekeyArray rec.prekeys)) seed
  unfold parsePrekeyRecord buildPrekeyRecord
  unfold prekeyArray at hver ⊢
  rw [List.map_id'] at hitems
  rw [loadMap_cborSer hL.load, prekeyRecordMap_pairs]
  simp [ok_bind, orThrow_some, findKey_cons, bstrOrThrow_bytes, asArray, cborGetUint64, check_pos, hL.dsa.ofBytes_toBytes, hver, hitems]

/-! ## All records -/

/-- Every builder has a parser that returns what was built, and a guard record is rejected under another timeslot. -/
theorem records_roundTrip (hL : L.Correct) (env : BuildEnv) (env' : ParseEnv) (keyB : ByteArr 1184) (timeslot : UInt64) {p : GuardPlaintext}
    (hep : 0 ∉ p.guardEndpoint) (a c : ByteArr 32) (issuedAt expiresAt : UInt64) (certSeed : ByteArr 32) (rec : PrekeyRecord) :
    let keyA := L.dsa.keygen a
    let keyC := L.dsa.keygen c
    let cert := buildDelegationCert L ⟨keyC.pub, keyA.pub, issuedAt, expiresAt⟩ keyA.priv certSeed
    parseGuardRecord L env' (buildGuardRecordV1 L env keyB timeslot p keyA.priv) keyB keyA.pub timeslot = .ok p ∧
      (env'.now ≤ expiresAt → parseGuardRecord L env' (buildGuardRecordV2 L env keyB timeslot p keyC.priv cert) keyB keyA.pub timeslot = .ok p) ∧
      parsePrekeyRecord L (buildPrekeyRecord L keyB rec keyA.priv env.seed) keyB keyA.pub = .ok rec ∧
      ∀ timeslot', timeslot' ≠ timeslot →
        parseGuardRecord L env' (buildGuardRecordV1 L env keyB timeslot p keyA.priv) keyB keyA.pub timeslot' = .error .timeslot ∧
        parseGuardRecord L env' (buildGuardRecordV2 L env keyB timeslot p keyC.priv cert) keyB keyA.pub timeslot' = .error .timeslot := by
  intro keyA keyC cert
  refine ⟨?_, ?_, ?_, ?_⟩
  · exact parseGuardRecord_buildGuardRecordV1 hL env env' keyB timeslot hep a
  · intro hnow
    have hcert : verifyDelegationCert L env'.now cert keyA.pub = .ok keyC.pub :=
      verifyDelegationCert_buildDelegationCert hL ⟨keyC.pub, keyA.pub, issuedAt, expiresAt⟩ rfl hnow certSeed
    exact parseGuardRecord_buildGuardRecordV2 hL env env' keyB timeslot hep hcert
  · exact parsePrekeyRecord_buildPrekeyRecord hL keyB keyB rec a env.seed
  · intro timeslot' hne
    constructor
    · exact parseGuardRecord_otherTimeslot hL.load env' (guardRecordV1Map_fields hL _ _ _ _ _ _) hne keyB keyA.pub
    · exact parseGuardRecord_otherTimeslot hL.load env' (guardRecordV2Map_fields hL _ _ _ _ _ _ _ _) hne keyB keyA.pub

end Library

/-- Small primitives that keep their contracts. -/
def sampleLibrary : Library (ByteArr 1952 × Bytes) where
  dsa := idealDsa
  aes := checksumAes
  sha3 := fit 32
  shake := fit 32
  load := Cbor.load
  peek _ := 0

theorem sampleLibrary_exact : sampleLibrary.dsa.Exact := idealDsa_exact

theorem sampleLibrary_correct : sampleLibrary.Correct := ⟨sampleLibrary_exact.toCorrect, checksumAes_correct, load_loads⟩

def sampleGuard : GuardPlaintext := ⟨List.replicate 32 7, ascii "10.0.0.1:443", fit 32 [9], true, [], 1000⟩

/-- A certificate on its last day, and an empty list of prekeys. -/
theorem records_roundTrip_lastDay :
    let L := sampleLibrary
    let keyA := L.dsa.keygen (fit 32 [1])
    let keyC := L.dsa.keygen (fit 32 [2])
    let env : BuildEnv := ⟨90, fit 12 [4], fit 32 [5]⟩
    let cert := buildDelegationCert L ⟨keyC.pub, keyA.pub, 10, 100⟩ keyA.priv (fit 32 [6])
    parseGuardRecord L ⟨100, 0⟩ (buildGuardRecordV2 L env (fit 1184 [3]) 50 sampleGuard keyC.priv cert) (fit 1184 [3]) keyA.pub 50 =
        .ok sampleGuard ∧
      parsePrekeyRecord L (buildPrekeyRecord L (fit 1184 [3]) ⟨80, []⟩ keyA.priv env.seed) (fit 1184 [3]) keyA.pub = .ok ⟨80, []⟩ := by
  intro L keyA keyC env cert
  have hep : (0 : UInt8) ∉ sampleGuard.guardEndpoint := by decide
  obtain ⟨_, hv2, hprekeys, _⟩ := records_roundTrip sampleLibrary_correct env ⟨100, 0⟩ (fit 1184 [3]) 50 hep (fit 32 [1]) (fit 32 [2]) 10 100
    (fit 32 [6]) ⟨80, []⟩
  exact ⟨hv2 (by decide), hprekeys⟩

end ScatterWeb.Dht
