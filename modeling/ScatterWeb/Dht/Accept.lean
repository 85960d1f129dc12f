import ScatterWeb.Dht.Record

/-! # What a parser accepts

For each parser the fields that it reads, as a relation between them and the map, and one lemma that says what it has checked
when it returns. -/
namespace ScatterWeb.Dht
open Crypto Lib Lib.Cbor Client Mailbox
set_option autoImplicit false

/-! ## Reading fields -/

theorem asBytes_eq_some {item : Item} {b : Bytes} : asBytes item = some b ↔ item = .bytes b := by
  cases item <;> simp [asBytes]

theorem asText_eq_some {item : Item} {b : Bytes} : asText item = some b ↔ item = .text b := by
  cases item <;> simp [asText]

theorem asMap_eq_some {item : Item} {kvs : List (Item × Item)} : asMap item = some kvs ↔ item = .map kvs := by
  cases item <;> simp [asMap]

theorem asUint_eq_some {item item' : Item} : asUint item = some item' ↔ ∃ a, item = .uint a ∧ item' = .uint a := by
  cases item <;> simp [asUint, eq_comm]

theorem sized_eq_some {n : ℕ} {b : Bytes} {v : ByteArr n} : sized n b = some v ↔ b = v.toList := by
  unfold sized
  constructor
  · intro h
    split at h
    · rw [← Option.some.inj h]
      rfl
    · cases h
  · rintro rfl
    rw [dif_pos v.toList_length, toArr_toList]

theorem bstrOrThrow_eq_ok {item : Option Item} {field : String} {b : Bytes} : bstrOrThrow item field = .ok b ↔ item = some (.bytes b) := by
  unfold bstrOrThrow
  rw [orThrow_eq_ok, Option.bind_eq_some_iff]
  simp only [asBytes_eq_some, exists_eq_right]

theorem bstrOrThrow_bytes (b : Bytes) (field : String) : bstrOrThrow (some (.bytes b)) field = .ok b := rfl

theorem sized_toList {n : ℕ} (v : ByteArr n) : sized n v.toList = some v := sized_eq_some.mpr rfl

/-- The first pair decides. -/
theorem findKey_cons (k : String) (v : Item) (kvs : List (Item × Item)) (key : String) :
    findKey ((.text (ascii k), v) :: kvs) key = if k = key then some v else findKey kvs key := by
  unfold findKey getField
  rw [List.findSome?_cons, textKey_ascii]
  by_cases h : k = key
  · simp [h]
  · simp [h]

section Library
variable {Sig : Type} {L : Library Sig}

theorem loadMap_eq_ok {data : Bytes} {m : List (Item × Item)} : loadMap L data = .ok m ↔ L.load data = some (.map m) := by
  unfold loadMap
  simp [bind_eq_ok, orThrow_eq_ok, asMap_eq_some]

theorem loadMap_cborSer (hload : Loads L.load) (m : DefMap) : loadMap L (cborSer m) = .ok m.pairs :=
  loadMap_eq_ok.mpr (hload.load_encode m.item)

/-! ## Delegation certificates -/

structure CertFields (Sig : Type) where
  keyC : ByteArr 1952
  issuedAt : UInt64
  expiresAt : UInt64
  sig : Sig

/-- The fields of the certificate, whose scope is `inbox`. -/
structure CertFields.In (L : Library Sig) (c : CertFields Sig) (m : List (Item × Item)) : Prop where
  keyC : findKey m "key_c_pubkey" = some (.bytes c.keyC.toList)
  owner : ∃ owner : ByteArr 1952, findKey m "owner_key_a_pubkey" = some (.bytes owner.toList)
  scope : findKey m "scope" = some (.text (ascii "inbox"))
  issuedAt : ∃ item, findKey m "issued_at" = some item ∧ cborGetUint64 L.peek item = c.issuedAt
  expiresAt : ∃ item, findKey m "expires_at" = some item ∧ cborGetUint64 L.peek item = c.expiresAt
  sig : ∃ b, findKey m "signature" = some (.bytes b) ∧ L.dsa.ofBytes b = some c.sig

/-- A certificate of Key A for `keyC` that is valid now. -/
structure Delegates (L : Library Sig) (now : UInt64) (cert : Bytes) (keyA keyC : ByteArr 1952) (c : CertFields Sig) : Prop where
  fields : ∃ m, L.load cert = some (.map m) ∧ c.In L m
  holder : c.keyC = keyC
  signed : L.dsa.verify keyA (delegationSignPayload keyC keyA c.issuedAt c.expiresAt) c.sig = true
  valid : now ≤ c.expiresAt

theorem verifyDelegationCert_eq_ok {now : UInt64} {cert : Bytes} {keyA keyC : ByteArr 1952} :
    verifyDelegationCert L now cert keyA = .ok keyC ↔ ∃ c, Delegates L now cert keyA keyC c := by
  unfold verifyDelegationCert
  simp only [bind_eq_ok, pure_eq_ok, check_eq_ok, orThrow_eq_ok, bstrOrThrow_eq_ok, loadMap_eq_ok, Option.bind_eq_some_iff, asText_eq_some,
    sized_eq_some]
  constructor
  · rintro ⟨m, hm, kc, hkc, keyC', rfl, ka, hka, owner, rfl, scope, ⟨_, hscope, rfl⟩, _, rfl, ia, hia, ea, hea, b, hb, sig, hsig, _, hver, _,
      hexp, rfl⟩
    exact ⟨⟨keyC', _, _, sig⟩, ⟨m, hm, hkc, ⟨owner, hka⟩, hscope, ⟨ia, hia, rfl⟩, ⟨ea, hea, rfl⟩, b, hb, hsig⟩, rfl, hver, hexp⟩
  · rintro ⟨c, ⟨m, hm, hkc, ⟨owner, hka⟩, hscope, ⟨ia, hia, hia'⟩, ⟨ea, hea, hea'⟩, b, hb, hsig⟩, rfl, hver, hexp⟩
    refine ⟨m, hm, _, hkc, c.keyC, rfl, _, hka, owner, rfl, _, ⟨_, hscope, rfl⟩, (), rfl, ia, hia, ea, hea, b, hb, c.sig, hsig, (), ?_, (), ?_, rfl⟩
    · rw [hia', hea']
      exact hver
    · rw [hea']
      exact hexp

/-! ## Guard records -/

structure GuardFields.In (L : Library Sig) (f : GuardFields Sig) (m : List (Item × Item)) (timeslot : UInt64) : Prop where
  version : ∃ a, findKey m "version" = some (.uint a) ∧ cborGetUint64 L.peek (.uint a) = f.version
  timeslot : ∃ item, findKey m "timeslot" = some item ∧ cborGetUint64 L.peek item = timeslot
  timestamp : (findKey m "timestamp").elim 0 (cborGetUint64 L.peek) = f.timestamp
  ciphertext : ∃ kvs, findKey m "ciphertext" = some (.map kvs) ∧ findKey kvs "iv" = some (.bytes f.iv.toList) ∧
    findKey kvs "ciphertext" = some (.bytes f.ct) ∧ findKey kvs "tag" = some (.bytes f.tag.toList)
  sig : ∃ b, findKey m "signature" = some (.bytes b) ∧ L.dsa.ofBytes b = some f.sig

theorem readGuardFields_eq_ok {m : List (Item × Item)} {timeslot : UInt64} {f : GuardFields Sig} :
    readGuardFields L m timeslot = .ok f ↔ f.In L m timeslot := by
  unfold readGuardFields
  simp only [bind_eq_ok, pure_eq_ok, check_eq_ok, orThrow_eq_ok, bstrOrThrow_eq_ok, Option.bind_eq_some_iff, asMap_eq_some, asUint_eq_some,
    sized_eq_some]
  constructor
  · rintro ⟨_, ⟨_, hver, a, rfl, rfl⟩, ts, hts, _, hslot, kvs, ⟨_, hct, rfl⟩, _, hiv, iv, rfl, ct, hctb, _, htag, tag, rfl, b, hb, sig, hsig, rfl⟩
    exact ⟨⟨a, hver, rfl⟩, ⟨ts, hts, hslot⟩, rfl, ⟨kvs, hct, hiv, hctb, htag⟩, b, hb, hsig⟩
  · obtain ⟨version, timestamp, iv, ct, tag, sig⟩ := f
    rintro ⟨⟨a, hver, rfl⟩, ⟨ts, hts, hslot⟩, rfl, ⟨kvs, hct, hiv, hctb, htag⟩, b, hb, hsig⟩
    exact ⟨_, ⟨_, hver, a, rfl, rfl⟩, ts, hts, (), hslot, kvs, ⟨_, hct, rfl⟩, _, hiv, iv, rfl, ct, hctb, _, htag, tag, rfl, b, hb, sig, hsig, rfl⟩

/-- Who has signed: Key A, or for version 2 the holder of a certificate. -/
theorem signingPub_eq_ok {now : UInt64} {m : List (Item × Item)} {version : UInt64} {keyA pub : ByteArr 1952} :
    signingPub L now m version keyA = .ok pub ↔
      (version ≠ 2 ∧ pub = keyA) ∨ (version = 2 ∧ ∃ cert, findKey m "dht_delegation_cert" = some (.bytes cert) ∧ ∃ c, Delegates L now cert keyA pub c) := by
  unfold signingPub
  by_cases hv : version = 2
  · rw [if_pos hv, bind_eq_ok]
    simp only [bstrOrThrow_eq_ok, verifyDelegationCert_eq_ok, hv]
    simp
  · rw [if_neg hv]
    simp [hv, eq_comm]

/-- A record that is accepted. -/
structure Accepts (L : Library Sig) (env : ParseEnv) (record : Bytes) (keyB : ByteArr 1184) (keyA : ByteArr 1952) (timeslot : UInt64)
    (m : List (Item × Item)) (f : GuardFields Sig) (pub : ByteArr 1952) (p : GuardPlaintext) : Prop where
  map : L.load record = some (.map m)
  fields : f.In L m timeslot
  signer : signingPub L env.now m f.version keyA = .ok pub
  signed : L.dsa.verify pub (signedPayload f keyB timeslot) f.sig = true
  opens : ∃ plaintext, L.aes.decrypt (aeadKey L f.version keyB timeslot) f.iv f.ct f.tag [] = some plaintext ∧
    decodePlaintext L env plaintext = .ok p

theorem parseGuardRecord_eq_ok {env : ParseEnv} {record : Bytes} {keyB : ByteArr 1184} {keyA : ByteArr 1952} {timeslot : UInt64}
    {p : GuardPlaintext} : parseGuardRecord L env record keyB keyA timeslot = .ok p ↔ ∃ m f pub, Accepts L env record keyB keyA timeslot m f pub p := by
  unfold parseGuardRecord
  simp only [bind_eq_ok, check_eq_ok, orThrow_eq_ok, loadMap_eq_ok, readGuardFields_eq_ok]
  constructor
  · rintro ⟨m, hm, f, hf, pub, hpub, _, hver, plaintext, hopen, hdec⟩
    exact ⟨m, f, pub, hm, hf, hpub, hver, plaintext, hopen, hdec⟩
  · rintro ⟨m, f, pub, hm, hf, hpub, hver, plaintext, hopen, hdec⟩
    exact ⟨m, hm, f, hf, pub, hpub, (), hver, plaintext, hopen, hdec⟩

end Library

end ScatterWeb.Dht
