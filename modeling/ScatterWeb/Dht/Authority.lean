import ScatterWeb.Dht.RoundTrip

/-! # Whose record it is

A guard record that is accepted should be signed by Key A, or by a Key C that Key A has delegated to. Versions 1 and 2 keep
this. `parse_guard_record` asks for a certificate if the version is 2 and for the layout of version 1 if the version is 1, so
any other number is taken as a version 2 record that Key A has signed itself. A prekey record is not bound to the Key B
it was built for at all. -/
namespace ScatterWeb.Dht
open Crypto Lib Lib.Cbor Client
set_option autoImplicit false

section Library
variable {Sig : Type} (L : Library Sig)

/-- Version 1 under Key A, or version 2 under a Key C with a certificate of Key A; the timeslot is the one asked for. -/
def Authorised (now : UInt64) (record : Bytes) (keyB : ByteArr 1184) (keyA : ByteArr 1952) (timeslot : UInt64) : Prop :=
  ∃ m f, L.load record = some (.map m) ∧ GuardFields.In L f m timeslot ∧
    ((f.version = 1 ∧ L.dsa.verify keyA (signPayloadV1 timeslot f.timestamp f.iv f.ct f.tag) f.sig = true) ∨
      (f.version = 2 ∧ ∃ cert keyC c, findKey m "dht_delegation_cert" = some (.bytes cert) ∧ Delegates L now cert keyA keyC c ∧
        L.dsa.verify keyC (signPayloadV2 timeslot f.timestamp keyB f.iv f.ct f.tag) f.sig = true))

/-- A record of no known version that has the signed bytes and the encryption of version 2 and the signature of Key A. -/
structure Unversioned (env : ParseEnv) (record : Bytes) (keyB : ByteArr 1184) (keyA : ByteArr 1952) (timeslot : UInt64)
    (m : List (Item × Item)) (f : GuardFields Sig) : Prop where
  map : L.load record = some (.map m)
  fields : f.In L m timeslot
  version : f.version ≠ 1 ∧ f.version ≠ 2
  signed : L.dsa.verify keyA (signPayloadV2 timeslot f.timestamp keyB f.iv f.ct f.tag) f.sig = true
  opens : ∃ plaintext p, L.aes.decrypt (inboxAeadKey L keyB timeslot) f.iv f.ct f.tag [] = some plaintext ∧ decodePlaintext L env plaintext = .ok p

variable {L} {env : ParseEnv} {record : Bytes} {keyB : ByteArr 1184} {keyA : ByteArr 1952} {timeslot : UInt64}
  {m : List (Item × Item)} {f f' : GuardFields Sig}

theorem GuardFields.In.version_eq (h : f.In L m timeslot) (h' : f'.In L m timeslot) : f.version = f'.version := by
  obtain ⟨a, ha, hver⟩ := h.version
  obtain ⟨a', ha', hver'⟩ := h'.version
  rw [ha] at ha'
  rw [← hver, ← hver', Option.some.inj ha']

theorem Unversioned.accepts (h : Unversioned L env record keyB keyA timeslot m f) :
    ∃ p, parseGuardRecord L env record keyB keyA timeslot = .ok p := by
  obtain ⟨plaintext, p, hopen, hdec⟩ := h.opens
  refine ⟨p, parseGuardRecord_eq_ok.mpr ⟨m, f, keyA, h.map, h.fields, ?_, ?_, plaintext, ?_, hdec⟩⟩
  · exact signingPub_eq_ok.mpr (Or.inl ⟨h.version.2, rfl⟩)
  · rw [signedPayload, if_neg h.version.1]
    exact h.signed
  · rw [aeadKey, if_neg h.version.1]
    exact hopen

/-- The version that is read is the only one. -/
theorem Unversioned.not_authorised (h : Unversioned L env record keyB keyA timeslot m f) : ¬Authorised L env.now record keyB keyA timeslot := by
  intro hauth
  obtain ⟨m', f', hm', hf', hcase⟩ := hauth
  rw [h.map] at hm'
  cases hm'
  have hver := h.fields.version_eq hf'
  rcases hcase with ⟨h1, _⟩ | ⟨h2, _⟩
  · exact h.version.1 (hver.trans h1)
  · exact h.version.2 (hver.trans h2)

theorem Accepts.authorised {pub : ByteArr 1952} {p : GuardPlaintext} (h : Accepts L env record keyB keyA timeslot m f pub p)
    (hver : f.version = 1 ∨ f.version = 2) : Authorised L env.now record keyB keyA timeslot := by
  refine ⟨m, f, h.map, h.fields, ?_⟩
  have hsigned := h.signed
  unfold signedPayload at hsigned
  rcases signingPub_eq_ok.mp h.signer with ⟨hne, rfl⟩ | ⟨htwo, cert, hcert, c, hc⟩
  · have hone : f.version = 1 := hver.resolve_right hne
    rw [if_pos hone] at hsigned
    exact Or.inl ⟨hone, hsigned⟩
  · have hone : f.version ≠ 1 := by
      rw [htwo]
      decide
    rw [if_neg hone] at hsigned
    exact Or.inr ⟨htwo, cert, pub, c, hcert, hc, hsigned⟩

theorem Accepts.unversioned {pub : ByteArr 1952} {p : GuardPlaintext} (h : Accepts L env record keyB keyA timeslot m f pub p)
    (hver : f.version ≠ 1 ∧ f.version ≠ 2) : Unversioned L env record keyB keyA timeslot m f := by
  have hpub : pub = keyA := by
    rcases signingPub_eq_ok.mp h.signer with ⟨_, hpub⟩ | ⟨htwo, _⟩
    · exact hpub
    · exact absurd htwo hver.2
  have hsigned := h.signed
  obtain ⟨plaintext, hopen, hdec⟩ := h.opens
  rw [signedPayload, if_neg hver.1, hpub] at hsigned
  rw [aeadKey, if_neg hver.1] at hopen
  exact ⟨h.map, h.fields, hver, hsigned, plaintext, p, hopen, hdec⟩

/-- Acceptance means authority exactly for the records that do not pass as version 2 under another number. -/
theorem accepted_authorised_iff (env : ParseEnv) (record : Bytes) (keyB : ByteArr 1184) (keyA : ByteArr 1952) (timeslot : UInt64) :
    ((∃ p, parseGuardRecord L env record keyB keyA timeslot = .ok p) → Authorised L env.now record keyB keyA timeslot) ↔
      ¬∃ m f, Unversioned L env record keyB keyA timeslot m f := by
  constructor
  · intro hauth hloose
    obtain ⟨m, f, h⟩ := hloose
    exact h.not_authorised (hauth h.accepts)
  · intro hnone haccepts
    obtain ⟨p, hp⟩ := haccepts
    obtain ⟨m, f, pub, h⟩ := parseGuardRecord_eq_ok.mp hp
    by_cases hver : f.version = 1 ∨ f.version = 2
    · exact h.authorised hver
    · exact absurd ⟨m, f, h.unversioned (not_or.mp hver)⟩ hnone

end Library

/-! ## A record of version 3 -/

def versionThreeEnc : Bytes × ByteArr 16 :=
  sampleLibrary.aes.encrypt (inboxAeadKey sampleLibrary (fit 1184 [3]) 50) (fit 12 [4]) (encodePlaintext sampleGuard) []

def versionThreeSig : ByteArr 1952 × Bytes :=
  sampleLibrary.dsa.sign (sampleLibrary.dsa.keygen (fit 32 [1])).priv
    (signPayloadV2 50 90 (fit 1184 [3]) (fit 12 [4]) versionThreeEnc.1 versionThreeEnc.2) (fit 32 [5])

def versionThreeMap : DefMap :=
  let root := DefMap.new 5
  let root := mapAddUint root "version" 3
  let root := mapAddUint root "timeslot" 50
  let root := mapAddUint root "timestamp" 90
  let root := mapAddItem root "ciphertext" (ciphertextMap (fit 12 [4]) versionThreeEnc.1 versionThreeEnc.2).item
  mapAddBstr root "signature" (sampleLibrary.dsa.toBytes versionThreeSig)

theorem versionThreeMap_fields :
    GuardFields.In sampleLibrary ⟨3, 90, fit 12 [4], versionThreeEnc.1, versionThreeEnc.2, versionThreeSig⟩ versionThreeMap.pairs 50 := by
  obtain ⟨kvs, hkvs, hct⟩ := ciphertext_found (fit 12 [4]) versionThreeEnc.1 versionThreeEnc.2
  have hpairs : versionThreeMap.pairs = ([(.text (ascii "version"), .uint (.a64 3)), (.text (ascii "timeslot"), .uint (.a64 50)),
      (.text (ascii "timestamp"), .uint (.a64 90)), (.text (ascii "ciphertext"), .map kvs),
      (.text (ascii "signature"), .bytes (sampleLibrary.dsa.toBytes versionThreeSig))] : List (Item × Item)) := by
    simp [versionThreeMap, hkvs, mapAddBstr, mapAddBytes, mapAddItem, mapAddUint, DefMap.add_pairs]
  rw [hpairs]
  exact ⟨⟨.a64 3, by simp [findKey_cons], rfl⟩, ⟨.uint (.a64 50), by simp [findKey_cons], rfl⟩, by simp [findKey_cons, cborGetUint64],
    ⟨kvs, by simp [findKey_cons], hct⟩, _, by simp [findKey_cons], sampleLibrary_correct.dsa.ofBytes_toBytes versionThreeSig⟩

theorem versionThree_unversioned : Unversioned sampleLibrary ⟨100, 0⟩ (cborSer versionThreeMap) (fit 1184 [3])
    (sampleLibrary.dsa.keygen (fit 32 [1])).pub 50 versionThreeMap.pairs
    ⟨3, 90, fit 12 [4], versionThreeEnc.1, versionThreeEnc.2, versionThreeSig⟩ where
  map := sampleLibrary_correct.load.load_encode _
  fields := versionThreeMap_fields
  version := by decide
  signed := sampleLibrary_correct.dsa.verify_sign (fit 32 [1]) _ (fit 32 [5])
  opens := ⟨_, sampleGuard, sampleLibrary_correct.aes.decrypt_encrypt _ _ _ _,
    decodePlaintext_encodePlaintext sampleLibrary_correct.load _ (by decide)⟩

/-- It is accepted without the authority of a version. -/
theorem not_authorised_versionThree :
    ¬((∃ p, parseGuardRecord sampleLibrary ⟨100, 0⟩ (cborSer versionThreeMap) (fit 1184 [3]) (sampleLibrary.dsa.keygen (fit 32 [1])).pub 50 = .ok p) →
      Authorised sampleLibrary 100 (cborSer versionThreeMap) (fit 1184 [3]) (sampleLibrary.dsa.keygen (fit 32 [1])).pub 50) := by
  intro h
  exact versionThree_unversioned.not_authorised (h versionThree_unversioned.accepts)

/-! ## Prekey records under another Key B -/

section Prekeys
variable {Sig : Type} {L : Library Sig}

/-- Whether a record for `b1` that is looked up for `b2` is accepted only if they are the same. -/
def BoundTo (L : Library Sig) (a seed : ByteArr 32) (rec : PrekeyRecord) (b1 b2 : ByteArr 1184) : Prop :=
  (∃ r, parsePrekeyRecord L (buildPrekeyRecord L b1 rec (L.dsa.keygen a).priv seed) b2 (L.dsa.keygen a).pub = .ok r) → b1 = b2

theorem boundTo_iff (hL : L.Correct) (a seed : ByteArr 32) (rec : PrekeyRecord) (b1 b2 : ByteArr 1184) : BoundTo L a seed rec b1 b2 ↔ b1 = b2 := by
  constructor
  · intro h
    exact h ⟨rec, parsePrekeyRecord_buildPrekeyRecord hL b1 b2 rec a seed⟩
  · intro h _
    exact h

theorem fit_zero_ne_fit_one : fit 1184 [0] ≠ fit 1184 [1] := by
  intro h
  have hhead := congrArg List.Vector.head h
  exact absurd hhead (by decide)

/-- A record is accepted for every Key B, so no record is bound to its own. -/
theorem prekeyRecord_not_bound (hL : L.Correct) (a seed : ByteArr 32) (rec : PrekeyRecord) (b1 : ByteArr 1184) :
    (∀ b2, BoundTo L a seed rec b1 b2 ↔ b1 = b2) ∧ ¬∀ b2, BoundTo L a seed rec b1 b2 := by
  refine ⟨boundTo_iff hL a seed rec b1, ?_⟩
  intro hbound
  have hall : ∀ b2, b1 = b2 := fun b2 => (boundTo_iff hL a seed rec b1 b2).mp (hbound b2)
  exact fit_zero_ne_fit_one ((hall (fit 1184 [0])).symm.trans (hall (fit 1184 [1])))

end Prekeys

theorem prekeyRecord_not_bound_sample :
    (∀ b2, BoundTo sampleLibrary (fit 32 [1]) (fit 32 [5]) ⟨80, [fit 1184 [7]]⟩ (fit 1184 [0]) b2 ↔ fit 1184 [0] = b2) ∧
      ¬∀ b2, BoundTo sampleLibrary (fit 32 [1]) (fit 32 [5]) ⟨80, [fit 1184 [7]]⟩ (fit 1184 [0]) b2 :=
  prekeyRecord_not_bound sampleLibrary_correct (fit 32 [1]) (fit 32 [5]) ⟨80, [fit 1184 [7]]⟩ (fit 1184 [0])

/-- The prekeys for one relationship are accepted for another. -/
theorem prekeys_substituted : ¬BoundTo sampleLibrary (fit 32 [1]) (fit 32 [5]) ⟨80, [fit 1184 [7]]⟩ (fit 1184 [0]) (fit 1184 [1]) := by
  intro h
  exact fit_zero_ne_fit_one ((boundTo_iff sampleLibrary_correct _ _ _ _ _).mp h)

end ScatterWeb.Dht
