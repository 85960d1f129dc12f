import ScatterWeb.Client.Cert
import ScatterWeb.Client.Contacts

/-! # The cache of certificates

`process_delivery_frame` puts the certificate of a frame under the fingerprint that the frame gives, in the name of its sender,
and neither hashes the certificate nor verifies it. The first row under a fingerprint stays; under the empty one, which is `NULL`
in the table, there is another row for every frame. So the cache is worth exactly what
the frames are worth whose certificates it took. -/
namespace ScatterWeb.Client
open Crypto Lib Lib.Cbor Ratchet Mailbox
set_option autoImplicit false

section Cache
variable {Sig : Type} (D : Dsa Sig) (P : Primitives wire) (load : Bytes → Option Item) (sha3 : Bytes → ByteArr 32)

/-- The signature of a certificate verifies, for the map without it. -/
def CertSigned (keyAPub cert : Bytes) : Prop :=
  ∃ kvs sig, load cert = some (.map kvs) ∧ (lastField asBytes kvs "signature").bind D.ofBytes = some sig ∧
    D.verify (fit 1952 keyAPub) (encode (.map (kvs.filter (fun kv => ¬textKey kv.1 "signature")))) sig = true

/-- The fingerprint is that of the certificate, and the owner has signed it. -/
structure Vouched (c : ClientState) (fingerprint cert ownerId : Bytes) : Prop where
  fingerprint_eq : fingerprint = (sha3 cert).toList
  signed : ∃ owner, getContact c ownerId = some owner ∧ CertSigned D load owner.keyAPubkey cert

/-- Every row is as it should be; so the fingerprint of a certificate that the owner of the row has not signed is free, unless
two certificates have one hash. -/
structure CacheIntact (c : ClientState) : Prop where
  rows : ∀ k ∈ c.certs, Vouched D load sha3 c k.fingerprint k.authCert k.ownerId
  unoccupied : ∀ k ∈ c.certs, ∀ owner cert, getContact c k.ownerId = some owner → ¬CertSigned D load owner.keyAPubkey cert →
    (sha3 k.authCert = sha3 cert → k.authCert = cert) → k.fingerprint ≠ (sha3 cert).toList

/-- The certificate of the frame goes into the cache. -/
structure Caches (c : ClientState) (p : Presentation) (frame : DeliveryFrame) : Prop where
  decoded : decodeDeliveryFrame load p.junk p.frame = .ok frame
  contact : getContact c (bytesToHex frame.senderId) ≠ none
  free : getCert c frame.certFingerprint = none
  enclosed : frame.senderOutboxCert ≠ []

def rowOf (frame : DeliveryFrame) (nowS : Int64) : KnownCert := ⟨frame.certFingerprint, frame.senderOutboxCert, bytesToHex frame.senderId, nowS⟩

/-- A frame whose certificate is taken into the cache gives its hash and has it from its sender. -/
def FrameVouched (m : Watched) (e : ContactEvent) : Prop :=
  ∀ p frame, e = .client (.present p) → Caches load m.client p frame →
    Vouched D load sha3 m.client frame.certFingerprint frame.senderOutboxCert (bytesToHex frame.senderId)

variable {D P load sha3} {c : ClientState} {m : Watched}

theorem CacheIntact.of_rows (h : ∀ k ∈ c.certs, Vouched D load sha3 c k.fingerprint k.authCert k.ownerId) : CacheIntact D load sha3 c := by
  refine ⟨h, ?_⟩
  intro k hk owner cert howner hunsigned hhash heq
  obtain ⟨hfingerprint, owner', howner', hsigned⟩ := h k hk
  have hsame : k.authCert = cert := hhash (List.Vector.toList_injective (hfingerprint.symm.trans heq))
  obtain rfl := Option.some.inj (howner.symm.trans howner')
  exact hunsigned (hsame ▸ hsigned)

/-! ## What a step does to the cache and to the contacts -/

theorem Caches.certs_eq {p : Presentation} {frame : DeliveryFrame} (h : Caches load c p frame) :
    (processDeliveryFrame P load sha3 c p).state.certs = c.certs ++ [rowOf frame p.nowS] := by
  rw [processDeliveryFrame_of_contact h.decoded h.contact, (processFromContact_rest frame p).2]
  unfold resolveCert
  rw [h.free]
  dsimp only
  rw [if_neg h.enclosed]
  rfl

theorem certs_eq_of_not_caches {p : Presentation} (h : ∀ frame, ¬Caches load c p frame) :
    (processDeliveryFrame P load sha3 c p).state.certs = c.certs := by
  obtain hsame | ⟨frame, hframe, hcontact, heq⟩ := processDeliveryFrame_cases P load sha3 c p
  · rw [hsame]
  · rw [heq, (processFromContact_rest frame p).2]
    unfold resolveCert
    cases hfree : getCert c frame.certFingerprint with
    | some k => rfl
    | none =>
      dsimp only
      by_cases hempty : frame.senderOutboxCert = []
      · rw [if_pos hempty]
        rfl
      · exact absurd ⟨hframe, hcontact, hfree, hempty⟩ (h frame)

/-- Of a step: the cache stays, or it takes the certificate of the frame that is presented. -/
theorem certs_nextWatched (P : Primitives wire) (load : Bytes → Option Item) (sha3 : Bytes → ByteArr 32) (m : Watched) (e : ContactEvent) :
    (nextWatched P load sha3 m e).client.certs = m.client.certs ∨
      ∃ p frame, e = .client (.present p) ∧ Caches load m.client p frame := by
  cases e with
  | client e =>
    cases e with
    | present p =>
      by_cases hcaches : ∃ frame, Caches load m.client p frame
      · obtain ⟨frame, hcaches⟩ := hcaches
        exact Or.inr ⟨p, frame, rfl, hcaches⟩
      · exact Or.inl (certs_eq_of_not_caches (not_exists.mp hcaches))
    | op o => exact Or.inl rfl
    | edit f => exact Or.inl rfl
  | request card =>
    rw [nextWatched_request]
    exact Or.inl rfl
  | accept contactId =>
    refine Or.inl ?_
    unfold nextWatched
    dsimp only
    cases hr : acceptContactRequest sha3 m.client contactId with
    | error e => rfl
    | ok r =>
      change r.1.certs = m.client.certs
      rw [(acceptContactRequest_ok hr).2.1]
  | decline contactId => exact Or.inl rfl
  | block contactId => exact Or.inl rfl
  | connect => exact Or.inl rfl

theorem getContact_setContactStatus {contacts : List Contact} {id id' status : Bytes} {k : Contact}
    (h : contacts.find? (fun k => k.id = id) = some k) :
    ∃ k', (setContactStatus contacts id' status).find? (fun k => k.id = id) = some k' ∧ k'.keyAPubkey = k.keyAPubkey := by
  have hmap : ∀ k : Contact, (if k.id = id' then { k with status := status } else k).id = k.id := by
    intro k
    split_ifs <;> rfl
  unfold setContactStatus
  rw [List.find?_map]
  have hsame : (fun k : Contact => decide (k.id = id)) ∘ (fun k => if k.id = id' then { k with status := status } else k) =
      fun k => decide (k.id = id) := by
    funext k
    simp only [Function.comp_apply, hmap]
  rw [hsame, h]
  refine ⟨_, rfl, ?_⟩
  dsimp only
  split_ifs <;> rfl

/-- A contact keeps its key. -/
theorem getContact_nextWatched {id : Bytes} {k : Contact} (h : getContact m.client id = some k) (e : ContactEvent) :
    ∃ k', getContact (nextWatched P load sha3 m e).client id = some k' ∧ k'.keyAPubkey = k.keyAPubkey := by
  cases e with
  | client e =>
    refine ⟨k, ?_, rfl⟩
    unfold getContact at h ⊢
    unfold nextWatched
    dsimp only
    rw [nextClient_contacts]
    exact h
  | request card =>
    rw [nextWatched_request]
    exact ⟨k, h, rfl⟩
  | accept contactId =>
    unfold nextWatched
    dsimp only
    cases hr : acceptContactRequest sha3 m.client contactId with
    | error e => exact ⟨k, h, rfl⟩
    | ok r =>
      dsimp only
      rw [(acceptContactRequest_ok hr).2.1]
      exact getContact_setContactStatus h
  | decline contactId => exact getContact_setContactStatus h
  | block contactId => exact getContact_setContactStatus h
  | connect => exact ⟨k, h, rfl⟩

theorem Vouched.next {fingerprint cert ownerId : Bytes} (h : Vouched D load sha3 m.client fingerprint cert ownerId) (e : ContactEvent) :
    Vouched D load sha3 (nextWatched P load sha3 m e).client fingerprint cert ownerId := by
  obtain ⟨hfingerprint, owner, howner, hsigned⟩ := h
  obtain ⟨owner', howner', hkey⟩ := getContact_nextWatched howner e
  exact ⟨hfingerprint, owner', howner', hkey ▸ hsigned⟩

/-! ## Runs -/

/-- An intact cache stays intact exactly in a step that is vouched for. -/
theorem CacheIntact.next_iff (h : CacheIntact D load sha3 m.client) (e : ContactEvent) :
    CacheIntact D load sha3 (nextWatched P load sha3 m e).client ↔ FrameVouched D load sha3 m e := by
  constructor
  · rintro hnext p frame rfl hcaches
    have hcerts : (nextWatched P load sha3 m (.client (.present p))).client.certs = m.client.certs ++ [rowOf frame p.nowS] := hcaches.certs_eq
    have hrow := hnext.rows (rowOf frame p.nowS) (by rw [hcerts]; exact List.mem_append_right _ (List.mem_singleton_self _))
    obtain ⟨hfingerprint, owner, howner, hsigned⟩ := hrow
    refine ⟨hfingerprint, owner, ?_, hsigned⟩
    unfold getContact nextWatched at howner
    dsimp only at howner
    rw [nextClient_contacts] at howner
    exact howner
  · intro hframe
    refine CacheIntact.of_rows ?_
    intro k hk
    rcases certs_nextWatched P load sha3 m e with hsame | ⟨p, frame, rfl, hcaches⟩
    · rw [hsame] at hk
      exact (h.rows k hk).next e
    · have hcerts : (nextWatched P load sha3 m (.client (.present p))).client.certs = m.client.certs ++ [rowOf frame p.nowS] := hcaches.certs_eq
      rw [hcerts] at hk
      rcases List.mem_append.mp hk with hold | hnew
      · exact (h.rows k hold).next _
      · rw [List.mem_singleton.mp hnew]
        exact (hframe p frame rfl hcaches).next _

/-- In a run from an empty cache, the cache is intact in every state exactly if every frame whose certificate is cached is
vouched for. -/
theorem cache_intact_iff (D : Dsa Sig) (P : Primitives wire) (load : Bytes → Option Item) (sha3 : Bytes → ByteArr 32) {m : Watched}
    (hempty : m.client.certs = []) (es : List ContactEvent) :
    Along (nextWatched P load sha3) (fun m e => CacheIntact D load sha3 (nextWatched P load sha3 m e).client) m es ↔
      Along (nextWatched P load sha3) (FrameVouched D load sha3) m es := by
  refine along_iff (fun m => CacheIntact D load sha3 m.client) (fun m e h => h.next_iff e) (fun m e _ h => h) ?_ es
  refine CacheIntact.of_rows ?_
  intro k hk
  rw [hempty] at hk
  cases hk

/-! ## A certificate and where it is put -/

theorem filter_fillSignature (sig : Bytes) (kvs : List (Item × Item)) :
    (fillSignature sig kvs).filter (fun kv => ¬textKey kv.1 "signature") = kvs.filter (fun kv => ¬textKey kv.1 "signature") := by
  induction kvs with
  | nil => rfl
  | cons kv kvs ih =>
    obtain ⟨k, v⟩ := kv
    unfold fillSignature
    by_cases hkey : textKey k "signature" = true
    · simp [hkey]
    · rw [if_neg hkey, List.filter_cons, List.filter_cons, ih]

/-- What `issue_auth_cert` makes is signed. -/
theorem certSigned_issueAuthCert (hdsa : D.Correct) (hload : Loads load) (a : ByteArr 32) (keyC : ByteArr 1952) (deviceType deviceLabel : Bytes)
    (nowS : Int64) (seed : ByteArr 32) :
    CertSigned D load (D.keygen a).pub.toList
      (issueAuthCert D sha3 (D.keygen a).priv (D.keygen a).pub keyC deviceType deviceLabel nowS seed) := by
  refine ⟨_, D.sign (D.keygen a).priv (cborMapWithoutSig (authCertMap sha3 (D.keygen a).pub keyC deviceType deviceLabel nowS)) seed,
    hload.load_encode _, ?_, ?_⟩
  · simp [authCertMap, mapAddBytes, mapAddStr, mapAddUint, DefMap.add_pairs, fillSignature, lastField, lastWith, asBytes, hdsa.ofBytes_toBytes]
  · rw [filter_fillSignature, fit_toList]
    exact hdsa.verify_sign _ _ _

/-- A frame with a certificate and nothing else. -/
def certFrame (senderId fingerprint cert : Bytes) : Bytes :=
  encode (.map [(.text (ascii "sender_id"), .bytes senderId), (.text (ascii "cert_fingerprint"), .bytes fingerprint),
    (.text (ascii "sender_outbox_auth_cert"), .bytes cert)])

theorem decode_certFrame (hload : Loads load) {junk : Uninit} (hjunk : junk.EndsKeys) (senderId fingerprint cert : Bytes) :
    decodeDeliveryFrame load junk (certFrame senderId fingerprint cert) = .ok
      { messageId := [], persistence := [], senderId := senderId, certFingerprint := fingerprint, senderOutboxCert := cert, envelopeType := [],
        encryptedEnvelope := [] } := by
  have hmap := hload.load_encode (.map [(.text (ascii "sender_id"), .bytes senderId), (.text (ascii "cert_fingerprint"), .bytes fingerprint),
    (.text (ascii "sender_outbox_auth_cert"), .bytes cert)])
  unfold certFrame
  rw [decodeDeliveryFrame_of_plain hjunk hmap (by simpa [plainKey] using by decide)]
  simp [frameOfTexts, lastField, lastWith]

end Cache

def certOwner (n : UInt8) (name : String) : Contact :=
  ⟨bytesToHex (fit 32 (idealDsa.keygen (fit 32 [n])).pub.toList).toList, ascii name, (idealDsa.keygen (fit 32 [n])).pub.toList, ascii "active"⟩

/-- A client with Alice and Mallory for contacts. -/
def newCache : Watched := ⟨⟨⟨[], []⟩, [certOwner 1 "Alice", certOwner 2 "Mallory"], [], {}⟩, []⟩

def alicesCert : Bytes :=
  issueAuthCert idealDsa (fit 32) (idealDsa.keygen (fit 32 [1])).priv (idealDsa.keygen (fit 32 [1])).pub (fit 1952 [3]) (ascii "outbox")
    (ascii "outbox") 0 (fit 32 [])

def certFrom (n : UInt8) (cert : Bytes) : ContactEvent :=
  .client (.present ⟨[], certFrame (fit 32 (idealDsa.keygen (fit 32 [n])).pub.toList).toList (fit 32 alicesCert).toList cert, zeroed, 0, 0⟩)

theorem certFrom_decoded (n : UInt8) (cert : Bytes) {p : Presentation} {frame : DeliveryFrame} (he : certFrom n cert = .client (.present p))
    (h : decodeDeliveryFrame Cbor.load p.junk p.frame = .ok frame) :
    frame.senderId = (fit 32 (idealDsa.keygen (fit 32 [n])).pub.toList).toList ∧ frame.certFingerprint = (fit 32 alicesCert).toList ∧
      frame.senderOutboxCert = cert := by
  injection he with he
  injection he with he
  subst he
  rw [decode_certFrame load_loads endsKeys_zeroed] at h
  cases h
  exact ⟨rfl, rfl, rfl⟩

/-- Alice's certificate, from Alice. -/
theorem cache_intact_iff_alice :
    Along (nextWatched counting Cbor.load (fit 32))
      (fun m e => CacheIntact idealDsa Cbor.load (fit 32) (nextWatched counting Cbor.load (fit 32) m e).client) newCache [certFrom 1 alicesCert] := by
  refine (cache_intact_iff idealDsa counting Cbor.load (fit 32) rfl [certFrom 1 alicesCert]).mpr ⟨?_, trivial⟩
  intro p frame he hcaches
  obtain ⟨hsender, hprint, hcert⟩ := certFrom_decoded 1 alicesCert he hcaches.decoded
  rw [hsender, hprint, hcert]
  exact ⟨rfl, certOwner 1 "Alice", List.find?_cons_of_pos (decide_eq_true rfl), certSigned_issueAuthCert idealDsa_exact.toCorrect load_loads _ _ _ _ _ _⟩

theorem alicesCert_head : ∃ rest, alicesCert = 168 :: rest := by
  unfold alicesCert issueAuthCert signCert
  rw [encode]
  have hlength : (fillSignature (idealDsa.toBytes (idealDsa.sign (idealDsa.keygen (fit 32 [1])).priv (cborMapWithoutSig
      (authCertMap (fit 32) (idealDsa.keygen (fit 32 [1])).pub (fit 1952 [3]) (ascii "outbox") (ascii "outbox") 0)) (fit 32 [])))
      (authCertMap (fit 32) (idealDsa.keygen (fit 32 [1])).pub (fit 1952 [3]) (ascii "outbox") (ascii "outbox") 0).pairs).length = 8 := by
    simp [authCertMap, mapAddBytes, mapAddStr, mapAddUint, DefMap.add_pairs, fillSignature]
  rw [hlength]
  exact ⟨_, rfl⟩

/-- Mallory puts something of her own under the fingerprint of Alice's certificate. -/
theorem not_cacheIntact_mallory :
    ¬CacheIntact idealDsa Cbor.load (fit 32) (nextWatched counting Cbor.load (fit 32) newCache (certFrom 2 [0])).client := by
  have hempty : CacheIntact idealDsa Cbor.load (fit 32) newCache.client := CacheIntact.of_rows (fun k hk => absurd hk List.not_mem_nil)
  rw [hempty.next_iff]
  intro h
  have hframe := decode_certFrame load_loads endsKeys_zeroed (fit 32 (idealDsa.keygen (fit 32 [2])).pub.toList).toList (fit 32 alicesCert).toList [0]
  have hvouched := h _ _ rfl ⟨hframe, by decide, rfl, by decide⟩
  have hprint : (fit 32 alicesCert).toList = (fit 32 [0]).toList := hvouched.fingerprint_eq
  obtain ⟨rest, hrest⟩ := alicesCert_head
  rw [hrest] at hprint
  exact absurd (List.cons.inj hprint).1 (by decide)

end ScatterWeb.Client
