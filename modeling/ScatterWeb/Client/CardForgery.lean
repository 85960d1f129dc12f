import ScatterWeb.Client.Establish
import ScatterWeb.Client.Purposes

/-! # Contact cards that were changed on the way

`encode_contact_card` signs what is on a card, and there is a `verify_contact_card`, which nobody calls: `decode_contact_card`
takes every map for a card, with zeros for a key that is missing. So whatever is changed or left out on a card, no request is
refused for it. -/
namespace ScatterWeb.Client
open Crypto Lib Lib.Cbor Ratchet Mailbox
set_option autoImplicit false

/-- The URI of a map. -/
def cardUri (kvs : List (Item × Item)) : Bytes := cardPrefix ++ Base64.encode (encode (.map kvs))

/-- Each field keeps its value, gets another one or is left out. -/
def alter (f : Item × Item → Option Item) (kvs : List (Item × Item)) : List (Item × Item) :=
  kvs.filterMap (fun kv => (f kv).map (fun v => (kv.1, v)))

/-- Another key under `"cr_key_b_kem_pubkey"`. -/
def swapKem (kem : ByteArr 1184) (kv : Item × Item) : Option Item :=
  if cborKeyEq kv.1 "cr_key_b_kem_pubkey" then some (.bytes kem.toList) else some kv.2

section Cards
variable {Sig : Type} (D : Dsa Sig) (load : Bytes → Option Item) (behind : UInt64)

def verifyContactCard (card : DecodedCard) (rawSig signedBytes : Bytes) : Bool :=
  match D.ofBytes rawSig with
  | none => false
  | some sig => D.verify (fit 1952 card.keyAPubkey) signedBytes sig

/-- The map has every field of a card, and a signature of the key on it for these fields. -/
structure SignedCard (kvs : List (Item × Item)) (keyA : ByteArr 1952) (kem : ByteArr 1184) (displayName : Bytes) (createdAt : UInt64)
    (rawSig : Bytes) : Prop where
  version_eq : (cardField asUint kvs "version").map Arg.toNat = some 1
  keyA_eq : cardField (asSized 1952) kvs "key_a_pubkey" = some keyA
  kem_eq : cardField (asSized 1184) kvs "cr_key_b_kem_pubkey" = some kem
  displayName_eq : cardField asText kvs "display_name" = some displayName
  createdAt_eq : (cardField asUint kvs "created_at").map Arg.toNat = some createdAt.toNat
  rawSig_eq : cardField asBytes kvs "signature" = some rawSig
  signed : verifyContactCard D (cardOfPairs behind kvs) rawSig (cardToSign keyA.toList kem displayName createdAt.toInt64) = true

def Authentic (kvs : List (Item × Item)) : Prop := ∃ keyA kem displayName createdAt rawSig, SignedCard D behind kvs keyA kem displayName createdAt rawSig

/-- Nobody can change the card: what is accepted is authentic, and every other map is rejected. -/
structure Protected (kvs : List (Item × Item)) : Prop where
  authentic : ∀ f, (decodeContactCard load behind (cardUri (alter f kvs))).isSome → Authentic D behind (alter f kvs)
  rejected : ∀ f, alter f kvs ≠ kvs → decodeContactCard load behind (cardUri (alter f kvs)) = none

/-- The map of the card that a Key A was asked for. -/
def issuedCard (a : ByteArr 32) (kem : ByteArr 1184) (displayName : Bytes) (nowS : Int64) (seed : ByteArr 32) : List (Item × Item) :=
  (contactCardMap D (D.keygen a).priv (D.keygen a).pub.toList kem displayName nowS seed).pairs

variable {D load} {behind : UInt64}

theorem encodeContactCard_eq (a : ByteArr 32) (kem : ByteArr 1184) (displayName : Bytes) (nowS : Int64) (seed : ByteArr 32) :
    encodeContactCard D (D.keygen a).priv (D.keygen a).pub.toList kem displayName nowS seed = cardUri (issuedCard D a kem displayName nowS seed) := rfl

/-- Any map is a card. -/
theorem decodeContactCard_cardUri (hload : Loads load) (behind : UInt64) (kvs : List (Item × Item)) :
    decodeContactCard load behind (cardUri kvs) = some (cardOfPairs behind kvs) := by
  unfold decodeContactCard cardUri
  rw [List.take_left, if_neg (not_not.mpr rfl), List.drop_left, Base64.decode_encode]
  dsimp only
  rw [hload.load_encode]

theorem request_goes_on (hload : Loads load) (P : Primitives wire) (sha3 : Bytes → ByteArr 32) (p : Party) (env : RequestEnv)
    (kvs : List (Item × Item)) : (Party.sendContactRequest P load sha3 p env (cardUri kvs)).2 ≠ .error .invalidCard := by
  intro hinvalid
  rw [sendContactRequest_error, decodeContactCard_cardUri hload] at hinvalid
  unfold sendContactRequest at hinvalid
  dsimp only [Option.map_some] at hinvalid
  split_ifs at hinvalid with hknown
  · cases hinvalid
  cases hkey : getKeyA p.client.session with
  | none =>
    rw [hkey] at hinvalid
    cases hinvalid
  | some pub =>
    rw [hkey] at hinvalid
    dsimp only at hinvalid
    split_ifs at hinvalid with hself
    · cases hinvalid
    · rw [insertContact_pendingContact _ (Option.not_isSome_iff_eq_none.mp hknown)] at hinvalid
      cases hinvalid

theorem alter_swapKem (a : ByteArr 32) (kem kem' : ByteArr 1184) (displayName : Bytes) (nowS : Int64) (seed : ByteArr 32) :
    alter (swapKem kem') (issuedCard D a kem displayName nowS seed) =
      [(.text (ascii "version"), .uint (.a64 1)), (.text (ascii "key_a_pubkey"), .bytes (D.keygen a).pub.toList),
        (.text (ascii "cr_key_b_kem_pubkey"), .bytes kem'.toList), (.text (ascii "display_name"), .text (cStr displayName)),
        (.text (ascii "created_at"), .uint (.a64 nowS.toUInt64)),
        (.text (ascii "signature"), .bytes (D.toBytes (D.sign (D.keygen a).priv
          (cardToSign (D.keygen a).pub.toList kem displayName nowS) seed)))] := by
  unfold issuedCard
  rw [contactCardMap_pairs]
  simp [alter, swapKem]

theorem swapKem_fields (a : ByteArr 32) (kem kem' : ByteArr 1184) (displayName : Bytes) (nowS : Int64) (seed : ByteArr 32) :
    let kvs := alter (swapKem kem') (issuedCard D a kem displayName nowS seed)
    cardField (asSized 1952) kvs "key_a_pubkey" = some (D.keygen a).pub ∧
      cardField (asSized 1184) kvs "cr_key_b_kem_pubkey" = some kem' ∧
      cardField asBytes kvs "signature" =
        some (D.toBytes (D.sign (D.keygen a).priv (cardToSign (D.keygen a).pub.toList kem displayName nowS) seed)) := by
  have hpub : asSized 1952 (.bytes (D.keygen a).pub.toList) = some (D.keygen a).pub := asSized_bytes (List.Vector.toList_length _)
  have hkem : asSized 1184 (.bytes kem'.toList) = some kem' := asSized_bytes (List.Vector.toList_length _)
  dsimp only
  rw [alter_swapKem]
  refine ⟨?_, ?_, ?_⟩
  · simp [cardField, lastWith, hpub]
  · simp [cardField, lastWith, hkem]
  · simp [cardField, lastWith]

/-- With another key for requests on it, the signature is still the one for the old key. -/
theorem not_authentic_swapKem (hdsa : D.Exact) (behind : UInt64) (a : ByteArr 32) {kem kem' : ByteArr 1184} (hne : kem' ≠ kem)
    (displayName : Bytes) (nowS : Int64) (seed : ByteArr 32) : ¬Authentic D behind (alter (swapKem kem') (issuedCard D a kem displayName nowS seed)) := by
  rintro ⟨keyA, kem₁, name, createdAt, rawSig, h⟩
  obtain ⟨hkeyA, hkem, hsig⟩ := swapKem_fields (D := D) a kem kem' displayName nowS seed
  obtain rfl := Option.some.inj (hkeyA.symm.trans h.keyA_eq)
  obtain rfl := Option.some.inj (hkem.symm.trans h.kem_eq)
  obtain rfl := Option.some.inj (hsig.symm.trans h.rawSig_eq)
  have hsigned := h.signed
  unfold verifyContactCard cardOfPairs at hsigned
  rw [hkeyA, hdsa.ofBytes_toBytes] at hsigned
  dsimp only [Option.getD_some] at hsigned
  rw [fit_toList] at hsigned
  have hsame := (hdsa.same_inputs hsigned).2
  have hcard := Payload.eq_of_bytes (p := .card (D.keygen a).pub kem' name createdAt.toInt64) (q := .card (D.keygen a).pub kem displayName nowS) rfl hsame
  injection hcard with _ hkem
  exact hne hkem

theorem exists_kem_ne (kem : ByteArr 1184) : ∃ kem' : ByteArr 1184, kem' ≠ kem := by
  by_cases h : kem = fit 1184 [1]
  · refine ⟨fit 1184 [2], ?_⟩
    rw [h]
    decide
  · exact ⟨fit 1184 [1], Ne.symm h⟩

theorem alter_swapKem_ne (a : ByteArr 32) {kem kem' : ByteArr 1184} (hne : kem' ≠ kem) (displayName : Bytes) (nowS : Int64) (seed : ByteArr 32) :
    alter (swapKem kem') (issuedCard D a kem displayName nowS seed) ≠ issuedCard D a kem displayName nowS seed := by
  intro h
  rw [alter_swapKem] at h
  unfold issuedCard at h
  rw [contactCardMap_pairs] at h
  simp only [List.cons.injEq, Prod.mk.injEq, Item.bytes.injEq] at h
  exact hne (Payload.toList_inj h.2.2.1.2)

/-- Whoever issued the card and whatever is on it: changed or with fields left out it is still accepted, also where the signature
does not fit. -/
theorem card_never_protected (hdsa : D.Exact) (hload : Loads load) (P : Primitives wire) (sha3 : Bytes → ByteArr 32) (behind : UInt64)
    (a : ByteArr 32) (kem : ByteArr 1184) (displayName : Bytes) (nowS : Int64) (seed : ByteArr 32) :
    (∀ f p env, (Party.sendContactRequest P load sha3 p env (cardUri (alter f (issuedCard D a kem displayName nowS seed)))).2 ≠ .error .invalidCard) ∧
      (∃ f, (decodeContactCard load behind (cardUri (alter f (issuedCard D a kem displayName nowS seed)))).isSome ∧
        ¬Authentic D behind (alter f (issuedCard D a kem displayName nowS seed))) ∧
      ¬Protected D load behind (issuedCard D a kem displayName nowS seed) := by
  obtain ⟨kem', hne⟩ := exists_kem_ne kem
  have haccepted := decodeContactCard_cardUri hload behind (alter (swapKem kem') (issuedCard D a kem displayName nowS seed))
  refine ⟨?_, ⟨swapKem kem', ?_, not_authentic_swapKem hdsa behind a hne displayName nowS seed⟩, ?_⟩
  · intro f p env
    exact request_goes_on hload P sha3 p env _
  · rw [haccepted]
    rfl
  · intro h
    have hnone := h.rejected (swapKem kem') (alter_swapKem_ne a hne displayName nowS seed)
    rw [haccepted] at hnone
    cases hnone

end Cards

/-- Alice's card, on which somebody has put another key. -/
def alicesCardSwapped : List (Item × Item) := alter (swapKem (fit 1184 [9])) (issuedCard idealDsa (fit 32 [1]) (fit 1184 [1]) (ascii "Alice") 0 (fit 32 []))

theorem card_never_protected_alice : ¬Protected idealDsa Cbor.load 0 (issuedCard idealDsa (fit 32 [1]) (fit 1184 [1]) (ascii "Alice") 0 (fit 32 [])) :=
  (card_never_protected idealDsa_exact load_loads counting (fit 32) 0 (fit 32 [1]) (fit 1184 [1]) (ascii "Alice") 0 (fit 32 [])).2.2

theorem not_authentic_alicesCardSwapped :
    decodeContactCard Cbor.load 0 (cardUri alicesCardSwapped) = some (cardOfPairs 0 alicesCardSwapped) ∧ ¬Authentic idealDsa 0 alicesCardSwapped :=
  ⟨decodeContactCard_cardUri load_loads 0 _, not_authentic_swapKem idealDsa_exact 0 (fit 32 [1]) (by decide) (ascii "Alice") 0 (fit 32 [])⟩

end ScatterWeb.Client
