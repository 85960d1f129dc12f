import ScatterWeb.Client.Contacts
import ScatterWeb.Crypto.Signature
import ScatterWeb.Lib.Base64

/-! # Contact cards

A card is a signed CBOR map in a URI. What is read back is what was put into it, if the name has no NUL; the signature is not
looked at. -/
namespace ScatterWeb.Client
open Crypto Lib Lib.Cbor Mailbox
set_option autoImplicit false

/-- `ContactCard` of `cert.hpp` with the field that the contact list does not need. -/
structure DecodedCard extends ContactCard where
  createdAt : Int64

def cardPrefix : Bytes := ascii "scatterweb://contact/"

/-- A byte string of the given size. -/
def asSized (n : ℕ) : Item → Option (ByteArr n)
  | .bytes b => if h : b.length = n then some (toArr b h) else none
  | _ => none

/-- The last pair wins, with a key of any type. -/
def cardField {α : Type} (read : Item → Option α) (kvs : List (Item × Item)) (key : String) : Option α :=
  lastWith (fun k => cborKeyEq k key) read kvs

section Codec
variable {Sig : Type} (D : Dsa Sig) (load : Bytes → Option Item)

/-- The version, both keys, the name and the time are signed. -/
def cardToSign (keyAPub : Bytes) (crKeyBKemPub : ByteArr 1184) (displayName : Bytes) (nowS : Int64) : Bytes :=
  1 :: (keyAPub ++ crKeyBKemPub.toList ++ displayName ++ be 8 nowS.toUInt64.toNat)

def contactCardMap (keyAPriv : ByteArr 4032) (keyAPub : Bytes) (crKeyBKemPub : ByteArr 1184) (displayName : Bytes) (nowS : Int64)
    (seed : ByteArr 32) : DefMap :=
  let root := DefMap.new 6
  let root := mapAddUint root "version" 1
  let root := mapAddBytes root "key_a_pubkey" keyAPub
  let root := mapAddBytes root "cr_key_b_kem_pubkey" crKeyBKemPub.toList
  let root := mapAddStr root "display_name" displayName
  let root := mapAddUint root "created_at" nowS.toUInt64
  mapAddBytes root "signature" (D.toBytes (D.sign keyAPriv (cardToSign keyAPub crKeyBKemPub displayName nowS) seed))

def encodeContactCard (keyAPriv : ByteArr 4032) (keyAPub : Bytes) (crKeyBKemPub : ByteArr 1184) (displayName : Bytes) (nowS : Int64)
    (seed : ByteArr 32) : Bytes :=
  cardPrefix ++ Base64.encode (cborSer (contactCardMap D keyAPriv keyAPub crKeyBKemPub displayName nowS seed))

/-- A key of another size leaves the zeros that the card starts with. `behind` is what stands in memory behind the time. -/
def cardOfPairs (behind : UInt64) (kvs : List (Item × Item)) : DecodedCard where
  displayName := (cardField asText kvs "display_name").getD []
  keyAPubkey := ((cardField (asSized 1952) kvs "key_a_pubkey").getD (fit 1952 [])).toList
  crKeyBKemPubkey := (cardField (asSized 1184) kvs "cr_key_b_kem_pubkey").getD (fit 1184 [])
  createdAt := (((cardField asUint kvs "created_at").map (cborGetUint64 behind)).getD 0).toInt64

def decodeContactCard (behind : UInt64) (uri : Bytes) : Option DecodedCard :=
  if uri.take cardPrefix.length ≠ cardPrefix then none
  else
    match Base64.decode (uri.drop cardPrefix.length) with
    | none => none
    | some bin =>
      match load bin with
      | some (.map kvs) => some (cardOfPairs behind kvs)
      | _ => none

variable {D load}

theorem contactCardMap_pairs (keyAPriv : ByteArr 4032) (keyAPub : Bytes) (crKeyBKemPub : ByteArr 1184) (displayName : Bytes) (nowS : Int64)
    (seed : ByteArr 32) : (contactCardMap D keyAPriv keyAPub crKeyBKemPub displayName nowS seed).pairs =
    ([(.text (ascii "version"), .uint (.a64 1)), (.text (ascii "key_a_pubkey"), .bytes keyAPub),
      (.text (ascii "cr_key_b_kem_pubkey"), .bytes crKeyBKemPub.toList), (.text (ascii "display_name"), .text (cStr displayName)),
      (.text (ascii "created_at"), .uint (.a64 nowS.toUInt64)),
      (.text (ascii "signature"), .bytes (D.toBytes (D.sign keyAPriv (cardToSign keyAPub crKeyBKemPub displayName nowS) seed)))] :
        List (Item × Item)) := by
  simp [contactCardMap, mapAddUint, mapAddStr, mapAddBytes, DefMap.add_pairs]

theorem asSized_bytes {n : ℕ} {b : Bytes} (h : b.length = n) : asSized n (.bytes b) = some (toArr b h) := dif_pos h

/-- The card of a client, as another one reads it. -/
theorem decodeContactCard_encodeContactCard (hload : Loads load) (behind : UInt64) (keyAPriv : ByteArr 4032) {keyAPub : Bytes}
    (hkey : keyAPub.length = 1952) (crKeyBKemPub : ByteArr 1184) {displayName : Bytes} (hname : 0 ∉ displayName) (nowS : Int64) (seed : ByteArr 32) :
    decodeContactCard load behind (encodeContactCard D keyAPriv keyAPub crKeyBKemPub displayName nowS seed) =
      some { displayName := displayName, keyAPubkey := keyAPub, crKeyBKemPubkey := crKeyBKemPub, createdAt := nowS } := by
  have hcr : crKeyBKemPub.toList.length = 1184 := crKeyBKemPub.toList_length
  unfold decodeContactCard encodeContactCard cborSer
  rw [List.take_left, if_neg (not_not.mpr rfl), List.drop_left, Base64.decode_encode]
  dsimp only
  rw [hload.load_encode]
  unfold DefMap.item
  rw [contactCardMap_pairs]
  dsimp only
  refine congrArg some ?_
  unfold cardOfPairs cardField lastWith
  simp [asSized_bytes hkey, asSized_bytes hcr, cStr_of_nulFree hname]
  exact ⟨rfl, rfl⟩

/-- What `sodium_bin2base64` writes into the buffer: the characters and a NUL. -/
def bin2base64 (bin : Bytes) : Bytes := Base64.encode bin ++ [0]

/-- The NUL at the end is taken off. -/
def trimNul (b64 : Bytes) : Bytes := if b64.getLast? = some 0 then b64.dropLast else b64

/-- No character is lost with the NUL. -/
theorem encodeContactCard_trimNul (keyAPriv : ByteArr 4032) (keyAPub : Bytes) (crKeyBKemPub : ByteArr 1184) (displayName : Bytes) (nowS : Int64)
    (seed : ByteArr 32) : encodeContactCard D keyAPriv keyAPub crKeyBKemPub displayName nowS seed =
      cardPrefix ++ trimNul (bin2base64 (cborSer (contactCardMap D keyAPriv keyAPub crKeyBKemPub displayName nowS seed))) := by
  have htrim : ∀ bin, trimNul (bin2base64 bin) = Base64.encode bin := by
    intro bin
    simp [trimNul, bin2base64]
  rw [htrim]
  rfl

/-- What is put on a card is read from it, and nothing is read from a text without the prefix. -/
theorem contact_card_round_trip (hload : Loads load) (behind : UInt64) (keyAPriv : ByteArr 4032) (keyAPub : ByteArr 1952) (crKeyBKemPub : ByteArr 1184)
    {displayName : Bytes} (hname : 0 ∉ displayName) (createdAt : Int64) (seed : ByteArr 32) :
    decodeContactCard load behind (encodeContactCard D keyAPriv keyAPub.toList crKeyBKemPub displayName createdAt seed) =
        some { displayName := displayName, keyAPubkey := keyAPub.toList, crKeyBKemPubkey := crKeyBKemPub, createdAt := createdAt } ∧
      ∀ uri, ¬cardPrefix <+: uri → decodeContactCard load behind uri = none := by
  refine ⟨decodeContactCard_encodeContactCard hload behind keyAPriv keyAPub.toList_length crKeyBKemPub hname createdAt seed, ?_⟩
  intro uri hprefix
  unfold decodeContactCard
  rw [if_pos]
  intro htake
  exact hprefix (htake ▸ List.take_prefix _ _)

end Codec

theorem contact_card_round_trip_alice :
    decodeContactCard Cbor.load 0 (encodeContactCard idealDsa (idealDsa.keygen (fit 32 [1])).priv (idealDsa.keygen (fit 32 [1])).pub.toList (fit 1184 [2])
        (ascii "Alice") 1700000000 (fit 32 [])) =
      some { displayName := ascii "Alice", keyAPubkey := (idealDsa.keygen (fit 32 [1])).pub.toList, crKeyBKemPubkey := fit 1184 [2],
             createdAt := 1700000000 } :=
  (contact_card_round_trip Cbor.load_loads 0 (idealDsa.keygen (fit 32 [1])).priv (idealDsa.keygen (fit 32 [1])).pub (fit 1184 [2])
    (by decide) 1700000000 (fit 32 [])).1

end ScatterWeb.Client
