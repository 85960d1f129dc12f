import ScatterWeb.Client.Fields
import ScatterWeb.Crypto.Symbolic
import ScatterWeb.Ratchet.Model

/-! # Ratchet envelopes

`encrypt_ratchet_envelope` puts a ratchet message into a CBOR map, `decrypt_ratchet_envelope` reads
one back. The map has room for seven pairs and gets eight or, with a KEM ciphertext, nine, so the
last ones are lost; `prev_count` is not put in at all. The reader leaves the arrays that it finds no bytes
for as they are, and these are not initialised: their content is a parameter. -/
namespace ScatterWeb.Client
open Crypto Lib Lib.Cbor Ratchet
set_option autoImplicit false

/-- What the receiver finds in memory that it has not written: in the arrays that `decrypt_ratchet_envelope` does not initialise,
behind an integer of fewer than eight bytes that it reads as `uint64_t`, and behind the keys of a delivery frame, which it takes for
C strings. The pointer of a key that is no string and no integer leads anywhere, or is null. -/
structure Uninit where
  senderRatchetPub : ByteArr 1184
  nonce : ByteArr 12
  tag : ByteArr 16
  behindField : String → UInt64
  behindKey : ℕ → Bytes
  foreignKey : ℕ → Option Bytes

inductive EnvelopeError
  | invalid
  /-- `cbor_map_handle` of an item that is not a map: undefined. -/
  | notMap
  deriving DecidableEq

def EnvelopeError.what : EnvelopeError → String
  | .invalid => "invalid ratchet envelope"
  | .notMap => ""

def ratchetEnvelope (msg : Message wire) : DefMap :=
  let root := DefMap.new 7
  let root := mapAddUint root "version" 1
  let root := mapAddStr root "envelope_type" (ascii "ratchet")
  let root := mapAddUint root "epoch" msg.header.epoch.toUInt64
  let root := mapAddUint root "msg_num" msg.header.msgNum.toUInt64
  let root := mapAddBytes root "sender_ratchet_pub" msg.header.senderRatchetPub.toList
  let root := match msg.header.kemCt with
    | some ct => mapAddBytes root "kem_ct" ct.toList
    | none => root
  let root := mapAddBytes root "iv" msg.nonce.toList
  let root := mapAddBytes root "ciphertext" msg.ciphertext
  mapAddBytes root "tag" msg.tag.toList

/-- The bytes that `encrypt_ratchet_envelope` returns for the message of `RatchetManager::encrypt`. -/
def encryptRatchetEnvelope (msg : Message wire) : Bytes := cborSer (ratchetEnvelope msg)

def ratchetMessage (junk : Uninit) (kvs : List (Item × Item)) : Message wire where
  header :=
    { epoch := (cborGetFieldUint junk.behindField kvs "epoch").toUInt32
      msgNum := (cborGetFieldUint junk.behindField kvs "msg_num").toUInt32
      prevCount := 0
      senderRatchetPub := copyInto junk.senderRatchetPub (cborGetFieldBytes kvs "sender_ratchet_pub")
      kemCt :=
        if h : (cborGetFieldBytes kvs "kem_ct").length = 1088 then some (toArr (cborGetFieldBytes kvs "kem_ct") h) else none }
  nonce := copyInto junk.nonce (cborGetFieldBytes kvs "iv")
  ciphertext := cborGetFieldBytes kvs "ciphertext"
  tag := copyInto junk.tag (cborGetFieldBytes kvs "tag")

/-- The message that `decrypt_ratchet_envelope` passes to `RatchetManager::decrypt`. -/
def decryptRatchetEnvelope (load : Bytes → Option Item) (junk : Uninit) (envelope : Bytes) :
    Except EnvelopeError (Message wire) :=
  match load envelope with
  | none => .error .invalid
  | some (.map kvs) => .ok (ratchetMessage junk kvs)
  | some _ => .error .notMap

/-! ## What survives -/

theorem ratchetEnvelope_pairs_none (msg : Message wire) (h : msg.header.kemCt = none) : (ratchetEnvelope msg).pairs =
    [(.text (ascii "version"), .uint (.a64 1)), (.text (ascii "envelope_type"), .text (cStr (ascii "ratchet"))),
      (.text (ascii "epoch"), .uint (.a64 msg.header.epoch.toUInt64)),
      (.text (ascii "msg_num"), .uint (.a64 msg.header.msgNum.toUInt64)),
      (.text (ascii "sender_ratchet_pub"), .bytes msg.header.senderRatchetPub.toList),
      (.text (ascii "iv"), .bytes msg.nonce.toList), (.text (ascii "ciphertext"), .bytes msg.ciphertext)] := by
  simp [ratchetEnvelope, h, mapAddUint, mapAddStr, mapAddBytes, DefMap.add_pairs]

theorem ratchetEnvelope_pairs_some (msg : Message wire) {ct : ByteArr 1088} (h : msg.header.kemCt = some ct) :
    (ratchetEnvelope msg).pairs =
    [(.text (ascii "version"), .uint (.a64 1)), (.text (ascii "envelope_type"), .text (cStr (ascii "ratchet"))),
      (.text (ascii "epoch"), .uint (.a64 msg.header.epoch.toUInt64)),
      (.text (ascii "msg_num"), .uint (.a64 msg.header.msgNum.toUInt64)),
      (.text (ascii "sender_ratchet_pub"), .bytes msg.header.senderRatchetPub.toList),
      (.text (ascii "kem_ct"), .bytes ct.toList), (.text (ascii "iv"), .bytes msg.nonce.toList)] := by
  simp [ratchetEnvelope, h, mapAddUint, mapAddStr, mapAddBytes, DefMap.add_pairs]

/-- The tag never survives, `prev_count` becomes 0, and a KEM ciphertext displaces the body. -/
theorem ratchetMessage_ratchetEnvelope (junk : Uninit) (msg : Message wire) :
    ratchetMessage junk (ratchetEnvelope msg).pairs =
      { msg with
        header := { msg.header with prevCount := 0 }
        ciphertext := if msg.header.kemCt.isSome then [] else msg.ciphertext
        tag := junk.tag } := by
  obtain ⟨⟨epoch, msgNum, prevCount, pub, kemCt⟩, nonce, ciphertext, tag⟩ := msg
  have htag : ∀ b : Bytes, b = [] → copyInto junk.tag b = junk.tag := by
    rintro b rfl
    exact copyInto_of_ne junk.tag (by decide)
  have hpub := copyInto_toList junk.senderRatchetPub pub
  have hnonce := copyInto_toList junk.nonce nonce
  cases kemCt with
  | none =>
    unfold ratchetMessage
    rw [ratchetEnvelope_pairs_none _ rfl]
    simp [cborGetFieldUint, cborGetFieldBytes, getField, hpub, hnonce, htag]
  | some ct =>
    have hct := List.Vector.toList_length ct
    unfold ratchetMessage
    rw [ratchetEnvelope_pairs_some _ rfl]
    simp [cborGetFieldUint, cborGetFieldBytes, getField, hpub, hnonce, htag, hct]
    rfl

/-- The envelope gives the message back exactly when the lost fields do not matter. -/
theorem ratchet_envelope_round_trip_iff {load : Bytes → Option Item} (hload : Loads load) (junk : Uninit)
    (msg : Message wire) :
    decryptRatchetEnvelope load junk (encryptRatchetEnvelope msg) = .ok msg ↔
      junk.tag = msg.tag ∧ msg.header.prevCount = 0 ∧ (msg.header.kemCt = none ∨ msg.ciphertext = []) := by
  have hread : decryptRatchetEnvelope load junk (encryptRatchetEnvelope msg) =
      .ok (ratchetMessage junk (ratchetEnvelope msg).pairs) := by
    unfold decryptRatchetEnvelope encryptRatchetEnvelope cborSer
    rw [hload.load_encode]
    rfl
  rw [hread, ratchetMessage_ratchetEnvelope]
  refine ⟨fun h => ?_, ?_⟩
  · have hmsg := Except.ok.inj h
    have hprev := congrArg (fun m => m.header.prevCount) hmsg
    have hbody := congrArg Message.ciphertext hmsg
    refine ⟨congrArg Message.tag hmsg, hprev.symm, ?_⟩
    cases hk : msg.header.kemCt with
    | none => exact Or.inl rfl
    | some ct =>
      rw [hk, Option.isSome_some, if_pos rfl] at hbody
      exact Or.inr hbody.symm
  · rintro ⟨htag, hprev, hbody⟩
    have hct : (if msg.header.kemCt.isSome then [] else msg.ciphertext) = msg.ciphertext := by
      rcases hbody with hk | hb
      · rw [hk]
        rfl
      · rw [hb, ite_self]
    rw [hct, htag, ← hprev]

/-- Memory that happens to be zero. -/
def zeroed : Uninit where
  senderRatchetPub := List.Vector.replicate 1184 0
  nonce := List.Vector.replicate 12 0
  tag := List.Vector.replicate 16 0
  behindField _ := 0
  behindKey _ := [0]
  foreignKey _ := some [0]

/-- A session in which Bob has got nothing yet, so his next message carries a KEM ciphertext. -/
def bobState : State wire := initAsReceiver padding (fit 2400 [1]) (fit 1088 [2]) (fit 1184 [3]) (fit 1184 [4]) (fit 1184 [5]) (fit 32 [6])

def firstReplyMessage : Message wire := (encrypt padding bobState ⟨fit 32 [7], fit 32 [8], fit 12 [9]⟩ [10]).2

theorem ratchet_envelope_round_trip_iff_firstReply :
    decryptRatchetEnvelope load zeroed (encryptRatchetEnvelope firstReplyMessage) = .ok firstReplyMessage ↔
      zeroed.tag = firstReplyMessage.tag ∧ firstReplyMessage.header.prevCount = 0 ∧
        (firstReplyMessage.header.kemCt = none ∨ firstReplyMessage.ciphertext = []) :=
  ratchet_envelope_round_trip_iff load_loads zeroed firstReplyMessage

def EnvelopeFaithful (P : Primitives wire) (load : Bytes → Option Item) : Prop :=
  ∀ (junk : Uninit) (s : State wire) (coins : Coins wire) (plaintext : Bytes),
    decryptRatchetEnvelope load junk (encryptRatchetEnvelope (encrypt P s coins plaintext).2) =
      .ok (encrypt P s coins plaintext).2

/-- The first reply comes back without its body and its tag. -/
theorem not_envelopeFaithful_firstReply : ¬ EnvelopeFaithful padding load := by
  intro h
  have hread : decryptRatchetEnvelope load zeroed (encryptRatchetEnvelope firstReplyMessage) = .ok firstReplyMessage :=
    h zeroed bobState _ [10]
  unfold decryptRatchetEnvelope encryptRatchetEnvelope cborSer at hread
  rw [load_loads.load_encode] at hread
  have hmsg := Except.ok.inj hread
  rw [ratchetMessage_ratchetEnvelope] at hmsg
  have hbody : (if firstReplyMessage.header.kemCt.isSome then [] else firstReplyMessage.ciphertext) =
      firstReplyMessage.ciphertext := congrArg Message.ciphertext hmsg
  have hct : firstReplyMessage.ciphertext = [10] := rfl
  have hkem : firstReplyMessage.header.kemCt.isSome = true := rfl
  rw [if_pos hkem, hct] at hbody
  cases hbody

end ScatterWeb.Client
