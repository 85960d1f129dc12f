import Mathlib.Data.List.AList
import ScatterWeb.Crypto.Primitives

/-! # The double ratchet of `common/src/ratchet/ratchet.cpp`

`State`, `Header` and `Message` are the records of `ratchet.hpp`; counters are `uint32_t` and wrap.
The cache `skipped_keys` is a finite map from the packed pair `epoch << 32 | msg_num` to a message key.

A C++ function that takes `State&` and may throw is an `EStateM` computation: a throw keeps the
changes made to the state before it, as the reference parameter does. `encrypt` never throws
here (the wrappers throw only when a library call fails) and is a plain function of the state, the
random draws and the plaintext. -/
namespace ScatterWeb.Ratchet
open Crypto
set_option autoImplicit false

def maxSkippedKeys : ℕ := 100

structure State (C : Carriers) where
  rootKey : C.Key
  sendChainKey : C.Key
  recvChainKey : C.Key
  sendEpoch : UInt32
  recvEpoch : UInt32
  sendMsgNum : UInt32
  recvMsgNum : UInt32
  prevSendCount : UInt32
  needKemStep : Bool
  myRatchetKem : KemKeyPair C.Pub C.Priv
  peerRatchetPub : C.Pub
  skippedKeys : AList (fun _ : UInt64 => C.Key)

structure Header (C : Carriers) where
  epoch : UInt32
  msgNum : UInt32
  prevCount : UInt32
  senderRatchetPub : C.Pub
  kemCt : Option C.Ct

structure Message (C : Carriers) where
  header : Header C
  nonce : C.Nonce
  ciphertext : Bytes
  tag : C.Tag

/-- The exceptions of `decrypt`; `what` is the text of each. -/
inductive RatchetError
  | tooManySkipped
  | missingKemCt
  | pastEpoch
  | authFailed
  deriving DecidableEq

def RatchetError.what : RatchetError → String
  | .tooManySkipped => "Too many skipped messages"
  | .missingKemCt => "Missing kem_ct for new ratchet epoch"
  | .pastEpoch => "Message from past epoch without skipped key"
  | .authFailed => "AES-256-GCM authentication failed"

variable {C : Carriers}

/-! ## Key derivation -/

/-- Pack (epoch, msg_num) into a single key for the `skipped_keys` map. -/
def skipKey (epoch msgNum : UInt32) : UInt64 := (epoch.toUInt64 <<< 32) ||| msgNum.toUInt64

def messageKey (P : Primitives C) (chainKey : C.Key) : C.Key := P.kdf [.key chainKey, .label "message_key"]

def nextChainKey (P : Primitives C) (chainKey : C.Key) : C.Key := P.kdf [.key chainKey, .label "next_chain_key"]

def sendChain (P : Primitives C) (rootKey : C.Key) : C.Key := P.kdf [.key rootKey, .label "send_chain"]

def recvChain (P : Primitives C) (rootKey : C.Key) : C.Key := P.kdf [.key rootKey, .label "recv_chain"]

def ratchetStep (P : Primitives C) (rootKey : C.Key) (ss : C.SS) : C.Key :=
  P.kdf [.key rootKey, .ss ss, .label "ratchet_step"]

def ratchetInit (P : Primitives C) (prekeySs : C.SS) (senderKeyB receiverKeyB : C.Pub) : C.Key :=
  P.kdf [.ss prekeySs, .pub senderKeyB, .pub receiverKeyB, .label "ratchet_init"]

/-! ## Initialisation -/

structure InitResult (C : Carriers) where
  state : State C
  prekeyCt : C.Ct
  myRatchetPub : C.Pub

/-- `encapCoin` and `keygenCoin` are the draws of `mlkem_encapsulate` and `mlkem_keygen`. -/
def initAsSender (P : Primitives C) (peerPrekeyPub myKeyBPub peerKeyBPub : C.Pub)
    (encapCoin keygenCoin : C.Coin) : InitResult C :=
  let enc := P.kem.encapsulate peerPrekeyPub encapCoin
  let rootKey := ratchetInit P enc.2 myKeyBPub peerKeyBPub
  let kp := P.kem.keygen keygenCoin
  { state :=
      { rootKey := rootKey
        sendChainKey := sendChain P rootKey
        recvChainKey := recvChain P rootKey
        sendEpoch := 0
        recvEpoch := 0
        sendMsgNum := 0
        recvMsgNum := 0
        prevSendCount := 0
        needKemStep := false
        myRatchetKem := kp
        peerRatchetPub := peerPrekeyPub
        skippedKeys := ∅ }
    prekeyCt := enc.1
    myRatchetPub := kp.pub }

def initAsReceiver (P : Primitives C) (myPrekeyPriv : C.Priv) (prekeyCt : C.Ct)
    (senderKeyBPub myKeyBPub senderRatchetPub : C.Pub) (keygenCoin : C.Coin) : State C :=
  let prekeySs := P.kem.decapsulate myPrekeyPriv prekeyCt
  let rootKey := ratchetInit P prekeySs senderKeyBPub myKeyBPub
  -- the sender's "send_chain" is what this side receives on
  { rootKey := rootKey
    sendChainKey := recvChain P rootKey
    recvChainKey := sendChain P rootKey
    sendEpoch := 0
    recvEpoch := 0
    sendMsgNum := 0
    recvMsgNum := 0
    prevSendCount := 0
    needKemStep := true
    myRatchetKem := P.kem.keygen keygenCoin
    peerRatchetPub := senderRatchetPub
    skippedKeys := ∅ }

/-! ## Encrypt -/

/-- The random draws of one `encrypt` call; the first two are used only when a KEM step is due. -/
structure Coins (C : Carriers) where
  encap : C.Coin
  keygen : C.Coin
  nonce : C.Nonce

/-- The KEM ratchet step of `encrypt` and the ciphertext it puts in the header. -/
def kemStepSend (P : Primitives C) (s : State C) (coins : Coins C) : State C × C.Ct :=
  let enc := P.kem.encapsulate s.peerRatchetPub coins.encap
  let newRoot := ratchetStep P s.rootKey enc.2
  ({ s with
      prevSendCount := s.sendMsgNum
      sendMsgNum := 0
      sendEpoch := s.sendEpoch + 1
      sendChainKey := sendChain P newRoot
      rootKey := newRoot
      myRatchetKem := P.kem.keygen coins.keygen
      needKemStep := false }, enc.1)

/-- The rest of `encrypt`: header, one symmetric step, AES-GCM without associated data. -/
def encryptStep (P : Primitives C) (s : State C) (kemCt : Option C.Ct) (nonce : C.Nonce) (plaintext : Bytes) :
    State C × Message C :=
  let mk := messageKey P s.sendChainKey
  let enc := P.aes.encrypt mk nonce plaintext []
  ({ s with sendChainKey := nextChainKey P s.sendChainKey, sendMsgNum := s.sendMsgNum + 1 },
    { header :=
        { epoch := s.sendEpoch
          msgNum := s.sendMsgNum
          prevCount := s.prevSendCount
          senderRatchetPub := s.myRatchetKem.pub
          kemCt := kemCt }
      nonce := nonce
      ciphertext := enc.1
      tag := enc.2 })

def encrypt (P : Primitives C) (s : State C) (coins : Coins C) (plaintext : Bytes) : State C × Message C :=
  if s.needKemStep then
    encryptStep P (kemStepSend P s coins).1 (some (kemStepSend P s coins).2) coins.nonce plaintext
  else encryptStep P s none coins.nonce plaintext

/-! ## Decrypt -/

abbrev RatchetM (C : Carriers) := EStateM RatchetError (State C)

/-- One turn of the loop of `advance_recv_chain` after its size check. -/
def skipOne (P : Primitives C) (epoch : UInt32) (s : State C) : State C :=
  { s with
    recvChainKey := nextChainKey P s.recvChainKey
    skippedKeys := s.skippedKeys.insert (skipKey epoch s.recvMsgNum) (messageKey P s.recvChainKey)
    recvMsgNum := s.recvMsgNum + 1 }

/-- `n` turns of the loop of `advance_recv_chain`. -/
def advanceLoop (P : Primitives C) (epoch : UInt32) : ℕ → RatchetM C Unit
  | 0 => pure ()
  | n + 1 => do
    let s ← get
    if maxSkippedKeys ≤ s.skippedKeys.entries.length then throw .tooManySkipped
    set (skipOne P epoch s)
    advanceLoop P epoch n

/-- `while (state.recv_msg_num < target_msg_num)`: as many turns as the target is ahead. -/
def advanceRecvChain (P : Primitives C) (epoch targetMsgNum : UInt32) : RatchetM C Unit := do
  let s ← get
  advanceLoop P epoch (targetMsgNum.toNat - s.recvMsgNum.toNat)

/-- The assignments of `apply_kem_step_recv` after the drain. -/
def kemStepRecv (P : Primitives C) (kemCt : C.Ct) (senderPub : C.Pub) (newEpoch : UInt32) (s : State C) : State C :=
  let newRoot := ratchetStep P s.rootKey (P.kem.decapsulate s.myRatchetKem.priv kemCt)
  { s with
    recvChainKey := sendChain P newRoot
    rootKey := newRoot
    recvEpoch := newEpoch
    recvMsgNum := 0
    peerRatchetPub := senderPub
    needKemStep := true }

def applyKemStepRecv (P : Primitives C) (kemCt : C.Ct) (senderPub : C.Pub) (newEpoch prevCount : UInt32) :
    RatchetM C Unit := do
  let s ← get
  advanceRecvChain P s.recvEpoch prevCount
  modify (kemStepRecv P kemCt senderPub newEpoch)

/-- `aes_decrypt(key, nonce, ciphertext, tag)`, without associated data. -/
def aesOpen (P : Primitives C) (key : C.Key) (msg : Message C) : RatchetM C Bytes :=
  match P.aes.decrypt key msg.nonce msg.ciphertext msg.tag [] with
  | some plaintext => pure plaintext
  | none => throw .authFailed

def takeKey (P : Primitives C) (s : State C) : State C :=
  { s with recvChainKey := nextChainKey P s.recvChainKey, recvMsgNum := s.recvMsgNum + 1 }

/-- The part of `decrypt` after the cache lookup. -/
def decryptFresh (P : Primitives C) (msg : Message C) : RatchetM C Bytes := do
  let hdr := msg.header
  let s ← get
  if s.recvEpoch < hdr.epoch then
    match hdr.kemCt with
    | none => throw .missingKemCt
    | some kemCt => applyKemStepRecv P kemCt hdr.senderRatchetPub hdr.epoch hdr.prevCount
  let s ← get
  if hdr.epoch < s.recvEpoch then throw .pastEpoch
  advanceRecvChain P hdr.epoch hdr.msgNum
  let s ← get
  set (takeKey P s)
  aesOpen P (messageKey P s.recvChainKey) msg

def decrypt (P : Primitives C) (msg : Message C) : RatchetM C Bytes := do
  let s ← get
  let slot := skipKey msg.header.epoch msg.header.msgNum
  match s.skippedKeys.lookup slot with
  | some mk =>
    set { s with skippedKeys := s.skippedKeys.erase slot }
    aesOpen P mk msg
  | none => decryptFresh P msg

end ScatterWeb.Ratchet
