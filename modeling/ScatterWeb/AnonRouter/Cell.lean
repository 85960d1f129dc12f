import ScatterWeb.Crypto.Primitives
import ScatterWeb.Lib.Bytes

/-! # Cells of `anonrouter/src/cell.cpp`

A cell is 557 bytes: a header of 45 bytes, 496 bytes of ciphertext and a tag of 16 bytes. The header is
authenticated and travels in the clear; the nonce is the first eight bytes of the session token
followed by the sequence number.

An `enum class` with an underlying type holds every value of that type, and cell types come out of received
bytes by a cast. So a cell type is its byte, and the enumerators are constants. -/
namespace ScatterWeb.AnonRouter
open Crypto Lib
set_option autoImplicit false

abbrev AesKey := ByteArr 32

abbrev AesNonce := ByteArr 12

abbrev AesTag := ByteArr 16

abbrev SessionToken := ByteArr 32

abbrev MessageId := ByteArr 16

abbrev Aes := Aead AesKey AesNonce AesTag

abbrev Cell := ByteArr 557

structure CellType where
  toByte : UInt8
  deriving DecidableEq

namespace CellType

def data : CellType := ⟨0x01⟩

def chanOpen : CellType := ⟨0x40⟩

def chanAccept : CellType := ⟨0x41⟩

end CellType

structure CellHeader where
  version : UInt8 := 1
  cellType : CellType := .data
  sessionTok : SessionToken := fit 32 []
  pathIndex : UInt8 := 0
  seqNum : UInt32 := 0
  sendTsMs : UInt32 := 0
  garlicLen : UInt16 := 0
  deriving DecidableEq

/-- The exceptions of `cell_build` and `cell_decode`; `what` is the text of each. -/
inductive CellError
  | garlicTooLarge
  | authFailed
  | garlicLenOutOfBounds
  deriving DecidableEq

def CellError.what : CellError → String
  | .garlicTooLarge => "garlic_data exceeds cell payload capacity"
  | .authFailed => "cell_decode: AES-GCM authentication failed"
  | .garlicLenOutOfBounds => "cell_decode: garlic_len out of bounds"

/-! ## Nonces and headers -/

def cellNonce (tok : SessionToken) (seqNum : UInt32) : AesNonce :=
  ⟨tok.toList.take 8 ++ be 4 seqNum.toNat, by simp⟩

def cellWriteHeader (hdr : CellHeader) : ByteArr 45 :=
  ⟨[hdr.version] ++ ([hdr.cellType.toByte] ++ (hdr.sessionTok.toList ++ ([hdr.pathIndex] ++
    (be 4 hdr.seqNum.toNat ++ (be 4 hdr.sendTsMs.toNat ++ be 2 hdr.garlicLen.toNat))))), by simp⟩

def cellReadHeader (cell : Cell) : CellHeader where
  version := byteAt 0 cell.toList
  cellType := ⟨byteAt 1 cell.toList⟩
  sessionTok := slice 2 32 cell.toList
  pathIndex := byteAt 34 cell.toList
  seqNum := UInt32.ofNat (readBe 35 4 cell.toList)
  sendTsMs := UInt32.ofNat (readBe 39 4 cell.toList)
  garlicLen := UInt16.ofNat (readBe 43 2 cell.toList)

def cellSessionTok (cell : Cell) : SessionToken := slice 2 32 cell.toList

/-! ## Building and decoding -/

/-- The cell that `cell_build` returns. Its first call of `aes_encrypt` is left out: the result is not used. -/
def sealCell (A : Aes) (hdr : CellHeader) (key : AesKey) (garlicData : Bytes) : Cell :=
  let ad := cellWriteHeader hdr
  let plaintext : ByteArr 496 := fit 496 garlicData
  let enc := A.encrypt key (cellNonce hdr.sessionTok hdr.seqNum) plaintext.toList ad.toList
  let ciphertext : ByteArr 496 := fit 496 enc.1
  ⟨ad.toList ++ (ciphertext.toList ++ enc.2.toList), by simp⟩

def cellBuild (A : Aes) (hdr : CellHeader) (key : AesKey) (garlicData : Bytes) : Except CellError Cell :=
  if 496 < garlicData.length then .error .garlicTooLarge else .ok (sealCell A hdr key garlicData)

structure DecodedCell where
  header : CellHeader
  garlicData : Bytes
  deriving DecidableEq

def cellDecode (A : Aes) (cell : Cell) (key : AesKey) : Except CellError DecodedCell :=
  let hdr := cellReadHeader cell
  let ciphertext : ByteArr 496 := slice 45 496 cell.toList
  let tag : AesTag := slice 541 16 cell.toList
  match A.decrypt key (cellNonce hdr.sessionTok hdr.seqNum) ciphertext.toList tag (cell.toList.take 45) with
  | none => .error .authFailed
  | some plaintext =>
    if 496 < hdr.garlicLen.toNat then .error .garlicLenOutOfBounds
    else .ok ⟨hdr, (fit 496 plaintext).toList.take hdr.garlicLen.toNat⟩

/-! ## Reading back what was built -/

theorem cellReadHeader_of_header {cell : Cell} {hdr : CellHeader} {rest : Bytes}
    (h : cell.toList = (cellWriteHeader hdr).toList ++ rest) : cellReadHeader cell = hdr := by
  obtain ⟨version, ⟨cellType⟩, tok, pathIndex, seqNum, sendTsMs, garlicLen⟩ := hdr
  -- the bytes before each field, in the order of the wire format
  have hcell : cell.toList = version :: cellType :: (tok.toList ++ (pathIndex ::
      (be 4 seqNum.toNat ++ (be 4 sendTsMs.toNat ++ (be 2 garlicLen.toNat ++ rest))))) := by
    rw [h]
    change [version] ++ ([cellType] ++ (tok.toList ++ ([pathIndex] ++
      (be 4 seqNum.toNat ++ (be 4 sendTsMs.toNat ++ be 2 garlicLen.toNat))))) ++ rest = _
    simp only [List.append_assoc, List.cons_append, List.nil_append]
  have htok : slice 2 32 cell.toList = tok := by
    rw [hcell]
    exact slice_append (p := [version, cellType]) rfl tok _
  have hpath : byteAt 34 cell.toList = pathIndex := by
    have hb := byteAt_append (p := version :: cellType :: tok.toList) (i := 34) (by simp) pathIndex
      (be 4 seqNum.toNat ++ (be 4 sendTsMs.toNat ++ (be 2 garlicLen.toNat ++ rest)))
    rw [hcell]
    exact hb
  have hseq : readBe 35 4 cell.toList = seqNum.toNat := by
    have hb := readBe_append (p := version :: cellType :: (tok.toList ++ [pathIndex])) (i := 35) (k := 4) (by simp)
      seqNum.toNat_lt (be 4 sendTsMs.toNat ++ (be 2 garlicLen.toNat ++ rest))
    rw [hcell]
    simpa only [List.cons_append, List.append_assoc, List.nil_append] using hb
  have hts : readBe 39 4 cell.toList = sendTsMs.toNat := by
    have hb := readBe_append (p := version :: cellType :: (tok.toList ++ (pathIndex :: be 4 seqNum.toNat)))
      (i := 39) (k := 4) (by simp) sendTsMs.toNat_lt (be 2 garlicLen.toNat ++ rest)
    rw [hcell]
    simpa only [List.cons_append, List.append_assoc, List.nil_append] using hb
  have hlen : readBe 43 2 cell.toList = garlicLen.toNat := by
    have hb := readBe_append
      (p := version :: cellType :: (tok.toList ++ (pathIndex :: (be 4 seqNum.toNat ++ be 4 sendTsMs.toNat))))
      (i := 43) (k := 2) (by simp) garlicLen.toNat_lt rest
    rw [hcell]
    simpa only [List.cons_append, List.append_assoc, List.nil_append] using hb
  unfold cellReadHeader
  rw [htok, hpath, hseq, hts, hlen, UInt32.ofNat_toNat, UInt32.ofNat_toNat, UInt16.ofNat_toNat, hcell]
  rfl

theorem toList_sealCell (A : Aes) (hdr : CellHeader) (key : AesKey) (g : Bytes) :
    (sealCell A hdr key g).toList = (cellWriteHeader hdr).toList ++
      ((fit 496 (A.encrypt key (cellNonce hdr.sessionTok hdr.seqNum) (fit 496 g).toList (cellWriteHeader hdr).toList).1).toList ++
        (A.encrypt key (cellNonce hdr.sessionTok hdr.seqNum) (fit 496 g).toList (cellWriteHeader hdr).toList).2.toList) := rfl

@[simp] theorem cellReadHeader_sealCell (A : Aes) (hdr : CellHeader) (key : AesKey) (g : Bytes) :
    cellReadHeader (sealCell A hdr key g) = hdr :=
  cellReadHeader_of_header (toList_sealCell A hdr key g)

@[simp] theorem cellSessionTok_sealCell (A : Aes) (hdr : CellHeader) (key : AesKey) (g : Bytes) :
    cellSessionTok (sealCell A hdr key g) = hdr.sessionTok :=
  congrArg CellHeader.sessionTok (cellReadHeader_sealCell A hdr key g)

@[simp] theorem cellType_sealCell (A : Aes) (hdr : CellHeader) (key : AesKey) (g : Bytes) :
    byteAt 1 (sealCell A hdr key g).toList = hdr.cellType.toByte :=
  congrArg (fun h => h.cellType.toByte) (cellReadHeader_sealCell A hdr key g)

theorem take_sealCell (A : Aes) (hdr : CellHeader) (key : AesKey) (g : Bytes) : (sealCell A hdr key g).toList.take 45 = (cellWriteHeader hdr).toList := by
  rw [toList_sealCell, List.take_left' (List.Vector.toList_length _)]

/-- What is decrypted is the padded data, and the header says where it ends. -/
theorem cellDecode_sealCell_of_decrypt {A : Aes} {hdr : CellHeader} {key : AesKey} {g ct : Bytes} {tag : AesTag}
    (henc : A.encrypt key (cellNonce hdr.sessionTok hdr.seqNum) (fit 496 g).toList (cellWriteHeader hdr).toList = (ct, tag)) (hct : ct.length = 496)
    (hdec : A.decrypt key (cellNonce hdr.sessionTok hdr.seqNum) ct tag (cellWriteHeader hdr).toList = some (fit 496 g).toList)
    (hlen : hdr.garlicLen.toNat = g.length) (hcap : g.length ≤ 496) : cellDecode A (sealCell A hdr key g) key = .ok ⟨hdr, g⟩ := by
  have hcell := toList_sealCell A hdr key g
  rw [henc] at hcell
  have hhead : (cellWriteHeader hdr).toList.length = 45 := List.Vector.toList_length _
  have hbody : slice 45 496 (sealCell A hdr key g).toList = fit 496 ct := by
    rw [hcell]
    exact slice_append hhead _ _
  have htag : slice 541 16 (sealCell A hdr key g).toList = tag := by
    rw [hcell, ← List.append_assoc, ← List.append_nil tag.toList]
    exact slice_append (by rw [List.length_append, hhead, List.Vector.toList_length]) _ _
  unfold cellDecode
  simp only [cellReadHeader_sealCell, take_sealCell, hbody, htag, toList_fit hct, hdec]
  rw [if_neg (by omega), fit_toList, hlen, take_fit hcap]

theorem cellDecode_sealCell {A : Aes} (hA : A.Correct) (hdr : CellHeader) (key : AesKey) {g : Bytes}
    (hlen : hdr.garlicLen.toNat = g.length) (hcap : g.length ≤ 496) :
    cellDecode A (sealCell A hdr key g) key = .ok ⟨hdr, g⟩ := by
  refine cellDecode_sealCell_of_decrypt rfl ?_ (hA.decrypt_encrypt _ _ _ _) hlen hcap
  rw [hA.length_encrypt, List.Vector.toList_length]

end ScatterWeb.AnonRouter
