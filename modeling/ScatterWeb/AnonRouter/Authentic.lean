import ScatterWeb.AnonRouter.Cell
import ScatterWeb.Crypto.Symbolic
import Mathlib.Data.Set.Basic

/-! # Cells that nobody built

Header and tag cover every byte of a cell: the header is authenticated as it stands, and nonce, ciphertext and tag are all that is left. So
a cell that is accepted under a key is, byte for byte, one that was built under it. A call of `cell_build` encrypts twice, the first time
under a nonce that is drawn and with a result that is thrown away; what comes of it is counted among what was produced under the key. -/
namespace ScatterWeb.AnonRouter
open Crypto Lib
set_option autoImplicit false

/-- A call of `cell_build`, with the data as long as the header says, and the nonce that it draws for its first encryption. -/
structure CellCall where
  header : CellHeader
  garlicData : Bytes
  drawn : AesNonce
  sized : header.garlicLen.toNat = garlicData.length
  fits : garlicData.length ≤ 496

/-- The call encrypts this. -/
structure CellCall.Encrypts (c : CellCall) (nonce : AesNonce) (plaintext ad : Bytes) : Prop where
  nonce : nonce = c.drawn ∨ nonce = cellNonce c.header.sessionTok c.header.seqNum
  plaintext : plaintext = (fit 496 c.garlicData).toList
  ad : ad = (cellWriteHeader c.header).toList

/-- What is relied on where the key is used by these calls: decryption inverts what they encrypted, and accepts nothing else. -/
structure Authenticates (A : Aes) (key : AesKey) (calls : Set CellCall) : Prop where
  length_encrypt : ∀ nonce plaintext ad, (A.encrypt key nonce plaintext ad).1.length = plaintext.length
  decrypt_encrypt : ∀ c ∈ calls, ∀ nonce plaintext ad, c.Encrypts nonce plaintext ad →
    A.decrypt key nonce (A.encrypt key nonce plaintext ad).1 (A.encrypt key nonce plaintext ad).2 ad = some plaintext
  produced : ∀ nonce ciphertext tag ad, A.decrypt key nonce ciphertext tag ad ≠ none →
    ∃ c ∈ calls, ∃ plaintext, c.Encrypts nonce plaintext ad ∧ A.encrypt key nonce plaintext ad = (ciphertext, tag)

/-- The cell of a call is read as it was built, and any other cell is refused or was built by another call. -/
structure ReadAsBuilt (A : Aes) (key : AesKey) (calls : Set CellCall) (c : CellCall) (cell : Cell) : Prop where
  built : cellBuild A c.header key c.garlicData = .ok cell
  decoded : cellDecode A cell key = .ok ⟨c.header, c.garlicData⟩
  token : cellSessionTok cell = c.header.sessionTok
  others : ∀ cell', cell' ≠ cell → (∃ e, cellDecode A cell' key = .error e) ∨
    ∃ c' ∈ calls, (c'.header, c'.garlicData) ≠ (c.header, c.garlicData) ∧ cellBuild A c'.header key c'.garlicData = .ok cell' ∧
      cellDecode A cell' key = .ok ⟨c'.header, c'.garlicData⟩

section Cells
variable {A : Aes} {key : AesKey} {calls : Set CellCall} {c : CellCall} {cell : Cell} {d : DecodedCell}

theorem cellBuild_call (A : Aes) (key : AesKey) (c : CellCall) : cellBuild A c.header key c.garlicData = .ok (sealCell A c.header key c.garlicData) :=
  if_neg (not_lt.mpr c.fits)

theorem cellDecode_call (h : Authenticates A key calls) (hc : c ∈ calls) :
    cellDecode A (sealCell A c.header key c.garlicData) key = .ok ⟨c.header, c.garlicData⟩ := by
  refine cellDecode_sealCell_of_decrypt rfl ?_ (h.decrypt_encrypt c hc _ _ _ ⟨.inr rfl, rfl, rfl⟩) c.sized c.fits
  rw [h.length_encrypt, List.Vector.toList_length]

/-- A cell is its header, its ciphertext and its tag. -/
theorem toList_eq_parts (cell : Cell) :
    cell.toList = cell.toList.take 45 ++ ((slice 45 496 cell.toList).toList ++ (slice 541 16 cell.toList).toList) := by
  have hlen : cell.toList.length = 557 := List.Vector.toList_length _
  obtain ⟨head, rest, hcell, hrest⟩ := exists_vector_append (n := 45) (by omega : 45 ≤ cell.toList.length)
  obtain ⟨body, rest, rfl, hrest'⟩ := exists_vector_append (n := 496) (by omega : 496 ≤ rest.length)
  obtain ⟨tag, rest, rfl, hrest''⟩ := exists_vector_append (n := 16) (by omega : 16 ≤ rest.length)
  obtain rfl : rest = [] := List.eq_nil_of_length_eq_zero (by omega)
  have hhead : head.toList.length = 45 := List.Vector.toList_length _
  have hslice : slice 45 496 cell.toList = body := by
    rw [hcell]
    exact slice_append hhead body _
  have htag : slice 541 16 cell.toList = tag := by
    rw [hcell, ← List.append_assoc]
    exact slice_append (by rw [List.length_append, hhead, List.Vector.toList_length]) tag []
  rw [htag, hslice, hcell, List.take_left' hhead, List.append_nil]

/-- An accepted cell was built. -/
theorem exists_call_of_decrypt (h : Authenticates A key calls)
    (hdec : A.decrypt key (cellNonce (cellReadHeader cell).sessionTok (cellReadHeader cell).seqNum) (slice 45 496 cell.toList).toList
      (slice 541 16 cell.toList) (cell.toList.take 45) ≠ none) : ∃ c ∈ calls, cell = sealCell A c.header key c.garlicData := by
  obtain ⟨c, hc, plaintext, ⟨_, rfl, had⟩, henc⟩ := h.produced _ _ _ _ hdec
  have hparts := toList_eq_parts cell
  rw [had] at hparts henc
  have hheader : cellReadHeader cell = c.header := cellReadHeader_of_header hparts
  rw [hheader] at henc
  refine ⟨c, hc, List.Vector.toList_injective ?_⟩
  rw [toList_sealCell, henc, fit_toList]
  exact hparts

theorem cell_authentic (h : Authenticates A key calls) (hc : c ∈ calls) : ∃ cell, ReadAsBuilt A key calls c cell := by
  refine ⟨_, cellBuild_call A key c, cellDecode_call h hc, cellSessionTok_sealCell A c.header key c.garlicData, ?_⟩
  intro cell' hne
  cases hdec : A.decrypt key (cellNonce (cellReadHeader cell').sessionTok (cellReadHeader cell').seqNum) (slice 45 496 cell'.toList).toList
      (slice 541 16 cell'.toList) (cell'.toList.take 45) with
  | none =>
    refine .inl ⟨.authFailed, ?_⟩
    unfold cellDecode
    dsimp only
    rw [hdec]
  | some plaintext =>
    right
    obtain ⟨c', hc', rfl⟩ := exists_call_of_decrypt h (hdec ▸ Option.some_ne_none plaintext)
    refine ⟨c', hc', ?_, cellBuild_call A key c', cellDecode_call h hc'⟩
    intro hsame
    obtain ⟨hheader, hdata⟩ := Prod.mk.inj hsame
    exact hne (by rw [hheader, hdata])

end Cells

/-- Nothing is accepted but what these calls produced. -/
def loggedAes (log : List CellCall) : Aes where
  encrypt := checksumAes.encrypt
  decrypt key nonce ciphertext tag ad :=
    if ∃ c ∈ log, (nonce = c.drawn ∨ nonce = cellNonce c.header.sessionTok c.header.seqNum) ∧ ciphertext = (fit 496 c.garlicData).toList ∧
      ad = (cellWriteHeader c.header).toList ∧ checksumAes.encrypt key nonce ciphertext ad = (ciphertext, tag) then some ciphertext else none

theorem authenticates_loggedAes (log : List CellCall) (key : AesKey) : Authenticates (loggedAes log) key {c | c ∈ log} where
  length_encrypt _ _ _ := rfl
  decrypt_encrypt := by
    rintro c hc nonce plaintext ad ⟨hnonce, rfl, rfl⟩
    exact if_pos ⟨c, hc, hnonce, rfl, rfl, rfl⟩
  produced := by
    intro nonce ciphertext tag ad hdec
    by_cases hlog : ∃ c ∈ log, (nonce = c.drawn ∨ nonce = cellNonce c.header.sessionTok c.header.seqNum) ∧
        ciphertext = (fit 496 c.garlicData).toList ∧ ad = (cellWriteHeader c.header).toList ∧
        checksumAes.encrypt key nonce ciphertext ad = (ciphertext, tag)
    · obtain ⟨c, hc, hnonce, hplaintext, had, henc⟩ := hlog
      exact ⟨c, hc, ciphertext, ⟨hnonce, hplaintext, had⟩, henc⟩
    · exact absurd (if_neg hlog) hdec

def firstCall : CellCall := ⟨{ seqNum := 1, garlicLen := 3 }, [1, 2, 3], fit 12 [9], rfl, by decide⟩

def secondCall : CellCall := ⟨{ seqNum := 2, garlicLen := 0 }, [], fit 12 [8], rfl, by decide⟩

theorem cell_authentic_firstCall :
    ∃ cell, ReadAsBuilt (loggedAes [firstCall, secondCall]) (fit 32 [5]) {c | c ∈ [firstCall, secondCall]} firstCall cell :=
  cell_authentic (authenticates_loggedAes [firstCall, secondCall] (fit 32 [5])) List.mem_cons_self

end ScatterWeb.AnonRouter
