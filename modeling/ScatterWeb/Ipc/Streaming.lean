import ScatterWeb.Ipc.Escape
import ScatterWeb.Lib.Pieces

/-! # Frames through partial transfers

`write_frame` and `read_frame` at the level of the system calls, each of which moves any part of what it is asked to. What
`read_frame` returns is determined by the bytes on the stream: the next payload, or nothing if its frame is not there as a whole.
So a list of payloads comes out as it was put in, and a stream that breaks off gives the payloads before the break. -/
namespace ScatterWeb.Ipc.Streaming
open Crypto Lib Lib.Cbor Lib.Pieces Ipc
set_option autoImplicit false

def writeFrame (payload : Bytes) (fd : Sink UInt8) : Sink UInt8 := writeAll (frame payload) 0 fd

/-- A read that fails is taken for the end of the stream, and the bytes that were read are dropped. -/
def readFrame (fd : Source UInt8) : Except String Bytes × Source UInt8 :=
  match readExact 4 [] fd with
  | (none, fd) => (.ok [], fd)
  | (some hdr, fd) =>
    let len := ofBe hdr
    if len = 0 ∨ maxFrame < len then (.error ("read_frame: invalid length " ++ toString len), fd)
    else
      match readExact len [] fd with
      | (none, fd) => (.ok [], fd)
      | (some payload, fd) => (.ok payload, fd)

def writeFrames (payloads : List Bytes) (fd : Sink UInt8) : Sink UInt8 := payloads.foldl (fun fd payload => writeFrame payload fd) fd

/-- What the next calls of `read_frame` return. -/
def readFrames : ℕ → Source UInt8 → List (Except String Bytes)
  | 0, _ => []
  | calls + 1, fd => (readFrame fd).1 :: readFrames calls (readFrame fd).2

/-! ## Writing -/

theorem out_writeFrame (payload : Bytes) (fd : Sink UInt8) : (writeFrame payload fd).out = fd.out ++ frame payload :=
  out_writeAll (frame payload) 0 fd

theorem out_writeFrames (payloads : List Bytes) (fd : Sink UInt8) : (writeFrames payloads fd).out = fd.out ++ payloads.flatMap frame := by
  unfold writeFrames
  induction payloads generalizing fd with
  | nil => simp
  | cons payload payloads ih => rw [List.foldl_cons, ih, out_writeFrame, List.flatMap_cons, List.append_assoc]

/-! ## Reading -/

section Read
variable {fd : Source UInt8}

/-- The two loops, one for the header and one for the payload. -/
theorem readFrame_of_short (h : fd.rest.length < 4) : ∃ ready, readFrame fd = (.ok [], ⟨[], ready⟩) := by
  obtain ⟨ready, hhdr⟩ : ∃ ready, readExact 4 [] fd = (none, ⟨[], ready⟩) := readExact_of_lt h
  refine ⟨ready, ?_⟩
  rw [readFrame, hhdr]

theorem readFrame_of_header {len : ℕ} {rest : Bytes} (h : takeBe 4 fd.rest = some (len, rest)) : ∃ ready,
    ((len = 0 ∨ maxFrame < len) → readFrame fd = (.error ("read_frame: invalid length " ++ toString len), ⟨rest, ready⟩)) ∧
    (¬(len = 0 ∨ maxFrame < len) → readFrame fd =
      (.ok ((readExact len [] ⟨rest, ready⟩).1.getD []), (readExact len [] ⟨rest, ready⟩).2)) := by
  unfold takeBe at h
  split_ifs at h with hhead
  cases h
  obtain ⟨ready, hhdr⟩ : ∃ ready, readExact 4 [] fd = (some (fd.rest.take 4), ⟨fd.rest.drop 4, ready⟩) :=
    readExact_of_le (Nat.zero_le 4) hhead
  refine ⟨ready, ?_, ?_⟩
  · intro hlen
    rw [readFrame, hhdr]
    dsimp only
    rw [if_pos hlen]
  · intro hlen
    rw [readFrame, hhdr]
    dsimp only
    rw [if_neg hlen]
    rcases readExact (ofBe (fd.rest.take 4)) [] ⟨fd.rest.drop 4, ready⟩ with ⟨_ | payload, fd'⟩ <;> rfl

/-- A frame that is not there as a whole: the stream is at its end. -/
theorem readFrame_of_none (h : Ipc.readFrame fd.rest = .ok none) : ∃ ready, readFrame fd = (.ok [], ⟨[], ready⟩) := by
  unfold Ipc.readFrame at h
  split at h
  · rename_i hhead
    refine readFrame_of_short ?_
    unfold takeBe at hhead
    split_ifs at hhead with hlong
    omega
  · rename_i len rest htake
    obtain ⟨ready, _, hread⟩ := readFrame_of_header htake
    split_ifs at h with hlen hshort
    · obtain ⟨ready', hpayload⟩ : ∃ ready', readExact len [] ⟨rest, ready⟩ = (none, ⟨[], ready'⟩) := readExact_of_lt hshort
      refine ⟨ready', ?_⟩
      rw [hread hlen, hpayload]
      rfl
    · cases h

/-- A whole frame: the payload, and the stream is after it. -/
theorem readFrame_of_some {payload rest : Bytes} (h : Ipc.readFrame fd.rest = .ok (some (payload, rest))) :
    ∃ ready, readFrame fd = (.ok payload, ⟨rest, ready⟩) := by
  unfold Ipc.readFrame at h
  split at h
  · cases h
  · rename_i len tail htake
    obtain ⟨ready, _, hread⟩ := readFrame_of_header htake
    split_ifs at h with hlen hshort
    · cases h
    · cases h
      obtain ⟨ready', hpayload⟩ : ∃ ready', readExact len [] ⟨tail, ready⟩ = (some (tail.take len), ⟨tail.drop len, ready'⟩) :=
        readExact_of_le (Nat.zero_le len) (not_lt.mp hshort)
      refine ⟨ready', ?_⟩
      rw [hread hlen, hpayload]
      rfl

/-- After some whole frames, as many calls return their payloads; the later ones find a stream without a whole frame. -/
theorem readFrames_chunks {payloads : List Bytes} (hvalid : ∀ p ∈ payloads, ValidLength p.length) {part : Bytes}
    (hpart : Ipc.readFrame part = .ok none) (hrest : fd.rest = payloads.flatMap frame ++ part) (more : ℕ) :
    readFrames (payloads.length + more) fd = payloads.map .ok ++ List.replicate more (.ok []) := by
  induction payloads generalizing fd with
  | nil =>
    rw [List.length_nil, Nat.zero_add, List.map_nil, List.nil_append]
    replace hrest : fd.rest = part := hrest
    clear hvalid
    induction more generalizing fd part with
    | zero => rfl
    | succ more ih =>
      obtain ⟨ready, hread⟩ := readFrame_of_none (hrest ▸ hpart : Ipc.readFrame fd.rest = .ok none)
      have hempty : Ipc.readFrame [] = .ok none := rfl
      rw [readFrames, hread, ih hempty rfl]
      rfl
  | cons payload payloads ih =>
    have hhead : Ipc.readFrame fd.rest = .ok (some (payload, payloads.flatMap frame ++ part)) :=
      readFrame_eq_some_iff.mpr ⟨hvalid payload List.mem_cons_self, by rw [hrest, List.flatMap_cons, List.append_assoc]⟩
    obtain ⟨ready, hread⟩ := readFrame_of_some hhead
    have hlength : (payload :: payloads).length + more = payloads.length + more + 1 := by
      rw [List.length_cons]
      omega
    rw [hlength, readFrames, hread, ih (fun p hp => hvalid p (List.mem_cons_of_mem _ hp)) rfl]
    rfl

end Read

/-- However the calls split the bytes: what is written is what is read, and then nothing; of a stream that ends inside a frame, the
payloads before it are read, and then nothing. -/
theorem frames_round_trip {payloads : List Bytes} (hvalid : ∀ p ∈ payloads, ValidLength p.length) (written read : ℕ → ℕ) (more : ℕ) :
    readFrames (payloads.length + more) ⟨(writeFrames payloads ⟨[], written⟩).out, read⟩ =
        payloads.map .ok ++ List.replicate more (.ok []) ∧
      ∀ before payload after, payloads = before ++ payload :: after → ∀ cut < (frame payload).length,
        readFrames (before.length + more)
            ⟨(writeFrames payloads ⟨[], written⟩).out.take ((writeFrames before ⟨[], written⟩).out.length + cut), read⟩ =
          before.map .ok ++ List.replicate more (.ok []) := by
  have hempty : Ipc.readFrame [] = .ok none := rfl
  constructor
  · refine readFrames_chunks hvalid hempty ?_ more
    rw [out_writeFrames, List.append_nil, List.nil_append]
  · rintro before payload after rfl cut hcut
    have hpayload : ValidLength payload.length := hvalid payload (by simp)
    refine readFrames_chunks (fun p hp => hvalid p (by simp [hp]))
      (readFrame_take (List.length_pos_iff.mp hpayload.1) hpayload.2 hcut) ?_ more
    rw [out_writeFrames, out_writeFrames, List.nil_append, List.nil_append, List.flatMap_append, List.flatMap_cons,
      List.take_length_add_append, List.take_append_of_le_length hcut.le]

/-- Two payloads, in pieces of three bytes each way, and cut in the header of the second. -/
theorem frames_round_trip_twoPayloads :
    readFrames 3 ⟨(writeFrames [[7, 8], [9]] ⟨[], fun _ => 2⟩).out, fun _ => 2⟩ = [.ok [7, 8], .ok [9], .ok []] ∧
      readFrames 2 ⟨(writeFrames [[7, 8], [9]] ⟨[], fun _ => 2⟩).out.take ((writeFrames [[7, 8]] ⟨[], fun _ => 2⟩).out.length + 3), fun _ => 2⟩ =
        [.ok [7, 8], .ok []] := by
  have hvalid : ∀ p ∈ ([[7, 8], [9]] : List Bytes), ValidLength p.length := by
    unfold ValidLength maxFrame
    simp
  obtain ⟨hall, hcut⟩ := frames_round_trip hvalid (fun _ => 2) (fun _ => 2) 1
  exact ⟨hall, hcut [[7, 8]] [9] [] rfl 3 (by decide)⟩

end ScatterWeb.Ipc.Streaming
