import ScatterWeb.AnonRouter.Cell
import ScatterWeb.Lib.Cbor

/-! # Garlic blobs of `anonrouter/src/garlic.cpp`

A blob is a CBOR array of cloves, and a clove is the array of its type, channel, fragment flag, fragment
and payload. The reader skips items that are not arrays of five, and puts defaults where
a field has the wrong type. libcbor's integer accessors are undefined on items that are not
integers; here such an item counts as zero. `cbor_load` is a parameter. -/
namespace ScatterWeb.AnonRouter
open Crypto Lib Lib.Cbor
set_option autoImplicit false

structure CloveType where
  toByte : UInt8
  deriving DecidableEq

namespace CloveType

def data : CloveType := ⟨0x01⟩

def ack : CloveType := ⟨0x02⟩

def heartbeat : CloveType := ⟨0x03⟩

def ctrl : CloveType := ⟨0x04⟩

end CloveType

structure FragInfo where
  cloveId : UInt32
  idx : UInt16
  total : UInt16
  deriving DecidableEq

structure Clove where
  type : CloveType
  channelId : MessageId
  frag : Option FragInfo
  payload : Bytes
  deriving DecidableEq

/-! ## Encoding -/

def encodeFrag : Option FragInfo → Item
  | some f => .array [.uint (.a64 f.cloveId.toUInt64), .uint (.a64 f.idx.toUInt64), .uint (.a64 f.total.toUInt64)]
  | none => .null

def encodeClove (c : Clove) : Item :=
  .array [.uint (.a64 c.type.toByte.toUInt64), .bytes c.channelId.toList, .bool c.frag.isSome, encodeFrag c.frag,
    .bytes c.payload]

def garlicEncode (cloves : List Clove) : Bytes := encode (.array (cloves.map encodeClove))

/-! ## Decoding -/

def safeCborUint : Item → UInt64
  | .uint a => UInt64.ofNat a.toNat
  | .negint a => UInt64.ofNat a.toNat
  | _ => 0

/-- `cbor_is_bool(item) && cbor_get_bool(item)`. -/
def cborTrue : Item → Bool
  | .prim (.bool b) => b
  | _ => false

def decodeFrag (hasFrag frag : Item) : Option FragInfo :=
  match cborTrue hasFrag, frag with
  | true, .array [cloveId, idx, total] =>
    some ⟨(safeCborUint cloveId).toUInt32, (safeCborUint idx).toUInt16, (safeCborUint total).toUInt16⟩
  | _, _ => none

/-- The bytes of a byte string; a field of another type keeps the default. -/
def bytesOf : Item → Bytes
  | .bytes b => b
  | _ => []

def decodeClove : Item → Option Clove
  | .array (type :: channelId :: hasFrag :: frag :: payload :: _) =>
    some ⟨⟨(safeCborUint type).toUInt8⟩, copyInto (fit 16 []) (bytesOf channelId), decodeFrag hasFrag frag, bytesOf payload⟩
  | _ => none

def garlicDecode (load : Bytes → Option Item) (blob : Bytes) : List Clove :=
  match load blob with
  | some (.array items) => items.filterMap decodeClove
  | _ => []

/-! ## Reading back what was encoded -/

theorem decodeFrag_encodeFrag (f : Option FragInfo) : decodeFrag (.bool f.isSome) (encodeFrag f) = f := by
  cases f with
  | none => rfl
  | some f =>
    obtain ⟨cloveId, idx, total⟩ := f
    simp [decodeFrag, encodeFrag, Item.bool, cborTrue, safeCborUint, Arg.toNat]

theorem decodeClove_encodeClove (c : Clove) : decodeClove (encodeClove c) = some c := by
  obtain ⟨⟨type⟩, channelId, frag, payload⟩ := c
  simp only [encodeClove, decodeClove, bytesOf, copyInto_toList, decodeFrag_encodeFrag, safeCborUint, Arg.toNat]
  simp

theorem filterMap_decodeClove (cloves : List Clove) : (cloves.map encodeClove).filterMap decodeClove = cloves := by
  have hid : (decodeClove ∘ encodeClove) = some := funext decodeClove_encodeClove
  rw [List.filterMap_map, hid, List.filterMap_some]

theorem garlicDecode_garlicEncode {load : Bytes → Option Item} (hload : Loads load) (cloves : List Clove) :
    garlicDecode load (garlicEncode cloves) = cloves := by
  unfold garlicDecode garlicEncode
  rw [hload.load_encode]
  exact filterMap_decodeClove cloves

/-- A blob is read as the cloves that it was made of, in their order, by any reader that undoes the encoding of items. -/
theorem garlic_left_inverse {load : Bytes → Option Item} (hload : ∀ item, load (encode item) = some item) :
    Function.LeftInverse (garlicDecode load) garlicEncode := by
  intro cloves
  unfold garlicDecode garlicEncode
  rw [hload]
  exact filterMap_decodeClove cloves

/-- The last fragment that the fields can hold, and a clove without payload. -/
theorem garlic_left_inverse_limits :
    garlicDecode load (garlicEncode [⟨.data, fit 16 [7], some ⟨4294967295, 65535, 65535⟩, [1, 2]⟩, ⟨.ack, fit 16 [], none, []⟩]) =
      [⟨.data, fit 16 [7], some ⟨4294967295, 65535, 65535⟩, [1, 2]⟩, ⟨.ack, fit 16 [], none, []⟩] :=
  garlic_left_inverse load_loads.load_encode _

/-- Of a blob that was cut short nothing is read. -/
theorem garlicDecode_take {load : Bytes → Option Item} (hload : Loads load) (cloves : List Clove) {n : ℕ}
    (hn : n < (garlicEncode cloves).length) : garlicDecode load ((garlicEncode cloves).take n) = [] := by
  unfold garlicDecode garlicEncode at *
  rw [hload.load_truncated _ _ hn]

/-! ## The size of a blob -/

theorem garlicEncode_isEmpty (cloves : List Clove) : (garlicEncode cloves).isEmpty = false := by
  have hpos := encodeHead_pos 4 (.ofNat (cloves.map encodeClove).length)
  unfold garlicEncode encode
  cases hh : encodeHead 4 (.ofNat (cloves.map encodeClove).length) with
  | nil =>
    rw [hh] at hpos
    cases hpos
  | cons b bs => rfl

def headSize (n : ℕ) : ℕ := (encodeHead 2 (.ofNat n)).length

theorem length_garlicEncode (type : CloveType) (id : MessageId) (payload : Bytes) :
    (garlicEncode [⟨type, id, none, payload⟩]).length = 30 + headSize payload.length + payload.length := by
  have hid : id.toList.length = 16 := List.Vector.toList_length _
  have hhead : (encodeHead 2 (.ofNat 16)).length = 1 := rfl
  have h1 : (encodeHead 4 (.ofNat 1)).length = 1 := rfl
  have h5 : (encodeHead 4 (.ofNat 5)).length = 1 := rfl
  simp only [garlicEncode, encodeClove, encodeFrag, List.map_cons, List.map_nil, encode, encodeAll, Item.null, Item.bool,
    List.length_append, List.length_cons, List.length_nil, hid, hhead, Nat.zero_add, h1, Nat.reduceAdd, h5, headSize]
  simp [encodeHead, Prim.arg]
  omega

theorem headSize_two {n : ℕ} (hlo : 24 ≤ n) (hhi : n < 2 ^ 8) : headSize n = 2 := by
  have hb : (UInt8.ofNat n).toNat = n := Nat.mod_eq_of_lt hhi
  unfold headSize Head.ofNat
  rw [if_pos hhi, encodeHead, if_neg (by omega)]
  rfl

theorem headSize_three {n : ℕ} (hlo : 2 ^ 8 ≤ n) (hhi : n < 2 ^ 16) : headSize n = 3 := by
  unfold headSize Head.ofNat
  rw [if_neg (by omega), if_pos hhi]
  rfl

theorem headSize_pos (n : ℕ) : 0 < headSize n := encodeHead_pos 2 _

end ScatterWeb.AnonRouter
