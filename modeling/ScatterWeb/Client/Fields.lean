import ScatterWeb.Crypto.Primitives
import ScatterWeb.Lib.Cbor

/-! # The CBOR helpers of `client.cpp`

Frames are definite maps with text keys. The `map_add` helpers ignore the result of `cbor_map_add`, so a
pair that does not fit is dropped silently; the `cbor_get_field` helpers return an empty value when
no pair has the key and the type asked for. They do not look at the type of a key: a byte string is as good as
a text. The daemons and the common library do look (`textKey`). `cbor_load` is a parameter of the functions that read. -/
namespace ScatterWeb.Client
open Crypto Lib Lib.Cbor
set_option autoImplicit false

/-- What `c_str()` hands to a function that takes a C string: the bytes before the first NUL. -/
def cStr (b : Bytes) : Bytes := b.takeWhile (fun c => c ≠ 0)

theorem cStr_of_nulFree {b : Bytes} (h : 0 ∉ b) : cStr b = b := by
  unfold cStr
  induction b with
  | nil => rfl
  | cons c b ih =>
    simp only [List.mem_cons, not_or] at h
    rw [List.takeWhile_cons, if_pos (by simpa using Ne.symm h.1), ih h.2]

/-! ## Building -/

def cborSer (m : DefMap) : Bytes := encode m.item

def mapAddStr (m : DefMap) (k : String) (v : Bytes) : DefMap := m.add (.text (ascii k)) (.text (cStr v))

def mapAddBytes (m : DefMap) (k : String) (v : Bytes) : DefMap := m.add (.text (ascii k)) (.bytes v)

def mapAddUint (m : DefMap) (k : String) (v : UInt64) : DefMap := m.add (.text (ascii k)) (.uint (.a64 v))

/-! ## Reading -/

/-- The key is a text, and this one. -/
def textKey (key : Item) (expected : String) : Bool :=
  match key with
  | .text b => b == ascii expected
  | _ => false

/-- The bytes of an integer in memory, the lowest first. -/
def nativeBytes : Arg → Bytes
  | .a8 n => [n]
  | .a16 n => (be 2 n.toNat).reverse
  | .a32 n => (be 4 n.toNat).reverse
  | .a64 n => (be 8 n.toNat).reverse

/-- `cbor_int_width`, which stands where a string has its length. -/
def widthCode : Arg → ℕ
  | .a8 _ => 0
  | .a16 _ => 1
  | .a32 _ => 2
  | .a64 _ => 3

/-- What `cbor_string_length` and `cbor_string_handle` give for a key of any type. Of a number these are its lowest bytes (one at most of
a half-precision number, which is shorter than every name). An array or a map gives pointers, of which none begins like a name that is
looked for, and the length of a tag is a pointer. -/
def keyBytes : Item → Bytes
  | .text b => b
  | .bytes b => b
  | .uint a => (nativeBytes a).take (widthCode a)
  | .negint a => (nativeBytes a).take (widthCode a)
  | .prim p => (nativeBytes p.arg).take (widthCode p.arg)
  | _ => []

def cborKeyEq (key : Item) (expected : String) : Bool := keyBytes key == ascii expected

theorem textKey_text (b : Bytes) (key : String) : textKey (.text b) key = decide (b = ascii key) := by
  show (b == ascii key) = decide (b = ascii key)
  rw [Bool.eq_iff_iff, beq_iff_eq, decide_eq_true_iff]

@[simp] theorem textKey_ascii (k key : String) : textKey (.text (ascii k)) key = decide (k = key) := by
  unfold textKey
  by_cases h : k = key
  · simp [h]
  · simp [h, ascii_inj]

@[simp] theorem cborKeyEq_ascii (k key : String) : cborKeyEq (.text (ascii k)) key = decide (k = key) := textKey_ascii k key

/-- The first pair with the key whose value `read` takes. -/
def getField {α : Type} (keyEq : Item → String → Bool) (read : Item → Option α) (kvs : List (Item × Item)) (key : String) : Option α :=
  kvs.findSome? (fun kv => if keyEq kv.1 key then read kv.2 else none)

/-- The last pair whose key is right and whose value `read` takes. -/
def lastWith {κ α : Type} (isKey : κ → Bool) (read : Item → Option α) (kvs : List (κ × Item)) : Option α :=
  kvs.foldl (fun cur kv => if isKey kv.1 then (read kv.2).or cur else cur) none

@[simp] def asText : Item → Option Bytes
  | .text b => some b
  | _ => none

@[simp] def asBytes : Item → Option Bytes
  | .bytes b => some b
  | _ => none

@[simp] def asUint : Item → Option Arg
  | .uint a => some a
  | _ => none

/-- Eight bytes are read whatever the width is; behind a narrower integer stand bytes of something else. -/
def cborGetUint64 (behind : UInt64) : Arg → UInt64
  | .a8 n => n.toUInt64 ||| (behind <<< 8)
  | .a16 n => n.toUInt64 ||| (behind <<< 16)
  | .a32 n => n.toUInt64 ||| (behind <<< 32)
  | .a64 n => n

@[simp] theorem cborGetUint64_a64 (behind n : UInt64) : cborGetUint64 behind (.a64 n) = n := rfl

def cborGetFieldBytes (kvs : List (Item × Item)) (key : String) : Bytes := (getField cborKeyEq asBytes kvs key).getD []

def cborGetFieldStr (kvs : List (Item × Item)) (key : String) : Bytes := (getField cborKeyEq asText kvs key).getD []

/-- `behind` is what stands behind the integer that is found. -/
def cborGetFieldUint (behind : String → UInt64) (kvs : List (Item × Item)) (key : String) : UInt64 :=
  ((getField cborKeyEq asUint kvs key).map (cborGetUint64 (behind key))).getD 0

/-! ### The last of several pairs -/

section Last
variable {κ α : Type} {isKey : κ → Bool} {read : Item → Option α} {kvs : List (κ × Item)}

theorem lastWith_concat (kv : κ × Item) :
    lastWith isKey read (kvs ++ [kv]) = if isKey kv.1 then (read kv.2).or (lastWith isKey read kvs) else lastWith isKey read kvs := by
  unfold lastWith
  rw [List.foldl_append]
  rfl

theorem lastWith_eq_findSome? : lastWith isKey read kvs = kvs.reverse.findSome? (fun kv => if isKey kv.1 then read kv.2 else none) := by
  induction kvs using List.reverseRecOn with
  | nil => rfl
  | append_singleton kvs kv ih =>
    rw [lastWith_concat, List.reverse_concat, List.findSome?_cons, ih]
    by_cases hkey : isKey kv.1 = true
    · rw [if_pos hkey, if_pos hkey]
      cases read kv.2 with
      | none => rfl
      | some a => rfl
    · rw [if_neg hkey, if_neg hkey]

/-- The value comes from one of the pairs. -/
theorem mem_of_lastWith {a : α} (h : lastWith isKey read kvs = some a) : ∃ kv ∈ kvs, isKey kv.1 = true ∧ read kv.2 = some a := by
  induction kvs using List.reverseRecOn with
  | nil => cases h
  | append_singleton kvs kv ih =>
    have hlift : lastWith isKey read kvs = some a → ∃ kv' ∈ kvs ++ [kv], isKey kv'.1 = true ∧ read kv'.2 = some a := by
      intro hold
      obtain ⟨kv', hmem, hfound⟩ := ih hold
      exact ⟨kv', List.mem_append_left _ hmem, hfound⟩
    rw [lastWith_concat] at h
    by_cases hkey : isKey kv.1 = true
    · rw [if_pos hkey] at h
      rcases Option.or_eq_some_iff.mp h with hread | ⟨_, hold⟩
      · exact ⟨kv, List.mem_append_right _ List.mem_cons_self, hkey, hread⟩
      · exact hlift hold
    · rw [if_neg hkey] at h
      exact hlift h

end Last

end ScatterWeb.Client
