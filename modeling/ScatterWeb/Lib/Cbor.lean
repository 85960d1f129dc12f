import ScatterWeb.Lib.Bytes

/-! # CBOR items

The definite-length items of RFC 8949 and their encoding. An argument keeps the width it is stored in, as
typed integers of C libraries do: 8-bit arguments below 24 go into the initial byte, lengths take the
narrowest width. Only what a C library has a type for is an item: no integer or tag is beyond 64 bits, and no
simple value is unassigned. An array or a map that came with an indefinite length is given by its entries, and such
a string is empty, since its length is 0 to the accessors and its chunks are not looked at.

`Loads load` is what a decoder is relied on for: it undoes `encode` and fails on a proper prefix of an
encoding. `load` at the end of this file is such a decoder; like its counterparts in C it reads one item
and ignores what follows. -/
namespace ScatterWeb.Lib.Cbor
set_option autoImplicit false

inductive Arg
  | a8 (n : UInt8)
  | a16 (n : UInt16)
  | a32 (n : UInt32)
  | a64 (n : UInt64)
  deriving DecidableEq

def Arg.toNat : Arg → ℕ
  | a8 n => n.toNat
  | a16 n => n.toNat
  | a32 n => n.toNat
  | a64 n => n.toNat

/-- What a head holds: an argument, or a length that no machine holds. With these every list has a length. -/
inductive Head
  | arg (a : Arg)
  | big (n : ℕ)

namespace Head

def toNat : Head → ℕ
  | arg a => a.toNat
  | big n => n

def ofNat (n : ℕ) : Head :=
  if n < 2 ^ 8 then arg (.a8 (UInt8.ofNat n))
  else if n < 2 ^ 16 then arg (.a16 (UInt16.ofNat n))
  else if n < 2 ^ 32 then arg (.a32 (UInt32.ofNat n))
  else if n < 2 ^ 64 then arg (.a64 (UInt64.ofNat n))
  else big n

def toArg : Head → Option Arg
  | arg a => some a
  | big _ => none

theorem toNat_ofNat (n : ℕ) : (ofNat n).toNat = n := by
  unfold ofNat
  split_ifs with h8 h16 h32 h64
  · exact Nat.mod_eq_of_lt h8
  · exact Nat.mod_eq_of_lt h16
  · exact Nat.mod_eq_of_lt h32
  · exact Nat.mod_eq_of_lt h64
  · rfl

end Head

/-- The values of major type 7 that are assigned; a number in floating point is given by its bits. -/
inductive Prim
  | bool (b : Bool)
  | null
  | undefined
  | float16 (bits : UInt16)
  | float32 (bits : UInt32)
  | float64 (bits : UInt64)

namespace Prim

def arg : Prim → Arg
  | bool b => .a8 (if b then 21 else 20)
  | null => .a8 22
  | undefined => .a8 23
  | float16 bits => .a16 bits
  | float32 bits => .a32 bits
  | float64 bits => .a64 bits

def ofArg : Arg → Option Prim
  | .a8 n =>
    if n = 20 then some (bool false)
    else if n = 21 then some (bool true)
    else if n = 22 then some null
    else if n = 23 then some undefined
    else none
  | .a16 n => some (float16 n)
  | .a32 n => some (float32 n)
  | .a64 n => some (float64 n)

theorem ofArg_arg (p : Prim) : ofArg p.arg = some p := by
  cases p with
  | bool b => cases b <;> rfl
  | null => rfl
  | undefined => rfl
  | float16 bits => rfl
  | float32 bits => rfl
  | float64 bits => rfl

end Prim

inductive Item
  | uint (a : Arg)
  | negint (a : Arg)
  | bytes (b : List UInt8)
  | text (b : List UInt8)
  | array (xs : List Item)
  | map (kvs : List (Item × Item))
  | tag (n : UInt64) (i : Item)
  | prim (p : Prim)

namespace Item

def bool (b : Bool) : Item := prim (.bool b)

def null : Item := prim .null

/-- The item lies anywhere in another one, or is it. -/
inductive Within (i : Item) : Item → Prop
  | self : Within i i
  | element {xs : List Item} {x : Item} (hx : x ∈ xs) (h : Within i x) : Within i (array xs)
  | key {kvs : List (Item × Item)} {e : Item × Item} (he : e ∈ kvs) (h : Within i e.1) : Within i (map kvs)
  | entry {kvs : List (Item × Item)} {e : Item × Item} (he : e ∈ kvs) (h : Within i e.2) : Within i (map kvs)
  | tagged {n : UInt64} {x : Item} (h : Within i x) : Within i (tag n x)

/-- The integer that is written: major type 1 counts down from -1. -/
def integer : Item → Option ℤ
  | uint a => some a.toNat
  | negint a => some (-1 - a.toNat)
  | _ => none

end Item

/-! ## Heads -/

def encodeHead (major : ℕ) : Head → List UInt8
  | .arg (.a8 n) => if n.toNat < 24 then [UInt8.ofNat (32 * major + n.toNat)] else [UInt8.ofNat (32 * major + 24), n]
  | .arg (.a16 n) => UInt8.ofNat (32 * major + 25) :: be 2 n.toNat
  | .arg (.a32 n) => UInt8.ofNat (32 * major + 26) :: be 4 n.toNat
  | .arg (.a64 n) => UInt8.ofNat (32 * major + 27) :: be 8 n.toNat
  | .big n => UInt8.ofNat (32 * major + 28) :: (List.replicate n 0 ++ [1])

/-- The number of leading zeros, up to a byte that is not zero. -/
def takeUnary : List UInt8 → Option (ℕ × List UInt8)
  | [] => none
  | b :: bs => if b = 0 then (takeUnary bs).map (fun r => (r.1 + 1, r.2)) else some (0, bs)

/-- Read a head: the major type, what it holds, and what follows. -/
def decodeHead : List UInt8 → Option (ℕ × Head × List UInt8)
  | [] => none
  | b :: bs =>
    let major := b.toNat / 32
    let info := b.toNat % 32
    if info < 24 then some (major, .arg (.a8 (UInt8.ofNat info)), bs)
    else if info = 24 then (takeBe 1 bs).map (fun r => (major, .arg (.a8 (UInt8.ofNat r.1)), r.2))
    else if info = 25 then (takeBe 2 bs).map (fun r => (major, .arg (.a16 (UInt16.ofNat r.1)), r.2))
    else if info = 26 then (takeBe 4 bs).map (fun r => (major, .arg (.a32 (UInt32.ofNat r.1)), r.2))
    else if info = 27 then (takeBe 8 bs).map (fun r => (major, .arg (.a64 (UInt64.ofNat r.1)), r.2))
    else if info = 28 then (takeUnary bs).map (fun r => (major, .big r.1, r.2))
    else none

theorem takeUnary_replicate (n : ℕ) (rest : List UInt8) :
    takeUnary (List.replicate n 0 ++ [1] ++ rest) = some (n, rest) := by
  induction n with
  | zero => rfl
  | succ n ih => simp [List.replicate_succ, takeUnary] at ih ⊢; simp [ih]

theorem takeUnary_extend {bs rest : List UInt8} {n : ℕ} (h : takeUnary bs = some (n, rest)) (ext : List UInt8) :
    takeUnary (bs ++ ext) = some (n, rest ++ ext) := by
  induction bs generalizing n with
  | nil => cases h
  | cons b bs ih =>
    unfold takeUnary at h
    simp only [List.cons_append, takeUnary]
    by_cases hb : b = 0
    · rw [if_pos hb] at h ⊢
      obtain ⟨r, hr, heq⟩ := Option.map_eq_some_iff.mp h
      obtain ⟨rfl, rfl⟩ := Prod.mk.inj heq
      rw [ih hr]
      rfl
    · rw [if_neg hb] at h ⊢
      obtain ⟨rfl, rfl⟩ := Prod.mk.inj (Option.some.inj h)
      rfl

theorem initial_byte {major info : ℕ} (hm : major < 8) (hi : info < 32) :
    (UInt8.ofNat (32 * major + info)).toNat / 32 = major ∧ (UInt8.ofNat (32 * major + info)).toNat % 32 = info := by
  have hb : (UInt8.ofNat (32 * major + info)).toNat = 32 * major + info := by
    rw [UInt8.toNat_ofNat']
    omega
  omega

theorem decodeHead_encodeHead {major : ℕ} (hm : major < 8) (h : Head) (rest : List UInt8) :
    decodeHead (encodeHead major h ++ rest) = some (major, h, rest) := by
  match h with
  | .arg (.a8 n) =>
    by_cases hn : n.toNat < 24
    · obtain ⟨h1, h2⟩ := initial_byte hm (show n.toNat < 32 by omega)
      simp only [encodeHead, if_pos hn, List.cons_append, List.nil_append, decodeHead, h1, h2]
      simp
    · obtain ⟨h1, h2⟩ := initial_byte hm (show 24 < 32 by omega)
      simp only [encodeHead, if_neg hn, List.cons_append, List.nil_append, decodeHead, h1, h2]
      simp [takeBe, ofBe]
  | .arg (.a16 n) =>
    obtain ⟨h1, h2⟩ := initial_byte hm (show 25 < 32 by omega)
    have hn := takeBe_be (k := 2) (show n.toNat < 256 ^ 2 from n.toNat_lt) rest
    simp only [encodeHead, List.cons_append, decodeHead, h1, h2, hn]
    simp
  | .arg (.a32 n) =>
    obtain ⟨h1, h2⟩ := initial_byte hm (show 26 < 32 by omega)
    have hn := takeBe_be (k := 4) (show n.toNat < 256 ^ 4 from n.toNat_lt) rest
    simp only [encodeHead, List.cons_append, decodeHead, h1, h2, hn]
    simp
  | .arg (.a64 n) =>
    obtain ⟨h1, h2⟩ := initial_byte hm (show 27 < 32 by omega)
    have hn := takeBe_be (k := 8) (show n.toNat < 256 ^ 8 from n.toNat_lt) rest
    simp only [encodeHead, List.cons_append, decodeHead, h1, h2, hn]
    simp
  | .big n =>
    obtain ⟨h1, h2⟩ := initial_byte hm (show 28 < 32 by omega)
    have hn := takeUnary_replicate n rest
    simp only [encodeHead, List.cons_append, decodeHead, h1, h2, hn]
    simp

theorem decodeHead_extend {bs rest : List UInt8} {major : ℕ} {a : Head} (h : decodeHead bs = some (major, a, rest))
    (ext : List UInt8) : decodeHead (bs ++ ext) = some (major, a, rest ++ ext) := by
  cases bs with
  | nil => cases h
  | cons b bs =>
    have hbe : ∀ (k : ℕ) (f : ℕ → Head),
        (takeBe k bs).map (fun r => (b.toNat / 32, f r.1, r.2)) = some (major, a, rest) →
        (takeBe k (bs ++ ext)).map (fun r => (b.toNat / 32, f r.1, r.2)) = some (major, a, rest ++ ext) := by
      intro k f hf
      obtain ⟨⟨n, r⟩, hr, heq⟩ := Option.map_eq_some_iff.mp hf
      simp only [Prod.mk.injEq] at heq
      obtain ⟨rfl, rfl, rfl⟩ := heq
      rw [takeBe_extend hr]
      rfl
    simp only [List.cons_append, decodeHead] at h ⊢
    split_ifs at h ⊢ with h1 h2 h3 h4 h5 h6
    · simp only [Option.some.injEq, Prod.mk.injEq] at h ⊢
      obtain ⟨rfl, rfl, rfl⟩ := h
      exact ⟨rfl, rfl, rfl⟩
    · exact hbe 1 (fun n => .arg (.a8 (UInt8.ofNat n))) h
    · exact hbe 2 (fun n => .arg (.a16 (UInt16.ofNat n))) h
    · exact hbe 4 (fun n => .arg (.a32 (UInt32.ofNat n))) h
    · exact hbe 8 (fun n => .arg (.a64 (UInt64.ofNat n))) h
    · obtain ⟨⟨n, r⟩, hr, heq⟩ := Option.map_eq_some_iff.mp h
      simp only [Prod.mk.injEq] at heq
      obtain ⟨rfl, rfl, rfl⟩ := heq
      rw [takeUnary_extend hr]
      rfl

theorem encodeHead_pos (major : ℕ) (h : Head) : 0 < (encodeHead major h).length := by
  match h with
  | .arg (.a8 n) => by_cases hn : n.toNat < 24 <;> simp [encodeHead, hn]
  | .arg (.a16 n) => simp [encodeHead]
  | .arg (.a32 n) => simp [encodeHead]
  | .arg (.a64 n) => simp [encodeHead]
  | .big n => simp [encodeHead]

/-! ## Items -/

mutual

def encode : Item → List UInt8
  | .uint a => encodeHead 0 (.arg a)
  | .negint a => encodeHead 1 (.arg a)
  | .bytes b => encodeHead 2 (.ofNat b.length) ++ b
  | .text b => encodeHead 3 (.ofNat b.length) ++ b
  | .array xs => encodeHead 4 (.ofNat xs.length) ++ encodeAll xs
  | .map kvs => encodeHead 5 (.ofNat kvs.length) ++ encodePairs kvs
  | .tag n i => encodeHead 6 (.ofNat n.toNat) ++ encode i
  | .prim p => encodeHead 7 (.arg p.arg)

def encodeAll : List Item → List UInt8
  | [] => []
  | x :: xs => encode x ++ encodeAll xs

def encodePairs : List (Item × Item) → List UInt8
  | [] => []
  | (k, v) :: kvs => encode k ++ (encode v ++ encodePairs kvs)

end

theorem encode_ne_nil (i : Item) : encode i ≠ [] := by
  have hhead : ∀ (major : ℕ) (h : Head) (rest : List UInt8), encodeHead major h ++ rest ≠ [] := by
    intro major h rest hnil
    have hpos := encodeHead_pos major h
    rw [(List.append_eq_nil_iff.mp hnil).1] at hpos
    exact absurd hpos (lt_irrefl 0)
  cases i with
  | uint a => simpa [encode] using hhead 0 (.arg a) []
  | negint a => simpa [encode] using hhead 1 (.arg a) []
  | bytes b => exact hhead 2 _ b
  | text b => exact hhead 3 _ b
  | array xs => exact hhead 4 _ _
  | map kvs => exact hhead 5 _ _
  | tag n i => exact hhead 6 _ _
  | prim p => simpa [encode] using hhead 7 (.arg p.arg) []

/-! ## Maps of a fixed capacity -/

/-- A map under construction, with room for `cap` pairs. -/
structure DefMap where
  cap : ℕ
  pairs : List (Item × Item)
  fits : pairs.length ≤ cap

namespace DefMap

def new (cap : ℕ) : DefMap := ⟨cap, [], Nat.zero_le _⟩

/-- Add a pair; a full map does not change. -/
def add (m : DefMap) (k v : Item) : DefMap :=
  if h : m.pairs.length < m.cap then ⟨m.cap, m.pairs ++ [(k, v)], by rw [List.length_append]; exact h⟩ else m

def item (m : DefMap) : Item := .map m.pairs

@[simp] theorem new_cap (cap : ℕ) : (new cap).cap = cap := rfl

@[simp] theorem new_pairs (cap : ℕ) : (new cap).pairs = [] := rfl

@[simp] theorem add_cap (m : DefMap) (k v : Item) : (m.add k v).cap = m.cap := by
  unfold add
  by_cases h : m.pairs.length < m.cap
  · rw [dif_pos h]
  · rw [dif_neg h]

/-- Pairs beyond the capacity are lost. -/
theorem add_pairs (m : DefMap) (k v : Item) : (m.add k v).pairs = (m.pairs ++ [(k, v)]).take m.cap := by
  unfold add
  by_cases h : m.pairs.length < m.cap
  · rw [dif_pos h, List.take_of_length_le (by rw [List.length_append]; exact h)]
  · have hfull : m.pairs.length = m.cap := by
      have := m.fits
      omega
    rw [dif_neg h, ← hfull, List.take_left]

end DefMap

/-- What a decoder is relied on for. Its memory and its stack are taken to be large enough for the item (a C library counts the containers
that are open and gives up at some number, 2048 as a rule), and a NaN is taken to keep its bits. -/
structure Loads (load : List UInt8 → Option Item) : Prop where
  load_encode : ∀ i, load (encode i) = some i
  load_truncated : ∀ i n, n < (encode i).length → load ((encode i).take n) = none

/-! ## A decoder -/

def decodeMany {α : Type} (read : List UInt8 → Option (α × List UInt8)) : ℕ → List UInt8 → Option (List α × List UInt8)
  | 0, bs => some ([], bs)
  | n + 1, bs => do
    let (x, bs) ← read bs
    let (xs, bs) ← decodeMany read n bs
    some (x :: xs, bs)

def decodePair (read : List UInt8 → Option (Item × List UInt8)) (bs : List UInt8) :
    Option ((Item × Item) × List UInt8) := do
  let (k, bs) ← read bs
  let (v, bs) ← read bs
  some ((k, v), bs)

def decodeRaw (n : ℕ) (bs : List UInt8) : Option (List UInt8 × List UInt8) :=
  if n ≤ bs.length then some (bs.take n, bs.drop n) else none

def decodeBody (read : List UInt8 → Option (Item × List UInt8)) (h : Head) (bs : List UInt8) :
    ℕ → Option (Item × List UInt8)
  | 0 => (h.toArg.map Item.uint).map (fun i => (i, bs))
  | 1 => (h.toArg.map Item.negint).map (fun i => (i, bs))
  | 2 => (decodeRaw h.toNat bs).map (fun r => (.bytes r.1, r.2))
  | 3 => (decodeRaw h.toNat bs).map (fun r => (.text r.1, r.2))
  | 4 => (decodeMany read h.toNat bs).map (fun r => (.array r.1, r.2))
  | 5 => (decodeMany (decodePair read) h.toNat bs).map (fun r => (.map r.1, r.2))
  | 6 => (read bs).map (fun r => (.tag (UInt64.ofNat h.toNat) r.1, r.2))
  | _ => ((h.toArg.bind Prim.ofArg).map Item.prim).map (fun i => (i, bs))

/-- One item at the front of `bs`, nested at most `fuel` deep. -/
def decode : ℕ → List UInt8 → Option (Item × List UInt8)
  | 0, _ => none
  | fuel + 1, bs =>
    match decodeHead bs with
    | none => none
    | some (major, a, bs) => decodeBody (decode fuel) a bs major

def load (bs : List UInt8) : Option Item := (decode bs.length bs).map Prod.fst

/-- A reader does not look past what it reads. -/
def Extends {α : Type} (read read' : List UInt8 → Option (α × List UInt8)) : Prop :=
  ∀ bs x rest ext, read bs = some (x, rest) → read' (bs ++ ext) = some (x, rest ++ ext)

theorem decodeMany_extend {α : Type} {read read' : List UInt8 → Option (α × List UInt8)} (h : Extends read read') (n : ℕ) :
    Extends (decodeMany read n) (decodeMany read' n) := by
  induction n with
  | zero =>
    intro bs x rest ext hd
    obtain ⟨rfl, rfl⟩ := Prod.mk.inj (Option.some.inj hd)
    rfl
  | succ n ih =>
    intro bs x rest ext hd
    simp only [decodeMany, Option.bind_eq_bind, Option.bind_eq_some_iff] at hd ⊢
    obtain ⟨⟨y, bs₁⟩, hy, ⟨ys, bs₂⟩, hys, heq⟩ := hd
    obtain ⟨rfl, rfl⟩ := Prod.mk.inj (Option.some.inj heq)
    exact ⟨_, h _ _ _ ext hy, _, ih _ _ _ ext hys, rfl⟩

theorem decodePair_extend {read read' : List UInt8 → Option (Item × List UInt8)} (h : Extends read read') :
    Extends (decodePair read) (decodePair read') := by
  intro bs x rest ext hd
  simp only [decodePair, Option.bind_eq_bind, Option.bind_eq_some_iff] at hd ⊢
  obtain ⟨⟨k, bs₁⟩, hk, ⟨v, bs₂⟩, hv, heq⟩ := hd
  obtain ⟨rfl, rfl⟩ := Prod.mk.inj (Option.some.inj heq)
  exact ⟨_, h _ _ _ ext hk, _, h _ _ _ ext hv, rfl⟩

theorem decodeRaw_extend (n : ℕ) : Extends (decodeRaw n) (decodeRaw n) := by
  intro bs x rest ext hd
  unfold decodeRaw at hd ⊢
  by_cases hn : n ≤ bs.length
  · rw [if_pos hn] at hd
    obtain ⟨rfl, rfl⟩ := Prod.mk.inj (Option.some.inj hd)
    have hn' : n ≤ (bs ++ ext).length := by
      rw [List.length_append]
      omega
    rw [if_pos hn', List.take_append_of_le_length hn, List.drop_append_of_le_length hn]
  · rw [if_neg hn] at hd
    cases hd

theorem map_extend {α β : Type} {read read' : List UInt8 → Option (α × List UInt8)} (h : Extends read read') (f : α → β) :
    Extends (fun bs => (read bs).map (fun r => (f r.1, r.2))) (fun bs => (read' bs).map (fun r => (f r.1, r.2))) := by
  intro bs x rest ext hd
  obtain ⟨⟨y, bs₁⟩, hy, heq⟩ := Option.map_eq_some_iff.mp hd
  obtain ⟨rfl, rfl⟩ := Prod.mk.inj heq
  exact Option.map_eq_some_iff.mpr ⟨_, h _ _ _ ext hy, rfl⟩

theorem decodeBody_extend {read read' : List UInt8 → Option (Item × List UInt8)} (h : Extends read read') (head : Head) (major : ℕ) :
    Extends (fun bs => decodeBody read head bs major) (fun bs => decodeBody read' head bs major) := by
  have hpure : ∀ o : Option Item, Extends (fun bs => o.map (fun i => (i, bs))) (fun bs => o.map (fun i => (i, bs))) := by
    intro o bs x rest ext hd
    obtain ⟨i, rfl, heq⟩ := Option.map_eq_some_iff.mp hd
    obtain ⟨rfl, rfl⟩ := Prod.mk.inj heq
    rfl
  match major with
  | 0 => exact hpure (head.toArg.map Item.uint)
  | 1 => exact hpure (head.toArg.map Item.negint)
  | 2 => exact map_extend (decodeRaw_extend _) Item.bytes
  | 3 => exact map_extend (decodeRaw_extend _) Item.text
  | 4 => exact map_extend (decodeMany_extend h _) Item.array
  | 5 => exact map_extend (decodeMany_extend (decodePair_extend h) _) Item.map
  | 6 => exact map_extend h (Item.tag (UInt64.ofNat head.toNat))
  | n + 7 => exact hpure ((head.toArg.bind Prim.ofArg).map Item.prim)

/-- More bytes and more fuel do not change what was decoded. -/
theorem decode_extend {fuel fuel' : ℕ} (h : fuel ≤ fuel') : Extends (decode fuel) (decode fuel') := by
  induction fuel generalizing fuel' with
  | zero =>
    intro bs x rest ext hd
    cases hd
  | succ fuel ih =>
    obtain ⟨k, rfl⟩ : ∃ k, fuel' = k + 1 := ⟨fuel' - 1, by omega⟩
    intro bs x rest ext hd
    unfold decode at hd ⊢
    cases hh : decodeHead bs with
    | none =>
      rw [hh] at hd
      cases hd
    | some r =>
      obtain ⟨major, a, bs₁⟩ := r
      rw [hh] at hd
      rw [decodeHead_extend hh ext]
      exact decodeBody_extend (ih (by omega)) a major _ _ _ ext hd

theorem decodeRaw_append (b rest : List UInt8) : decodeRaw b.length (b ++ rest) = some (b, rest) := by
  unfold decodeRaw
  rw [if_pos (by simp), List.take_left, List.drop_left]

theorem decode_head {major : ℕ} (hm : major < 8) (h : Head) (body rest : List UInt8) (fuel : ℕ) :
    decode (fuel + 1) (encodeHead major h ++ body ++ rest) = decodeBody (decode fuel) h (body ++ rest) major := by
  rw [List.append_assoc, decode, decodeHead_encodeHead hm]

mutual

theorem decode_encode (i : Item) (rest : List UInt8) (fuel : ℕ) (hf : (encode i).length ≤ fuel) :
    decode fuel (encode i ++ rest) = some (i, rest) := by
  have hpos : ∀ (major : ℕ) (head : Head) (body : List UInt8), (encodeHead major head ++ body).length ≤ fuel →
      ∃ k, fuel = k + 1 ∧ body.length ≤ k := by
    intro major head body h
    have hh := encodeHead_pos major head
    rw [List.length_append] at h
    exact ⟨fuel - 1, by omega, by omega⟩
  match i with
  | .uint a =>
    obtain ⟨k, rfl, _⟩ := hpos 0 (.arg a) [] (by simpa [encode] using hf)
    simpa [encode, decodeBody, Head.toArg] using decode_head (show 0 < 8 by omega) (.arg a) [] rest k
  | .negint a =>
    obtain ⟨k, rfl, _⟩ := hpos 1 (.arg a) [] (by simpa [encode] using hf)
    simpa [encode, decodeBody, Head.toArg] using decode_head (show 1 < 8 by omega) (.arg a) [] rest k
  | .bytes b =>
    simp only [encode] at hf ⊢
    obtain ⟨k, rfl, _⟩ := hpos _ _ _ hf
    rw [decode_head (by omega), decodeBody, Head.toNat_ofNat, decodeRaw_append]
    rfl
  | .text b =>
    simp only [encode] at hf ⊢
    obtain ⟨k, rfl, _⟩ := hpos _ _ _ hf
    rw [decode_head (by omega), decodeBody, Head.toNat_ofNat, decodeRaw_append]
    rfl
  | .array xs =>
    simp only [encode] at hf ⊢
    obtain ⟨k, rfl, hk⟩ := hpos _ _ _ hf
    rw [decode_head (by omega), decodeBody, Head.toNat_ofNat, decodeMany_encodeAll xs rest k hk]
    rfl
  | .map kvs =>
    simp only [encode] at hf ⊢
    obtain ⟨k, rfl, hk⟩ := hpos _ _ _ hf
    rw [decode_head (by omega), decodeBody, Head.toNat_ofNat, decodeMany_encodePairs kvs rest k hk]
    rfl
  | .tag n i =>
    simp only [encode] at hf ⊢
    obtain ⟨k, rfl, hk⟩ := hpos _ _ _ hf
    rw [decode_head (by omega), decodeBody, Head.toNat_ofNat, UInt64.ofNat_toNat, decode_encode i rest k hk]
    rfl
  | .prim p =>
    obtain ⟨k, rfl, _⟩ := hpos 7 (.arg p.arg) [] (by simpa [encode] using hf)
    simpa [encode, decodeBody, Head.toArg, Prim.ofArg_arg] using decode_head (show 7 < 8 by omega) (.arg p.arg) [] rest k

theorem decodeMany_encodeAll (xs : List Item) (rest : List UInt8) (fuel : ℕ) (hf : (encodeAll xs).length ≤ fuel) :
    decodeMany (decode fuel) xs.length (encodeAll xs ++ rest) = some (xs, rest) := by
  match xs with
  | [] => rfl
  | x :: xs =>
    simp only [encodeAll, List.length_append] at hf
    have hx := decode_encode x (encodeAll xs ++ rest) fuel (by omega)
    have hxs := decodeMany_encodeAll xs rest fuel (by omega)
    simp [encodeAll, decodeMany, List.append_assoc, hx, hxs]

theorem decodeMany_encodePairs (kvs : List (Item × Item)) (rest : List UInt8) (fuel : ℕ)
    (hf : (encodePairs kvs).length ≤ fuel) :
    decodeMany (decodePair (decode fuel)) kvs.length (encodePairs kvs ++ rest) = some (kvs, rest) := by
  match kvs with
  | [] => rfl
  | (k, v) :: kvs =>
    simp only [encodePairs, List.length_append] at hf
    have hk := decode_encode k (encode v ++ (encodePairs kvs ++ rest)) fuel (by omega)
    have hv := decode_encode v (encodePairs kvs ++ rest) fuel (by omega)
    have hkvs := decodeMany_encodePairs kvs rest fuel (by omega)
    simp [encodePairs, decodeMany, decodePair, List.append_assoc, hk, hv, hkvs]

end

theorem load_loads : Loads load := by
  have hfull : ∀ i, decode (encode i).length (encode i) = some (i, []) := by
    intro i
    have h := decode_encode i [] _ (le_refl _)
    rwa [List.append_nil] at h
  refine ⟨?_, ?_⟩
  · intro i
    rw [load, hfull i]
    rfl
  · intro i n hn
    unfold load
    cases hd : decode ((encode i).take n).length ((encode i).take n) with
    | none => rfl
    | some r =>
      obtain ⟨j, rest⟩ := r
      -- the cut-off bytes would be left over, but the whole encoding leaves nothing
      have hle : ((encode i).take n).length ≤ (encode i).length := by
        rw [List.length_take]
        omega
      have hext := decode_extend hle _ _ _ ((encode i).drop n) hd
      rw [List.take_append_drop, hfull i] at hext
      have hnil := (Prod.mk.inj (Option.some.inj hext)).2
      have hdrop := (List.append_eq_nil_iff.mp hnil.symm).2
      rw [List.drop_eq_nil_iff] at hdrop
      omega

end ScatterWeb.Lib.Cbor
