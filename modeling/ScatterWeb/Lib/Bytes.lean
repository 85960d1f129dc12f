import Mathlib.Algebra.Order.Group.Nat
import Mathlib.Data.List.Induction
import Mathlib.Data.Vector.Basic

/-! # Bytes

`be k n` is the low `k` bytes of `n`, most significant first, and `ofBe` reads such a word back. The
second part is about arrays of a fixed length: what copying bytes into one and out of one does. -/
namespace ScatterWeb.Lib
set_option autoImplicit false

def be : ℕ → ℕ → List UInt8
  | 0, _ => []
  | k + 1, n => be k (n / 256) ++ [UInt8.ofNat n]

def ofBe (bs : List UInt8) : ℕ := bs.foldl (fun acc b => acc * 256 + b.toNat) 0

@[simp] theorem length_be (k n : ℕ) : (be k n).length = k := by
  induction k generalizing n with
  | zero => rfl
  | succ k ih => simp [be, ih]

theorem ofBe_append (bs : List UInt8) (b : UInt8) : ofBe (bs ++ [b]) = ofBe bs * 256 + b.toNat := by
  simp [ofBe]

theorem ofBe_be (k n : ℕ) : ofBe (be k n) = n % 256 ^ k := by
  induction k generalizing n with
  | zero => simp [be, ofBe, Nat.mod_one]
  | succ k ih =>
    have hb : (UInt8.ofNat n).toNat = n % 256 := by simp
    have hmod : n % 256 ^ (k + 1) = n / 256 % 256 ^ k * 256 + n % 256 := by
      rw [Nat.pow_succ, Nat.mul_comm (256 ^ k), Nat.mod_mul]
      omega
    rw [be, ofBe_append, ih, hb, hmod]

theorem ofBe_be_of_lt {k n : ℕ} (h : n < 256 ^ k) : ofBe (be k n) = n := by
  rw [ofBe_be, Nat.mod_eq_of_lt h]

/-- A big-endian number of `k` bytes at the front of `bs`, and what follows it. -/
def takeBe (k : ℕ) (bs : List UInt8) : Option (ℕ × List UInt8) :=
  if k ≤ bs.length then some (ofBe (bs.take k), bs.drop k) else none

theorem takeBe_be {k n : ℕ} (h : n < 256 ^ k) (rest : List UInt8) : takeBe k (be k n ++ rest) = some (n, rest) := by
  have hlen := length_be k n
  unfold takeBe
  rw [if_pos (by simp [hlen]), List.take_left' hlen, List.drop_left' hlen, ofBe_be_of_lt h]

theorem takeBe_extend {k n : ℕ} {bs rest : List UInt8} (h : takeBe k bs = some (n, rest)) (ext : List UInt8) :
    takeBe k (bs ++ ext) = some (n, rest ++ ext) := by
  unfold takeBe at h ⊢
  by_cases hk : k ≤ bs.length
  · rw [if_pos hk] at h
    obtain ⟨rfl, rfl⟩ := Prod.mk.inj (Option.some.inj h)
    have hk' : k ≤ (bs ++ ext).length := by
      rw [List.length_append]
      omega
    rw [if_pos hk', List.take_append_of_le_length hk, List.drop_append_of_le_length hk]
  · rw [if_neg hk] at h
    cases h

theorem be_ofBe (bs : List UInt8) : be bs.length (ofBe bs) = bs := by
  induction bs using List.reverseRecOn with
  | nil => rfl
  | append_singleton bs b ih =>
    have hdiv : (ofBe bs * 256 + b.toNat) / 256 = ofBe bs := by
      have := b.toNat_lt
      omega
    have hlast : UInt8.ofNat (ofBe bs * 256 + b.toNat) = b := by
      apply UInt8.toNat_inj.mp
      simp
    rw [ofBe_append, List.length_append, List.length_singleton, be, hdiv, ih, hlast]

theorem eq_of_takeBe {k n : ℕ} {b rest : List UInt8} (h : takeBe k b = some (n, rest)) : b = be k n ++ rest := by
  unfold takeBe at h
  split at h
  · rename_i hk
    cases h
    have hbytes := be_ofBe (b.take k)
    rw [List.length_take, min_eq_left hk] at hbytes
    rw [hbytes, List.take_append_drop]
  · cases h

theorem ofBe_lt (bs : List UInt8) : ofBe bs < 256 ^ bs.length := by
  rw [← be_ofBe bs, ofBe_be, length_be]
  exact Nat.mod_lt _ (Nat.pow_pos (by decide))

/-! ## Counting -/

/-- Add one to the first byte, and with a carry to the next. -/
def carry : List UInt8 → List UInt8
  | [] => []
  | b :: bs => if b + 1 = 0 then (b + 1) :: carry bs else (b + 1) :: bs

/-- A big-endian number plus one; the largest one becomes zero. -/
def increment (bs : List UInt8) : List UInt8 := (carry bs.reverse).reverse

theorem length_carry (bs : List UInt8) : (carry bs).length = bs.length := by
  induction bs with
  | nil => rfl
  | cons b bs ih =>
    rw [carry]
    split
    · simp [ih]
    · rfl

@[simp] theorem length_increment (bs : List UInt8) : (increment bs).length = bs.length := by
  rw [increment, List.length_reverse, length_carry, List.length_reverse]

theorem ofBe_reverse_carry (bs : List UInt8) :
    ofBe (carry bs).reverse = (ofBe bs.reverse + 1) % 256 ^ bs.length := by
  induction bs with
  | nil => rfl
  | cons b bs ih =>
    have hb := b.toNat_lt
    have hlt := ofBe_lt bs.reverse
    rw [List.length_reverse] at hlt
    have hsum : (b + 1).toNat = (b.toNat + 1) % 256 := by simp [UInt8.toNat_add]
    rw [carry]
    split
    · rename_i hzero
      have hmax : (b.toNat + 1) % 256 = 0 := by rw [← hsum, hzero]; rfl
      rw [List.reverse_cons, List.reverse_cons, ofBe_append, ofBe_append, ih, List.length_cons, Nat.pow_succ, hsum, hmax,
        Nat.add_zero]
      have hval : ofBe bs.reverse * 256 + b.toNat + 1 = (ofBe bs.reverse + 1) * 256 := by omega
      rw [hval, Nat.mul_mod_mul_right]
    · rename_i hzero
      have hmax : (b + 1).toNat ≠ 0 := fun h => hzero (UInt8.toNat_inj.mp h)
      rw [List.reverse_cons, List.reverse_cons, ofBe_append, ofBe_append, List.length_cons, Nat.pow_succ, hsum,
        Nat.mod_eq_of_lt (by omega)]
      rw [Nat.mod_eq_of_lt]
      · omega
      · omega

theorem ofBe_increment (bs : List UInt8) : ofBe (increment bs) = (ofBe bs + 1) % 256 ^ bs.length := by
  have h := ofBe_reverse_carry bs.reverse
  rw [List.reverse_reverse, List.length_reverse] at h
  exact h

/-! ## Strings and arrays -/

def ascii (s : String) : List UInt8 := s.toUTF8.data.toList

theorem ascii_inj {a b : String} : ascii a = ascii b ↔ a = b := by
  unfold ascii
  constructor
  · intro h
    exact String.toByteArray_inj.mp (ByteArray.ext (Array.toList_inj.mp h))
  · rintro rfl
    rfl

def toArr {n : ℕ} (b : List UInt8) (h : b.length = n) : List.Vector UInt8 n := ⟨b, h⟩

theorem toArr_toList {n : ℕ} (v : List.Vector UInt8 n) (h : v.toList.length = n) : toArr v.toList h = v := rfl

/-- `std::copy` into an array when the size is right; otherwise the array keeps its content. -/
def copyInto {n : ℕ} (old : List.Vector UInt8 n) (b : List UInt8) : List.Vector UInt8 n :=
  if h : b.length = n then toArr b h else old

theorem copyInto_toList {n : ℕ} (old v : List.Vector UInt8 n) : copyInto old v.toList = v := by
  unfold copyInto
  rw [dif_pos v.toList_length, toArr_toList]

theorem copyInto_of_ne {n : ℕ} (old : List.Vector UInt8 n) {b : List UInt8} (h : b.length ≠ n) : copyInto old b = old := by
  unfold copyInto
  rw [dif_neg h]

/-- An array of zeros with `b` copied to its front. -/
def fit (n : ℕ) (b : List UInt8) : List.Vector UInt8 n := ⟨(b ++ List.replicate n 0).take n, by simp⟩

def slice (i n : ℕ) (b : List UInt8) : List.Vector UInt8 n := fit n (b.drop i)

def readBe (i k : ℕ) (b : List UInt8) : ℕ := ofBe ((b.drop i).take k)

def byteAt (i : ℕ) (b : List UInt8) : UInt8 := b.getD i 0

/-- Enough bytes begin with an array. -/
theorem exists_vector_append {n : ℕ} {b : List UInt8} (h : n ≤ b.length) : ∃ (v : List.Vector UInt8 n) (rest : List UInt8),
    b = v.toList ++ rest ∧ n + rest.length = b.length := by
  refine ⟨toArr (b.take n) (List.length_take_of_le h), b.drop n, (List.take_append_drop n b).symm, ?_⟩
  rw [List.length_drop]
  omega

/-- And end with one. -/
theorem exists_append_vector {n : ℕ} {b : List UInt8} (h : n ≤ b.length) : ∃ (rest : List UInt8) (v : List.Vector UInt8 n),
    b = rest ++ v.toList ∧ rest.length + n = b.length := by
  have hlen : (b.drop (b.length - n)).length = n := by
    rw [List.length_drop]
    omega
  refine ⟨b.take (b.length - n), toArr (b.drop (b.length - n)) hlen, (List.take_append_drop _ b).symm, ?_⟩
  rw [List.length_take]
  omega

theorem toList_fit {n : ℕ} {b : List UInt8} (h : b.length = n) : (fit n b).toList = b := by
  change (b ++ List.replicate n 0).take n = b
  exact List.take_left' h

theorem take_fit {n : ℕ} {b : List UInt8} (h : b.length ≤ n) : (fit n b).toList.take b.length = b := by
  change ((b ++ List.replicate n 0).take n).take b.length = b
  rw [List.take_take, Nat.min_eq_left h, List.take_left]

theorem fit_append {n : ℕ} (v : List.Vector UInt8 n) (rest : List UInt8) : fit n (v.toList ++ rest) = v := by
  apply List.Vector.eq
  change ((v.toList ++ rest) ++ List.replicate n 0).take n = v.toList
  rw [List.append_assoc, List.take_left' v.toList_length]

theorem fit_toList {n : ℕ} (v : List.Vector UInt8 n) : fit n v.toList = v := by
  have h := fit_append v []
  rwa [List.append_nil] at h

/-- An array that was widened is read back. -/
theorem fit_fit {n m : ℕ} (h : n ≤ m) (v : List.Vector UInt8 n) : fit n (fit m v.toList).toList = v := by
  have hwide : (fit m v.toList).toList = v.toList ++ (List.replicate m 0).take (m - n) := by
    change (v.toList ++ List.replicate m 0).take m = _
    rw [List.take_append, List.take_of_length_le (by rw [List.Vector.toList_length]; exact h), List.Vector.toList_length]
  rw [hwide]
  exact fit_append v _

theorem slice_append {i n : ℕ} {p : List UInt8} (h : p.length = i) (v : List.Vector UInt8 n) (rest : List UInt8) :
    slice i n (p ++ (v.toList ++ rest)) = v := by
  unfold slice
  rw [List.drop_left' h, fit_append]

theorem readBe_append {i k n : ℕ} {p : List UInt8} (h : p.length = i) (hn : n < 256 ^ k) (rest : List UInt8) :
    readBe i k (p ++ (be k n ++ rest)) = n := by
  unfold readBe
  rw [List.drop_left' h, List.take_left' (length_be k n), ofBe_be_of_lt hn]

theorem byteAt_append {i : ℕ} {p : List UInt8} (h : p.length = i) (x : UInt8) (rest : List UInt8) :
    byteAt i (p ++ x :: rest) = x := by
  unfold byteAt
  rw [List.getD_eq_getElem?_getD, ← h, List.getElem?_append_right (le_refl _)]
  simp

/-! ## Narrowing

A cast of an unsigned 64-bit integer to a signed one, of the same size or of half of it, keeps the low bits. -/

theorem toInt_toInt64 (n : ℕ) : (UInt64.ofNat n).toInt64.toInt = (n : ℤ).bmod (2 ^ 64) := by
  change (UInt64.ofNat n).toBitVec.toInt = _
  rw [BitVec.toInt_eq_toNat_bmod]
  have h := Int.emod_bmod (n : ℤ) (2 ^ 64)
  simpa using h

theorem toInt_toInt32 (n : ℕ) : (UInt64.ofNat n).toUInt32.toInt32.toInt = (n : ℤ).bmod (2 ^ 32) := by
  change (UInt64.ofNat n).toUInt32.toBitVec.toInt = _
  rw [BitVec.toInt_eq_toNat_bmod]
  have h := Int.emod_bmod (n : ℤ) (2 ^ 32)
  simpa using h

end ScatterWeb.Lib
