import Mathlib.Data.List.Basic
import Mathlib.Data.Fintype.Basic

/-! # Base64 with the alphabet for URLs and without padding

Three bytes are four digits of six bits; one or two bytes at the end are two or three digits, and the bits that are left over
are zero. A decoder turns away anything else. -/
namespace ScatterWeb.Lib.Base64
set_option autoImplicit false

def digit (n : ℕ) : UInt8 :=
  if n < 26 then UInt8.ofNat (65 + n)
  else if n < 52 then UInt8.ofNat (71 + n)
  else if n < 62 then UInt8.ofNat (n - 4)
  else if n = 62 then 45
  else 95

def value (c : UInt8) : Option ℕ :=
  if 65 ≤ c ∧ c ≤ 90 then some (c.toNat - 65)
  else if 97 ≤ c ∧ c ≤ 122 then some (c.toNat - 71)
  else if 48 ≤ c ∧ c ≤ 57 then some (c.toNat + 4)
  else if c = 45 then some 62
  else if c = 95 then some 63
  else none

def encode : List UInt8 → List UInt8
  | [] => []
  | [a] => [digit (a.toNat / 4), digit (a.toNat % 4 * 16)]
  | [a, b] => [digit (a.toNat / 4), digit (a.toNat % 4 * 16 + b.toNat / 16), digit (b.toNat % 16 * 4)]
  | a :: b :: c :: rest =>
    digit (a.toNat / 4) :: digit (a.toNat % 4 * 16 + b.toNat / 16) :: digit (b.toNat % 16 * 4 + c.toNat / 64) ::
      digit (c.toNat % 64) :: encode rest

def decode : List UInt8 → Option (List UInt8)
  | [] => some []
  | [_] => none
  | [w, x] => do
    let w ← value w
    let x ← value x
    if x % 16 = 0 then some [UInt8.ofNat (w * 4 + x / 16)] else none
  | [w, x, y] => do
    let w ← value w
    let x ← value x
    let y ← value y
    if y % 4 = 0 then some [UInt8.ofNat (w * 4 + x / 16), UInt8.ofNat (x % 16 * 16 + y / 4)] else none
  | w :: x :: y :: z :: rest => do
    let w ← value w
    let x ← value x
    let y ← value y
    let z ← value z
    let rest ← decode rest
    some (UInt8.ofNat (w * 4 + x / 16) :: UInt8.ofNat (x % 16 * 16 + y / 4) :: UInt8.ofNat (y % 4 * 64 + z) :: rest)

theorem value_digit {n : ℕ} (h : n < 64) : value (digit n) = some n := by
  have hall : ∀ k : Fin 64, value (digit k) = some k.val := by decide
  exact hall ⟨n, h⟩

theorem ofNat_eq {a : UInt8} {n : ℕ} (h : n = a.toNat) : UInt8.ofNat n = a := by
  rw [h]
  exact UInt8.ofNat_toNat

theorem decode_encode (b : List UInt8) : decode (encode b) = some b := by
  have hlt : ∀ c : UInt8, c.toNat < 256 := fun c => c.toNat_lt
  induction b using encode.induct with
  | case1 => rfl
  | case2 a =>
    have ha := hlt a
    have hrest : a.toNat % 4 * 16 % 16 = 0 := by omega
    have hfirst : UInt8.ofNat (a.toNat / 4 * 4 + a.toNat % 4 * 16 / 16) = a := ofNat_eq (by omega)
    simp only [encode, decode]
    rw [value_digit (by omega), value_digit (by omega)]
    simp only [Option.bind_eq_bind, Option.bind_some, if_pos hrest, hfirst]
  | case3 a b =>
    have ha := hlt a
    have hb := hlt b
    have hrest : b.toNat % 16 * 4 % 4 = 0 := by omega
    have hfirst : UInt8.ofNat (a.toNat / 4 * 4 + (a.toNat % 4 * 16 + b.toNat / 16) / 16) = a := ofNat_eq (by omega)
    have hsecond : UInt8.ofNat ((a.toNat % 4 * 16 + b.toNat / 16) % 16 * 16 + b.toNat % 16 * 4 / 4) = b := ofNat_eq (by omega)
    simp only [encode, decode]
    rw [value_digit (by omega), value_digit (by omega), value_digit (by omega)]
    simp only [Option.bind_eq_bind, Option.bind_some, if_pos hrest, hfirst, hsecond]
  | case4 a b c rest ih =>
    have ha := hlt a
    have hb := hlt b
    have hc := hlt c
    have hfirst : UInt8.ofNat (a.toNat / 4 * 4 + (a.toNat % 4 * 16 + b.toNat / 16) / 16) = a := ofNat_eq (by omega)
    have hsecond : UInt8.ofNat ((a.toNat % 4 * 16 + b.toNat / 16) % 16 * 16 + (b.toNat % 16 * 4 + c.toNat / 64) / 4) = b :=
      ofNat_eq (by omega)
    have hthird : UInt8.ofNat ((b.toNat % 16 * 4 + c.toNat / 64) % 4 * 64 + c.toNat % 64) = c := ofNat_eq (by omega)
    simp only [encode, decode]
    rw [value_digit (by omega), value_digit (by omega), value_digit (by omega), value_digit (by omega), ih]
    simp only [Option.bind_eq_bind, Option.bind_some, hfirst, hsecond, hthird]

end ScatterWeb.Lib.Base64
