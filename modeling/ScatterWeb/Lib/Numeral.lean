import Mathlib.Data.Nat.Digits.Defs
import Mathlib.Data.UInt

/-! # Numerals of the C library

`strtol` and its relatives skip white space, take a sign and, in base 16, a `0x` that a digit follows, and read as many digits as there are.
What comes after the digits is ignored. The functions of C++ throw where there is no digit, and where the value does not fit. White space
is that of the C locale, and a `long` has 64 bits. -/
namespace ScatterWeb.Lib.Numeral
set_option autoImplicit false

inductive ConversionError
  | invalidArgument
  | outOfRange
  deriving DecidableEq

def isSpace (c : UInt8) : Bool := c.toNat = 32 ∨ 9 ≤ c.toNat ∧ c.toNat ≤ 13

def isSign (c : UInt8) : Bool := c = 43 ∨ c = 45

/-- The value of a digit; letters of both cases go on from 10. -/
def digitVal (c : UInt8) : Option ℕ :=
  if 48 ≤ c.toNat ∧ c.toNat ≤ 57 then some (c.toNat - 48)
  else if 97 ≤ c.toNat ∧ c.toNat ≤ 122 then some (c.toNat - 87)
  else if 65 ≤ c.toNat ∧ c.toNat ≤ 90 then some (c.toNat - 55)
  else none

def digitIn (base : ℕ) (c : UInt8) : Option ℕ := (digitVal c).filter (fun d => decide (d < base))

/-- The digits at the start of a text, the most significant one first. -/
def leadingDigits (base : ℕ) : List UInt8 → List ℕ
  | [] => []
  | c :: cs =>
    match digitIn base c with
    | some d => d :: leadingDigits base cs
    | none => []

def dropPrefix (base : ℕ) : List UInt8 → List UInt8
  | z :: x :: d :: cs => if base = 16 ∧ z = 48 ∧ (x = 120 ∨ x = 88) ∧ (digitIn 16 d).isSome then d :: cs else z :: x :: d :: cs
  | s => s

/-- Whether there is a minus sign, and what follows the sign. -/
def splitSign : List UInt8 → Bool × List UInt8
  | [] => (false, [])
  | c :: cs => if c = 45 then (true, cs) else if c = 43 then (false, cs) else (false, c :: cs)

/-- The sign and the absolute value. -/
def numeral (base : ℕ) (s : List UInt8) : Option (Bool × ℕ) :=
  let (negative, s) := splitSign (s.dropWhile isSpace)
  let digits := leadingDigits base (dropPrefix base s)
  if digits = [] then none else some (negative, Nat.ofDigits base digits.reverse)

/-- A signed type of so many bits. -/
def signed (bits : ℕ) : Option (Bool × ℕ) → Except ConversionError ℤ
  | none => .error .invalidArgument
  | some (negative, n) =>
    let i : ℤ := if negative then -n else n
    if i < -2 ^ (bits - 1) ∨ 2 ^ (bits - 1) ≤ i then .error .outOfRange else .ok i

def stoi (base : ℕ) (s : List UInt8) : Except ConversionError ℤ := signed 32 (numeral base s)

def stoll (base : ℕ) (s : List UInt8) : Except ConversionError ℤ := signed 64 (numeral base s)

/-- A negative numeral is not refused, but wraps around. -/
def stoul (base : ℕ) (s : List UInt8) : Except ConversionError UInt64 :=
  match numeral base s with
  | none => .error .invalidArgument
  | some (negative, n) => if 2 ^ 64 ≤ n then .error .outOfRange else .ok (if negative then -UInt64.ofNat n else UInt64.ofNat n)

/-! ## Bounds -/

theorem digitIn_lt {base d : ℕ} {c : UInt8} (h : digitIn base c = some d) : d < base := of_decide_eq_true (Option.filter_eq_some_iff.mp h).2

theorem lt_of_mem_leadingDigits {base d : ℕ} {s : List UInt8} (h : d ∈ leadingDigits base s) : d < base := by
  induction s with
  | nil => cases h
  | cons c cs ih =>
    unfold leadingDigits at h
    split at h
    · rename_i hc
      obtain rfl | htail := List.mem_cons.mp h
      · exact digitIn_lt hc
      · exact ih htail
    · cases h

theorem length_leadingDigits (base : ℕ) (s : List UInt8) : (leadingDigits base s).length ≤ s.length := by
  induction s with
  | nil => exact le_rfl
  | cons c cs ih =>
    unfold leadingDigits
    split
    · exact Nat.succ_le_succ ih
    · exact Nat.zero_le _

theorem length_dropPrefix (base : ℕ) (s : List UInt8) : (dropPrefix base s).length ≤ s.length := by
  unfold dropPrefix
  split
  · split
    · simp only [List.length_cons]
      omega
    · exact le_rfl
  · exact le_rfl

theorem length_splitSign (s : List UInt8) : (splitSign s).2.length ≤ s.length := by
  unfold splitSign
  split
  · exact le_rfl
  · split_ifs
    · exact Nat.le_succ _
    · exact Nat.le_succ _
    · exact le_rfl

/-- As many digits as the text has characters, at most. -/
theorem numeral_lt {base n : ℕ} {s : List UInt8} {negative : Bool} (hbase : 1 < base) (h : numeral base s = some (negative, n)) :
    n < base ^ s.length := by
  unfold numeral at h
  dsimp only at h
  split_ifs at h
  cases h
  have hlength : (leadingDigits base (dropPrefix base (splitSign (s.dropWhile isSpace)).2)).length ≤ s.length :=
    (length_leadingDigits _ _).trans ((length_dropPrefix _ _).trans ((length_splitSign _).trans (List.dropWhile_sublist _).length_le))
  rw [← List.length_reverse] at hlength
  refine lt_of_lt_of_le (Nat.ofDigits_lt_base_pow_length hbase ?_) (Nat.pow_le_pow_right (by omega) hlength)
  intro d hd
  exact lt_of_mem_leadingDigits (List.mem_reverse.mp hd)

theorem signed_of_lt {bits n : ℕ} (negative : Bool) (h : n < 2 ^ (bits - 1)) :
    signed bits (some (negative, n)) = .ok (if negative then -n else n) := by
  have hcast : (n : ℤ) < 2 ^ (bits - 1) := by exact_mod_cast h
  refine if_neg ?_
  cases negative
  · simp only [Bool.false_eq_true, if_false]
    omega
  · simp only [if_true]
    omega

/-- A short text is only refused for want of a digit. -/
theorem stoi_ok_iff {s : List UInt8} (h : s.length ≤ 7) : (∃ i, stoi 16 s = .ok i) ↔ ∃ r, numeral 16 s = some r := by
  unfold stoi
  cases hr : numeral 16 s with
  | none => simp [signed]
  | some r =>
    obtain ⟨negative, n⟩ := r
    have hlt := numeral_lt (by omega) hr
    have hpow : 16 ^ s.length ≤ 16 ^ 7 := Nat.pow_le_pow_right (by omega) h
    rw [signed_of_lt negative (by norm_num at hpow ⊢; omega)]
    simp

/-! ## Hexadecimal digits -/

def isHexDigit (c : UInt8) : Bool := 48 ≤ c.toNat ∧ c.toNat ≤ 57 ∨ 97 ≤ c.toNat ∧ c.toNat ≤ 102 ∨ 65 ≤ c.toNat ∧ c.toNat ≤ 70

theorem isSome_digitIn (c : UInt8) : (digitIn 16 c).isSome = isHexDigit c := by
  have hfilter : ∀ n : ℕ, ((some n).filter (fun d => decide (d < 16))).isSome = true ↔ n < 16 := by
    intro n
    rw [Option.filter_some]
    by_cases hn : n < 16
    · simp [hn]
    · simp [hn]
  unfold digitIn digitVal isHexDigit
  rw [Bool.eq_iff_iff, decide_eq_true_iff]
  split_ifs
  · rw [hfilter]
    omega
  · rw [hfilter]
    omega
  · rw [hfilter]
    omega
  · rw [Option.filter_none]
    simp
    omega

theorem exists_digit {c : UInt8} (h : isHexDigit c = true) : ∃ d, digitIn 16 c = some d ∧ d < 16 := by
  rw [← isSome_digitIn] at h
  obtain ⟨d, hd⟩ := Option.isSome_iff_exists.mp h
  obtain ⟨_, hlt⟩ := Option.filter_eq_some_iff.mp hd
  exact ⟨d, hd, of_decide_eq_true hlt⟩

theorem digitIn_eq_none {c : UInt8} (h : isHexDigit c = false) : digitIn 16 c = none := by
  rw [← isSome_digitIn] at h
  exact Option.not_isSome_iff_eq_none.mp (by simp [h])

theorem not_isSpace_of_isHexDigit {c : UInt8} (h : isHexDigit c = true) : isSpace c = false := by
  simp only [isHexDigit, isSpace, decide_eq_true_eq, decide_eq_false_iff_not] at h ⊢
  omega

theorem not_isSign_of_isHexDigit {c : UInt8} (h : isHexDigit c = true) : isSign c = false := by
  simp only [isHexDigit, isSign, decide_eq_true_eq, decide_eq_false_iff_not, ← UInt8.toNat_inj] at h ⊢
  simp
  omega

theorem not_isHexDigit_of_isSpace {c : UInt8} (h : isSpace c = true) : isHexDigit c = false := by
  by_contra hhex
  rw [not_isSpace_of_isHexDigit (Bool.not_eq_false _ ▸ hhex)] at h
  cases h

theorem not_isHexDigit_of_isSign {c : UInt8} (h : isSign c = true) : isHexDigit c = false := by
  by_contra hhex
  rw [not_isSign_of_isHexDigit (Bool.not_eq_false _ ▸ hhex)] at h
  cases h

theorem not_isSpace_of_isSign {c : UInt8} (h : isSign c = true) : isSpace c = false := by
  simp only [isSign, isSpace, decide_eq_true_eq, decide_eq_false_iff_not, ← UInt8.toNat_inj] at h ⊢
  simp at h
  omega

theorem splitSign_of_not_isSign {c : UInt8} (h : isSign c = false) (cs : List UInt8) : splitSign (c :: cs) = (false, c :: cs) := by
  have hsign : ¬(c = 43 ∨ c = 45) := of_decide_eq_false h
  rw [splitSign, if_neg (fun hc => hsign (Or.inr hc)), if_neg (fun hc => hsign (Or.inl hc))]

theorem splitSign_of_isSign {c : UInt8} (h : isSign c = true) (cs : List UInt8) : ∃ negative, splitSign (c :: cs) = (negative, cs) := by
  have hsign : c = 43 ∨ c = 45 := of_decide_eq_true h
  obtain rfl | rfl := hsign
  · exact ⟨false, rfl⟩
  · exact ⟨true, rfl⟩

/-- What is left for the digits once white space and sign are gone. -/
def body (s : List UInt8) : List UInt8 := (splitSign (s.dropWhile isSpace)).2

/-- In two characters there is no room for a prefix. -/
theorem numeral_isSome_iff {s : List UInt8} (h : s.length ≤ 2) : (∃ r, numeral 16 s = some r) ↔ ∃ c cs, body s = c :: cs ∧ isHexDigit c = true := by
  have hlength : (body s).length ≤ 2 := (length_splitSign _).trans ((List.dropWhile_sublist _).length_le.trans h)
  have hprefix : dropPrefix 16 (body s) = body s := by
    unfold dropPrefix
    split
    · rename_i z x d cs hbody
      rw [hbody] at hlength
      simp at hlength
    · rfl
  have hnumeral : (∃ r, numeral 16 s = some r) ↔ leadingDigits 16 (body s) ≠ [] := by
    unfold numeral
    dsimp only
    rw [← body, hprefix]
    by_cases hdigits : leadingDigits 16 (body s) = []
    · simp [hdigits]
    · simp [hdigits]
  rw [hnumeral]
  cases body s with
  | nil => simp [leadingDigits]
  | cons c cs =>
    rw [leadingDigits]
    cases hc : isHexDigit c with
    | true =>
      obtain ⟨d, hd, _⟩ := exists_digit hc
      rw [hd]
      simp [hc]
    | false =>
      rw [digitIn_eq_none hc]
      simp [hc]

theorem body_of_isSpace {c : UInt8} (h : isSpace c = true) (cs : List UInt8) : body (c :: cs) = body cs := by
  unfold body
  rw [List.dropWhile_cons_of_pos h]

theorem body_of_isSign {c : UInt8} (h : isSign c = true) (cs : List UInt8) : body (c :: cs) = cs := by
  obtain ⟨negative, hsign⟩ := splitSign_of_isSign h cs
  unfold body
  rw [List.dropWhile_cons_of_neg (by simp [not_isSpace_of_isSign h]), hsign]

theorem body_of_not {c : UInt8} (hspace : isSpace c = false) (hsign : isSign c = false) (cs : List UInt8) : body (c :: cs) = c :: cs := by
  unfold body
  rw [List.dropWhile_cons_of_neg (by simp [hspace]), splitSign_of_not_isSign hsign]

/-- Two characters are read as a number, though perhaps not both. -/
def ReadsPair (a b : UInt8) : Prop := isHexDigit a = true ∨ (isSpace a = true ∨ isSign a = true) ∧ isHexDigit b = true

instance decidableReadsPair (a b : UInt8) : Decidable (ReadsPair a b) := inferInstanceAs (Decidable (_ ∨ _))

theorem exists_body_single_iff (b : UInt8) : (∃ c cs, body [b] = c :: cs ∧ isHexDigit c = true) ↔ isHexDigit b = true := by
  cases hspace : isSpace b with
  | true =>
    rw [body_of_isSpace hspace, not_isHexDigit_of_isSpace hspace]
    simp [body, splitSign]
  | false =>
    cases hsign : isSign b with
    | true =>
      rw [body_of_isSign hsign, not_isHexDigit_of_isSign hsign]
      simp
    | false =>
      rw [body_of_not hspace hsign]
      simp

theorem stoi_pair_ok_iff (a b : UInt8) : (∃ i, stoi 16 [a, b] = .ok i) ↔ ReadsPair a b := by
  rw [stoi_ok_iff (by simp), numeral_isSome_iff (by simp)]
  unfold ReadsPair
  cases hhex : isHexDigit a with
  | true =>
    rw [body_of_not (not_isSpace_of_isHexDigit hhex) (not_isSign_of_isHexDigit hhex)]
    simp [hhex]
  | false =>
    cases hspace : isSpace a with
    | true =>
      rw [body_of_isSpace hspace, exists_body_single_iff]
      simp
    | false =>
      cases hsign : isSign a with
      | true =>
        rw [body_of_isSign hsign]
        simp
      | false =>
        rw [body_of_not hspace hsign]
        simp [hhex]

/-- The value of two digits. -/
theorem stoi_pair_of_digits {a b : UInt8} {x y : ℕ} (ha : digitIn 16 a = some x) (hb : digitIn 16 b = some y) :
    stoi 16 [a, b] = .ok (16 * x + y : ℕ) := by
  have hhex : isHexDigit a = true := by
    rw [← isSome_digitIn, ha]
    rfl
  have hx := digitIn_lt ha
  have hy := digitIn_lt hb
  have hsplit : splitSign ([a, b].dropWhile isSpace) = (false, [a, b]) := by
    rw [List.dropWhile_cons_of_neg (by simp [not_isSpace_of_isHexDigit hhex]), splitSign_of_not_isSign (not_isSign_of_isHexDigit hhex)]
  have hdigits : leadingDigits 16 [a, b] = [x, y] := by
    rw [leadingDigits, ha, leadingDigits, hb, leadingDigits]
  have hnumeral : numeral 16 [a, b] = some (false, 16 * x + y) := by
    unfold numeral
    rw [hsplit]
    dsimp only [dropPrefix]
    rw [hdigits]
    simp [Nat.ofDigits_cons]
    omega
  unfold stoi
  rw [hnumeral, signed_of_lt false (by omega)]
  rfl

end ScatterWeb.Lib.Numeral
