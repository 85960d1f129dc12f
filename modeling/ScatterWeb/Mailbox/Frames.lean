import Mathlib.Tactic.IntervalCases
import ScatterWeb.Client.Fields
import ScatterWeb.Lib.Validate

/-! # Frames and requests of the inbox and the outbox

Both daemons take frames apart with the same loops: the type is the first text under `"type"`, and any other
field is the last value of the right kind under its key, since each pair overwrites what was found before. Ids come as byte
strings and are kept as lower-case hexadecimal texts. The parameters of a request are a `CborMap`, a `std::map` in which a
later pair replaces an earlier one with its key. -/
namespace ScatterWeb.Mailbox
open Crypto Lib Lib.Cbor Client
set_option autoImplicit false

def hexDigit (n : ℕ) : UInt8 := UInt8.ofNat (if n < 10 then 48 + n else 87 + n)

def bytesToHex (b : Bytes) : Bytes := b.flatMap (fun c => [hexDigit (c.toNat / 16), hexDigit (c.toNat % 16)])

theorem length_bytesToHex (b : Bytes) : (bytesToHex b).length = 2 * b.length := by
  unfold bytesToHex
  induction b with
  | nil => rfl
  | cons c b ih =>
    simp only [List.flatMap_cons, List.length_append, List.length_cons, List.length_nil] at ih ⊢
    omega

theorem hexDigit_ne_zero {n : ℕ} (h : n < 16) : hexDigit n ≠ 0 := by
  interval_cases n <;> decide

theorem zero_notMem_bytesToHex (b : Bytes) : (0 : UInt8) ∉ bytesToHex b := by
  intro h
  obtain ⟨c, _, hc⟩ := List.mem_flatMap.mp h
  have hlt : c.toNat < 256 := c.toNat_lt
  rw [List.mem_cons, List.mem_singleton] at hc
  rcases hc with hc | hc
  · exact hexDigit_ne_zero (show c.toNat / 16 < 16 by omega) hc.symm
  · exact hexDigit_ne_zero (show c.toNat % 16 < 16 by omega) hc.symm

theorem hexDigit_inj {n k : ℕ} (hn : n < 16) (hk : k < 16) (h : hexDigit n = hexDigit k) : n = k := by
  have hall : ∀ n < 16, ∀ k < 16, hexDigit n = hexDigit k → n = k := by
    decide
  exact hall n hn k hk h

theorem bytesToHex_injective : Function.Injective bytesToHex := by
  intro b b' h
  induction b generalizing b' with
  | nil =>
    cases b' with
    | nil => rfl
    | cons c' b' => cases h
  | cons c b ih =>
    cases b' with
    | nil => cases h
    | cons c' b' =>
      have hc := c.toNat_lt
      have hc' := c'.toNat_lt
      obtain ⟨hhigh, hrest⟩ := List.cons.inj h
      obtain ⟨hlow, htail⟩ := List.cons.inj hrest
      have hdiv := hexDigit_inj (by omega) (by omega) hhigh
      have hmod := hexDigit_inj (by omega) (by omega) hlow
      have hbyte : c.toNat = c'.toNat := by omega
      rw [UInt8.toNat_inj.mp hbyte, ih htail]

/-- A byte string of the given size, as a hexadecimal text. -/
def asHex (n : ℕ) : Item → Option Bytes
  | .bytes b => if b.length = n then some (bytesToHex b) else none
  | _ => none

theorem eq_text_of_asText {item : Item} {b : Bytes} (h : asText item = some b) : item = .text b := by
  cases item with
  | text b' => exact congrArg Item.text (Option.some.inj h)
  | _ => cases h

theorem eq_bytes_of_asBytes {item : Item} {b : Bytes} (h : asBytes item = some b) : item = .bytes b := by
  cases item with
  | bytes b' => exact congrArg Item.bytes (Option.some.inj h)
  | _ => cases h

/-- The last pair with the key whose value `read` takes. -/
def lastField {α : Type} (read : Item → Option α) (kvs : List (Item × Item)) (key : String) : Option α :=
  lastWith (fun k => textKey k key) read kvs

def frameType : Item → Bytes
  | .map kvs => (getField textKey asText kvs "type").getD []
  | _ => []

theorem zero_notMem_of_asHex {n : ℕ} {item : Item} {b : Bytes} (h : asHex n item = some b) : (0 : UInt8) ∉ b := by
  cases item with
  | bytes raw =>
    simp only [asHex] at h
    by_cases hlen : raw.length = n
    · rw [if_pos hlen] at h
      cases h
      exact zero_notMem_bytesToHex raw
    · rw [if_neg hlen] at h
      cases h
  | _ => cases h

/-- The field comes from one of the pairs. -/
theorem mem_of_lastField {α : Type} {read : Item → Option α} {kvs : List (Item × Item)} {key : String} {a : α}
    (h : lastField read kvs key = some a) : ∃ kv ∈ kvs, textKey kv.1 key = true ∧ read kv.2 = some a := mem_of_lastWith h

/-! ## Requests -/

abbrev CborMap := List (Item × Item)

namespace CborMap

def find (p : CborMap) (k : String) : Option Item := lastField some p k

end CborMap

/-- An exception of a handler: `std::runtime_error` with its text, or a violated constraint of the database. -/
inductive IpcError
  | runtime (what : Bytes)
  | constraint
  deriving DecidableEq

abbrev Reply := List (String × Item)

def reqString (p : CborMap) (k : String) : Except IpcError Bytes :=
  match p.find k with
  | some (.text b) => .ok b
  | _ => .error (.runtime (ascii ("missing param: " ++ k)))

def reqBytes (p : CborMap) (k : String) : Except IpcError Bytes :=
  match p.find k with
  | some (.bytes b) => .ok b
  | _ => .error (.runtime (ascii ("missing param: " ++ k)))

end ScatterWeb.Mailbox
