import Mathlib.Data.List.Basic
import Mathlib.Tactic.Ring

/-! Natural numbers as decimal digits in ASCII. -/

namespace InputLeap.Lib.Decimal

def isDigit (b : UInt8) : Bool := decide (48 ≤ b.toNat ∧ b.toNat ≤ 57)

def encode (n : ℕ) : List UInt8 := (Nat.toDigits 10 n).map Char.toUInt8

def decode (bytes : List UInt8) : ℕ := bytes.foldl (fun n b => 10 * n + (b.toNat - 48)) 0

lemma toUInt8_toNat {c : Char} (h : c.isDigit = true) : c.toUInt8.toNat = c.toNat := by
  obtain ⟨-, hle⟩ := Char.isDigit_iff_toNat.mp h
  apply Nat.mod_eq_of_lt
  exact Nat.lt_of_le_of_lt hle (by decide)

lemma isDigit_toUInt8 {c : Char} (h : c.isDigit = true) : isDigit c.toUInt8 = true := by
  rw [isDigit, toUInt8_toNat h]
  exact decide_eq_true (Char.isDigit_iff_toNat.mp h)

lemma isDigit_of_mem_encode {n : ℕ} {b : UInt8} (h : b ∈ encode n) : isDigit b = true := by
  obtain ⟨c, hc, rfl⟩ := List.mem_map.mp h
  exact isDigit_toUInt8 (Nat.isDigit_of_mem_toDigits (by decide) (by decide) hc)

lemma encode_ne_nil (n : ℕ) : encode n ≠ [] := by
  simp [encode]

lemma encode_length_le {n k : ℕ} (hk : 0 < k) (h : n < 10 ^ k) : (encode n).length ≤ k := by
  rw [encode, List.length_map]
  exact (Nat.length_toDigits_le_iff (by decide) hk).mpr h

lemma foldl_map_toUInt8 {chars : List Char} (h : ∀ c ∈ chars, c.isDigit = true) (n : ℕ) :
    (chars.map Char.toUInt8).foldl (fun n b => 10 * n + (b.toNat - 48)) n = Nat.ofDigitChars 10 chars n := by
  induction chars generalizing n with
  | nil => rfl
  | cons c chars ih =>
    rw [List.map_cons, List.foldl_cons, toUInt8_toNat (h c List.mem_cons_self),
      ih fun d hd => h d (List.mem_cons_of_mem c hd), Nat.ofDigitChars_cons]
    rfl

@[simp] lemma decode_encode (n : ℕ) : decode (encode n) = n := by
  rw [decode, encode, foldl_map_toUInt8, Nat.ofDigitChars_ten_toDigits]
  intro c hc
  exact Nat.isDigit_of_mem_toDigits (by decide) (by decide) hc

end InputLeap.Lib.Decimal
