import Mathlib.Data.List.Basic
import Mathlib.Tactic.Ring

/-! Fixed-width unsigned integers as bytes, most significant first. -/

namespace InputLeap.Lib.BigEndian

def encode : ℕ → ℕ → List UInt8
  | 0, _ => []
  | k + 1, n => UInt8.ofNat (n / 256 ^ k) :: encode k n

def decode (bytes : List UInt8) : ℕ := bytes.foldl (fun n b => 256 * n + b.toNat) 0

@[simp] lemma encode_length (k n : ℕ) : (encode k n).length = k := by
  induction k with
  | zero => rfl
  | succ k ih => simp [encode, ih]

lemma foldl_decode (bytes : List UInt8) (n : ℕ) :
    bytes.foldl (fun n b => 256 * n + b.toNat) n = n * 256 ^ bytes.length + decode bytes := by
  induction bytes generalizing n with
  | nil => simp [decode]
  | cons b bytes ih =>
    rw [decode, List.foldl_cons, List.foldl_cons, ih, ih (256 * 0 + b.toNat), List.length_cons]
    ring

lemma decode_cons (b : UInt8) (bytes : List UInt8) :
    decode (b :: bytes) = b.toNat * 256 ^ bytes.length + decode bytes := by
  rw [decode, List.foldl_cons, foldl_decode]
  simp

lemma decode_lt (bytes : List UInt8) : decode bytes < 256 ^ bytes.length := by
  induction bytes with
  | nil => simp [decode]
  | cons b bytes ih =>
    have hb : b.toNat + 1 ≤ 256 := b.toNat_lt
    rw [decode_cons, List.length_cons, pow_succ, mul_comm (256 ^ bytes.length) 256]
    calc b.toNat * 256 ^ bytes.length + decode bytes < b.toNat * 256 ^ bytes.length + 256 ^ bytes.length := by omega
      _ = (b.toNat + 1) * 256 ^ bytes.length := by ring
      _ ≤ 256 * 256 ^ bytes.length := Nat.mul_le_mul_right _ hb

lemma decode_encode_mod (k n : ℕ) : decode (encode k n) = n % 256 ^ k := by
  induction k with
  | zero => simp [encode, decode, Nat.mod_one]
  | succ k ih =>
    rw [encode, decode_cons, ih, encode_length, pow_succ, Nat.mod_mul, UInt8.toNat_ofNat']
    ring

@[simp] lemma decode_encode {k n : ℕ} (h : n < 256 ^ k) : decode (encode k n) = n := by
  rw [decode_encode_mod, Nat.mod_eq_of_lt h]

end InputLeap.Lib.BigEndian
