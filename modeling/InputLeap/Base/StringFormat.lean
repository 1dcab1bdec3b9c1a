import Mathlib.Data.List.TakeWhile
import Mathlib.Tactic.Linarith
import Mathlib.Tactic.Ring

/-! Formatting into a buffer that grows until the output fits. The formatter returns the length of the output without its
terminator, and the buffer has to hold the terminator too. -/

namespace InputLeap.StringFormat

/-- The content of a buffer of `len` characters behind the call, and the result, which is an int. -/
def vsnprintf (output : List UInt8) (len : ℕ) : List UInt8 × ℤ :=
  (output.take (len - 1) ++ [0], if output.length < 2 ^ 31 then output.length else -1)

/-- A string is made of the characters in front of the first terminator. -/
def stringOf (buffer : List UInt8) : List UInt8 := buffer.takeWhile fun c => c != 0

/-- The loop from a buffer of `len` characters on. There is no result if the length overflows. -/
def sprintfFrom (output : List UInt8) (len : ℕ) : Option (List UInt8) :=
  let (buffer, n) := vsnprintf output len
  if n < 0 ∨ n > len then
    if 0 < len ∧ len * 2 < 2 ^ 31 then sprintfFrom output (len * 2) else none
  else some (stringOf buffer)
termination_by 2 ^ 31 - len

def sprintf (output : List UInt8) : Option (List UInt8) := sprintfFrom output 1024

section Passes

variable {output : List UInt8} {len : ℕ}

lemma sprintfFrom_short (hlen : len < 2 ^ 31) (h : output.length ≤ len) :
    sprintfFrom output len = some (stringOf (output.take (len - 1) ++ [0])) := by
  rw [sprintfFrom, vsnprintf, if_pos (by omega)]
  dsimp only
  rw [if_neg (by omega)]

lemma sprintfFrom_long (hlen : 0 < len) (h : len < output.length) :
    sprintfFrom output len = if len * 2 < 2 ^ 31 then sprintfFrom output (len * 2) else none := by
  have hagain : (if output.length < 2 ^ 31 then (output.length : ℤ) else -1) < 0 ∨
      (if output.length < 2 ^ 31 then (output.length : ℤ) else -1) > len := by
    split_ifs
    · exact .inr (by omega)
    · exact .inl (by omega)
  rw [sprintfFrom, vsnprintf]
  dsimp only
  rw [if_pos hagain]
  simp only [hlen, true_and]

lemma stringOf_fits (h : output.length < len) : stringOf (output.take (len - 1) ++ [0]) = output ↔ 0 ∉ output := by
  rw [List.take_of_length_le (by omega), stringOf]
  constructor
  · intro heq hmem
    rw [← heq] at hmem
    exact absurd (List.mem_takeWhile_imp hmem) (by decide)
  · intro hmem
    rw [List.takeWhile_append_of_pos, List.takeWhile_cons_of_neg (by decide), List.append_nil]
    intro c hc
    rw [bne_iff_ne]
    rintro rfl
    exact hmem hc

/-- A buffer without room for the terminator loses the last character. -/
lemma stringOf_full (hlen : 0 < len) (h : output.length = len) : stringOf (output.take (len - 1) ++ [0]) ≠ output := by
  intro heq
  have hzero : (output.take (len - 1) ++ [0]).takeWhile (fun c => c != 0) =
      (output.take (len - 1)).takeWhile fun c => c != 0 := by
    rw [List.takeWhile_append]
    split_ifs with hall
    · rw [List.takeWhile_cons_of_neg (by decide), List.append_nil]
      exact (List.IsPrefix.eq_of_length (List.takeWhile_prefix _) hall).symm
    · rfl
  have hshort := (List.takeWhile_prefix (l := output.take (len - 1)) fun c => c != 0).length_le
  rw [stringOf, hzero] at heq
  rw [heq, List.length_take] at hshort
  omega

lemma stringOf_dropLast (h : output.length = len) (hmem : 0 ∉ output) :
    stringOf (output.take (len - 1) ++ [0]) = output.dropLast := by
  rw [← h, ← List.dropLast_eq_take, stringOf, List.takeWhile_append_of_pos, List.takeWhile_cons_of_neg (by decide),
    List.append_nil]
  intro c hc
  rw [bne_iff_ne]
  rintro rfl
  exact hmem (List.dropLast_subset _ hc)

lemma sprintfFrom_cases {k : ℕ} (hk : k ≤ 20) (hmem : 0 ∉ output) : sprintfFrom output (1024 * 2 ^ k) = none ∨
    sprintfFrom output (1024 * 2 ^ k) = some output ∨ sprintfFrom output (1024 * 2 ^ k) = some output.dropLast := by
  have hlen : 1024 * 2 ^ k ≤ 2 ^ 30 := by
    have : 2 ^ k ≤ 2 ^ 20 := Nat.pow_le_pow_right (by decide) hk
    omega
  have hpos : 0 < 2 ^ k := Nat.two_pow_pos k
  rcases lt_trichotomy output.length (1024 * 2 ^ k) with hlt | heq | hgt
  · rw [sprintfFrom_short (by omega) hlt.le, (stringOf_fits hlt).mpr hmem]
    exact .inr (.inl rfl)
  · rw [sprintfFrom_short (by omega) heq.le, stringOf_dropLast heq hmem]
    exact .inr (.inr rfl)
  · rw [sprintfFrom_long (by omega) hgt]
    split_ifs with hdouble
    · have hsucc : 1024 * 2 ^ k * 2 = 1024 * 2 ^ (k + 1) := by ring
      have hk20 : k ≠ 20 := by
        rintro rfl
        omega
      rw [hsucc]
      exact sprintfFrom_cases (by omega) hmem
    · exact .inl rfl
termination_by 20 - k

lemma sprintfFrom_iff {k : ℕ} (hk : k ≤ 20) : sprintfFrom output (1024 * 2 ^ k) = some output ↔
    output.length < 2 ^ 30 ∧ (∀ j ≥ k, output.length ≠ 1024 * 2 ^ j) ∧ 0 ∉ output := by
  have hmono {j : ℕ} (hj : k ≤ j) : 2 ^ k ≤ 2 ^ j := Nat.pow_le_pow_right (by decide) hj
  have hlen : 1024 * 2 ^ k ≤ 2 ^ 30 := by
    have : 2 ^ k ≤ 2 ^ 20 := Nat.pow_le_pow_right (by decide) hk
    omega
  have hpos : 0 < 2 ^ k := Nat.two_pow_pos k
  rcases lt_trichotomy output.length (1024 * 2 ^ k) with hlt | heq | hgt
  · rw [sprintfFrom_short (by omega) hlt.le, Option.some_inj, stringOf_fits hlt, and_iff_right (by omega), and_iff_right]
    intro j hj
    have := hmono hj
    omega
  · rw [sprintfFrom_short (by omega) heq.le, Option.some_inj]
    refine iff_of_false (stringOf_full (by omega) heq) ?_
    rintro ⟨-, hne, -⟩
    exact hne k (le_refl k) heq
  · rw [sprintfFrom_long (by omega) hgt]
    by_cases hlast : k = 20
    · subst hlast
      rw [if_neg (by decide)]
      refine iff_of_false (by simp) ?_
      rintro ⟨hlt, -⟩
      omega
    · have hdouble : 1024 * 2 ^ k * 2 = 1024 * 2 ^ (k + 1) := by ring
      have hstep : 2 ^ (k + 1) ≤ 2 ^ 20 := Nat.pow_le_pow_right (by decide) (by omega)
      rw [hdouble, if_pos (by omega), sprintfFrom_iff (by omega)]
      apply and_congr_right
      intro _
      apply and_congr_left
      intro _
      constructor
      · intro hne j hj
        rcases Nat.eq_or_lt_of_le hj with rfl | hj
        · omega
        · exact hne j hj
      · intro hne j hj
        exact hne j (by omega)
termination_by 20 - k

end Passes

/-- The whole output is returned unless its length is that of a buffer, or it is too long, or has a terminator in it. -/
theorem sprintf_iff (output : List UInt8) : sprintf output = some output ↔
    output.length < 2 ^ 30 ∧ (∀ k, output.length ≠ 1024 * 2 ^ k) ∧ 0 ∉ output := by
  have h : sprintfFrom output 1024 = some output ↔ _ := sprintfFrom_iff (k := 0) (by decide)
  rw [sprintf, h]
  simp

lemma sprintf_cases {output : List UInt8} (h : 0 ∉ output) :
    sprintf output = none ∨ sprintf output = some output ∨ sprintf output = some output.dropLast :=
  sprintfFrom_cases (k := 0) (by decide) h

/-- The output fills the first buffer, and loses its last character. -/
theorem sprintf_truncated : sprintf (List.replicate 1024 0x61) = some (List.replicate 1023 0x61) := by
  have hletters (c : UInt8) (hc : c ∈ List.replicate 1023 (0x61 : UInt8)) : (c != 0) = true := by
    rw [List.eq_of_mem_replicate hc]
    rfl
  rw [sprintf, sprintfFrom_short (by decide) (List.length_replicate.le), Option.some_inj, List.take_replicate, stringOf,
    show min (1024 - 1) 1024 = 1023 from rfl, List.takeWhile_append_of_pos hletters,
    List.takeWhile_cons_of_neg (by decide), List.append_nil]

end InputLeap.StringFormat
