import Mathlib.Data.Int.Log
import Mathlib.Data.Rat.Floor
import Mathlib.Data.Finite.Prod
import Mathlib.Data.Int.Interval
import Mathlib.Tactic.Linarith
import Mathlib.Tactic.NormNum
import Mathlib.Tactic.FieldSimp

/-! Rounding to single precision: the result of an operation on floats is the rounded exact result.
Numbers beyond the largest float are rounded to it. -/

namespace InputLeap.Lib.Binary32

def nearest (q : ℚ) : ℤ :=
  let d := q - ⌊q⌋
  if d < 1 / 2 ∨ d = 1 / 2 ∧ ⌊q⌋ % 2 = 0 then ⌊q⌋ else ⌊q⌋ + 1

def largest : ℚ := (2 ^ 24 - 1) * 2 ^ 104

/-- The exponent of the last of the 24 digits of a float, at least that of the subnormal floats. -/
def exponent (q : ℚ) : ℤ := max (Int.log 2 |q| - 23) (-149)

def round (q : ℚ) : ℚ :=
  let q := max (-largest) (min largest q)
  nearest (q / 2 ^ exponent q) * 2 ^ exponent q

lemma nearest_bounds {q : ℚ} {b : ℤ} (h : |q| < b) : -b ≤ nearest q ∧ nearest q ≤ b := by
  obtain ⟨hlo, hhi⟩ := abs_lt.mp h
  have hfloor : ⌊q⌋ < b := Int.floor_lt.mpr hhi
  have hfloor' : -b ≤ ⌊q⌋ := Int.le_floor.mpr (by push_cast; exact hlo.le)
  rw [nearest]
  split_ifs
  · omega
  · omega

lemma exponent_bounds {q : ℚ} (h : |q| < 2 ^ 128) : -149 ≤ exponent q ∧ exponent q ≤ 104 := by
  refine ⟨le_max_right _ _, max_le ?_ (by norm_num)⟩
  rcases eq_or_ne q 0 with rfl | hq
  · simp
  · have hlog : Int.log 2 |q| < 128 := by
      rw [← Int.lt_zpow_iff_log_lt (by norm_num) (abs_pos.mpr hq)]
      exact_mod_cast h
    omega

lemma div_exponent_lt (q : ℚ) : |q / 2 ^ exponent q| < (2 ^ 24 : ℤ) := by
  have hpos : (0 : ℚ) < 2 ^ exponent q := zpow_pos (by norm_num) _
  rw [abs_div, abs_of_pos hpos, div_lt_iff₀ hpos]
  have hlog : |q| < (2 : ℚ) ^ (Int.log 2 |q| + 1) := Int.lt_zpow_succ_log_self (by norm_num) _
  have hle : Int.log 2 |q| + 1 ≤ 24 + exponent q := by
    have := le_max_left (Int.log 2 |q| - 23) (-149)
    rw [exponent]
    omega
  calc |q| < (2 : ℚ) ^ (Int.log 2 |q| + 1) := hlog
    _ ≤ 2 ^ (24 + exponent q) := zpow_le_zpow_right₀ (by norm_num) hle
    _ = ((2 ^ 24 : ℤ) : ℚ) * 2 ^ exponent q := by
      rw [zpow_add₀ (by norm_num)]
      norm_num

lemma clamp_lt (q : ℚ) : |max (-largest) (min largest q)| < 2 ^ 128 := by
  have hlargest : largest < 2 ^ 128 := by
    norm_num [largest]
  rw [abs_lt]
  constructor
  · exact lt_of_lt_of_le (neg_lt_neg hlargest) (le_max_left _ _)
  · refine lt_of_le_of_lt (max_le ?_ (min_le_left _ _)) hlargest
    norm_num [largest]

theorem finite_range_round : (Set.range round).Finite := by
  have hbox : (Set.Icc (-2 ^ 24 : ℤ) (2 ^ 24) ×ˢ Set.Icc (-149 : ℤ) 104).Finite :=
    Set.Finite.prod (Set.finite_Icc _ _) (Set.finite_Icc _ _)
  apply (hbox.image fun p => (p.1 : ℚ) * 2 ^ p.2).subset
  rintro _ ⟨q, rfl⟩
  refine ⟨(nearest _, exponent _), ⟨?_, ?_⟩, rfl⟩
  · exact nearest_bounds (div_exponent_lt _)
  · exact exponent_bounds (clamp_lt q)

end InputLeap.Lib.Binary32
