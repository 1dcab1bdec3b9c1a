import Mathlib.Algebra.Order.Ring.Int
import Mathlib.Data.List.Basic

/-! The first free place on a line with things in the way, found by going to the end of whatever is in the way, the
first one in a list that is. -/

namespace InputLeap.Lib

variable {α : Type}

/-- What is in the way at one place is in the way from there to its end, and not beyond. -/
structure Obstructs (blocks : α → ℤ → Bool) (reach : α → ℤ) : Prop where
  lt : ∀ {a k}, blocks a k = true → k < reach a
  upTo : ∀ {a k j}, blocks a k = true → k ≤ j → j < reach a → blocks a j = true

def firstFree (blocks : α → ℤ → Bool) (reach : α → ℤ) (l : List α) : ℕ → ℤ → Option ℤ
  | 0, _ => none
  | n + 1, k =>
    match l.find? fun a => blocks a k with
    | none => some k
    | some a => firstFree blocks reach l n (reach a)

variable {blocks : α → ℤ → Bool} {reach : α → ℤ} {l : List α}

lemma countP_reach_lt {a : α} {k : ℤ} (ha : a ∈ l) (hk : k < reach a) :
    (l.countP fun b => decide (reach a < reach b)) < l.countP fun b => decide (k < reach b) := by
  induction l with
  | nil => simp at ha
  | cons b l ih =>
    have hle : (l.countP fun b => decide (reach a < reach b)) ≤ l.countP fun b => decide (k < reach b) := by
      apply List.countP_mono_left
      intro c _ hc
      simp only [decide_eq_true_eq] at *
      exact hk.trans hc
    rw [List.countP_cons, List.countP_cons]
    rcases List.mem_cons.mp ha with rfl | hmem
    · simp [hk]
      omega
    · have hlt := ih hmem
      split_ifs with hb hb' <;> simp only [decide_eq_true_eq] at * <;> omega

/-- One attempt for everything that reaches further is enough. -/
theorem firstFree_spec (h : Obstructs blocks reach) {n : ℕ} {k : ℤ} (hn : (l.countP fun a => decide (k < reach a)) < n) :
    ∃ j, firstFree blocks reach l n k = some j ∧ k ≤ j ∧ (∀ a ∈ l, blocks a j = false) ∧
      ∀ i, k ≤ i → i < j → ∃ a ∈ l, blocks a i = true := by
  induction n generalizing k with
  | zero => exact absurd hn (Nat.not_lt_zero _)
  | succ n ih =>
    rw [firstFree]
    cases hfind : l.find? fun a => blocks a k with
    | none =>
      refine ⟨k, rfl, le_rfl, fun a ha => ?_, fun i hki hik => absurd hik (not_lt.mpr hki)⟩
      exact Bool.eq_false_iff.mpr (List.find?_eq_none.mp hfind a ha)
    | some a =>
      have ha := List.mem_of_find?_eq_some hfind
      have hblocks : blocks a k = true := by simpa using List.find?_some hfind
      have hlt := h.lt hblocks
      obtain ⟨j, hj, hle, hfree, hbefore⟩ := ih ((countP_reach_lt ha hlt).trans_le (Nat.le_of_lt_succ hn))
      refine ⟨j, hj, hlt.le.trans hle, hfree, fun i hki hij => ?_⟩
      rcases lt_or_ge i (reach a) with hi | hi
      · exact ⟨a, ha, h.upTo hblocks hki hi⟩
      · exact hbefore i hi hij

end InputLeap.Lib
