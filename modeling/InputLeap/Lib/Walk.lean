import Mathlib.Data.Set.Finite.Range
import Mathlib.Data.Fintype.Pigeonhole
import Mathlib.Algebra.Order.Group.Nat

/-! Following a partial function step by step. A walk among finitely many points ends exactly if it
never comes to a point twice. -/

namespace InputLeap.Lib

variable {α : Type}

def walk (f : α → Option α) : ℕ → α → Option α
  | 0, a => some a
  | n + 1, a => (walk f n a).bind f

def Revisits (f : α → Option α) (a : α) : Prop :=
  ∃ i j b, i < j ∧ walk f i a = some b ∧ walk f j a = some b

namespace Walk

variable {f : α → Option α} {a : α}

lemma walk_succ (n : ℕ) : walk f (n + 1) a = (f a).bind (walk f n) := by
  induction n with
  | zero => simp [walk]
  | succ n ih =>
    rw [walk, ih]
    cases f a with
    | none => rfl
    | some b => rfl

lemma walk_add (m k : ℕ) : walk f (m + k) a = (walk f m a).bind (walk f k) := by
  induction k with
  | zero =>
    cases walk f m a with
    | none => rfl
    | some b => rfl
  | succ k ih =>
    rw [← add_assoc, walk, ih]
    cases walk f m a with
    | none => rfl
    | some b => rfl

lemma end_unique {m n : ℕ} {b c : α} (hm : walk f m a = some b) (hb : f b = none) (hn : walk f n a = some c)
    (hc : f c = none) : b = c := by
  have hstay : ∀ {m n b c}, m ≤ n → walk f m a = some b → f b = none → walk f n a = some c → b = c := by
    intro m n b c hle hm hb hn
    obtain ⟨k, rfl⟩ := Nat.exists_eq_add_of_le hle
    rw [walk_add, hm, Option.bind_some] at hn
    cases k with
    | zero => exact Option.some.inj hn
    | succ k =>
      rw [walk_succ, hb] at hn
      exact absurd hn.symm (Option.some_ne_none _)
  rcases le_total m n with hle | hle
  · exact hstay hle hm hb hn
  · exact (hstay hle hn hc hm).symm

lemma walk_add_eq_none {n : ℕ} (h : walk f n a = none) (k : ℕ) : walk f (n + k) a = none := by
  induction k with
  | zero => exact h
  | succ k ih => rw [← add_assoc, walk, ih]; rfl

lemma walk_add_congr {i j : ℕ} (h : walk f i a = walk f j a) (k : ℕ) :
    walk f (i + k) a = walk f (j + k) a := by
  induction k with
  | zero => exact h
  | succ k ih => rw [← add_assoc, ← add_assoc, walk, walk, ih]

lemma not_revisits_of_ends {n : ℕ} (h : walk f n a = none) : ¬ Revisits f a := by
  rintro ⟨i, j, b, hij, hi, hj⟩
  have hend : ∃ n, walk f n a = none := ⟨n, h⟩
  classical
  have hmin := Nat.find_spec hend
  have hlt : j < Nat.find hend := by
    by_contra hle
    obtain ⟨k, rfl⟩ := Nat.exists_eq_add_of_le (not_lt.mp hle)
    rw [walk_add_eq_none hmin k] at hj
    exact absurd hj (by simp)
  obtain ⟨k, hk⟩ := Nat.exists_eq_add_of_le hlt.le
  have hearly : walk f (i + k) a = none := by
    rw [walk_add_congr (hi.trans hj.symm) k, ← hk, hmin]
  exact Nat.find_min hend (by omega) hearly

lemma revisits_of_endless {S : Set α} (hS : S.Finite) (hf : ∀ a b, f a = some b → b ∈ S)
    (h : ∀ n, walk f n a ≠ none) : Revisits f a := by
  have hstep : ∀ n, ∃ b : S, walk f (n + 1) a = some b := by
    intro n
    obtain ⟨b, hb⟩ := Option.ne_none_iff_exists'.mp (h (n + 1))
    obtain ⟨c, -, hc⟩ := Option.bind_eq_some_iff.mp (hb : (walk f n a).bind f = some b)
    exact ⟨⟨b, hf c b hc⟩, hb⟩
  choose point hpoint using hstep
  have := hS.to_subtype
  obtain ⟨i, j, hne, heq⟩ := Finite.exists_ne_map_eq_of_infinite point
  rcases lt_or_gt_of_ne hne with hij | hij
  · exact ⟨i + 1, j + 1, point j, by omega, heq ▸ hpoint i, hpoint j⟩
  · exact ⟨j + 1, i + 1, point i, by omega, heq ▸ hpoint j, hpoint i⟩

theorem ends_iff {S : Set α} (hS : S.Finite) (hf : ∀ a b, f a = some b → b ∈ S) :
    (∃ n, walk f n a = none) ↔ ¬ Revisits f a := by
  refine ⟨fun ⟨n, hn⟩ => not_revisits_of_ends hn, fun h => ?_⟩
  by_contra hend
  exact h (revisits_of_endless hS hf fun n hn => hend ⟨n, hn⟩)

end Walk

end InputLeap.Lib
