import Mathlib.Data.List.Infix
import Mathlib.Data.List.TakeWhile

/-! The first place of a word in a text, and of the first character of a kind from a place on. -/

namespace InputLeap.Lib.Search

variable {α : Type}

section Words

variable [DecidableEq α]

def find (word : List α) : List α → Option ℕ
  | [] => if word = [] then some 0 else none
  | a :: s => if word <+: a :: s then some 0 else (find word s).map (· + 1)

variable {word s t : List α} {a b : α}

lemma find_here (word s : List α) : find word (word ++ s) = some 0 := by
  cases h : word ++ s with
  | nil => rw [find, if_pos (List.append_eq_nil_iff.mp h).1]
  | cons a r => rw [find, if_pos ⟨s, h⟩]

lemma find_cons (h : ¬ word <+: a :: s) : find word (a :: s) = (find word s).map (· + 1) := by
  rw [find, if_neg h]

lemma find_skip (h : a ∉ t) : find (a :: word) (t ++ s) = (find (a :: word) s).map (· + t.length) := by
  induction t with
  | nil =>
    simp
  | cons b t ih =>
    have hne : ¬ a :: word <+: b :: (t ++ s) := by
      rw [List.cons_prefix_cons]
      rintro ⟨rfl, -⟩
      exact h List.mem_cons_self
    rw [List.cons_append, find_cons hne, ih (List.not_mem_of_not_mem_cons h), Option.map_map]
    rfl

lemma find_at (h : a ∉ t) (s : List α) : find (a :: word) (t ++ (a :: word ++ s)) = some t.length := by
  rw [find_skip h, find_here, Option.map_some, Nat.zero_add]

omit [DecidableEq α] in
lemma not_prefix (h : a ≠ b) (w u r : List α) : ¬ w ++ a :: u <+: w ++ b :: r := by
  rw [List.prefix_append_right_inj, List.cons_prefix_cons]
  exact fun hpre => h hpre.1

lemma find_second {c : α} {v w u r : List α} (hne : b ≠ c) (hv : a ∉ v) (hw : a ∉ w ++ c :: r) (s : List α) :
    find (a :: (w ++ b :: u)) (v ++ (a :: (w ++ c :: r) ++ (a :: (w ++ b :: u) ++ s))) =
      some (v ++ a :: (w ++ c :: r)).length := by
  have hpre : ¬ a :: (w ++ b :: u) <+: a :: (w ++ c :: r ++ (a :: (w ++ b :: u) ++ s)) := by
    rw [List.append_assoc]
    exact not_prefix hne (a :: w) u _
  rw [find_skip hv, List.cons_append, find_cons hpre, find_at hw]
  simp [Nat.add_comm]

end Words

section Kinds

/-- `find_first_of` and `find_first_not_of`. -/
def findFirst (p : α → Bool) (s : List α) (pos : ℕ) : Option ℕ :=
  let rest := s.drop pos
  if rest.any p then some (pos + (rest.takeWhile fun a => !p a).length) else none

variable {p : α → Bool} {s before skipped rest : List α} {a : α} {pos i : ℕ}

lemma findFirst_eq (hs : s = before ++ (skipped ++ a :: rest)) (hskipped : ∀ b ∈ skipped, p b = false) (ha : p a = true) :
    findFirst p s before.length = some (before.length + skipped.length) := by
  have hany : (skipped ++ a :: rest).any p = true := List.any_eq_true.mpr ⟨a, by simp, ha⟩
  have htake : (skipped ++ a :: rest).takeWhile (fun b => !p b) = skipped := by
    rw [List.takeWhile_append_of_pos (by simpa using hskipped), List.takeWhile_cons_of_neg (by simp [ha]), List.append_nil]
  simp only [findFirst, hs, List.drop_left, hany, htake, if_true]

lemma findFirst_lt (h : findFirst p s pos = some i) : i < s.length := by
  simp only [findFirst] at h
  split_ifs at h with hany
  obtain ⟨a, ha, hpa⟩ := List.any_eq_true.mp hany
  have hshort : ((s.drop pos).takeWhile fun a => !p a).length < (s.drop pos).length := by
    apply lt_of_le_of_ne (List.takeWhile_prefix _).length_le
    intro heq
    have hall := List.takeWhile_eq_self_iff.mp (List.IsPrefix.eq_of_length (List.takeWhile_prefix _) heq)
    simpa [hpa] using hall a ha
  rw [List.length_drop] at hshort
  obtain rfl := Option.some.inj h
  omega

end Kinds

end InputLeap.Lib.Search
