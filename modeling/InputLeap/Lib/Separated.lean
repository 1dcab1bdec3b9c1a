import Mathlib.Computability.Language

/-! Words with a separator between them, and perhaps one behind the last. -/

namespace InputLeap.Lib

open Computability

variable {α : Type}

def separator (c : α) : Language α := {[c]}

/-- Words of `l`, of which the last may be followed by a separator. -/
def separated (c : α) (l : Language α) : Language α := l * (separator c * l)∗ * (1 + separator c)

section

variable {c : α} {l : Language α} {w r s : List α}

lemma mem_separator_mul : s ∈ separator c * l ↔ ∃ r ∈ l, s = c :: r := by
  rw [Language.mem_mul]
  constructor
  · rintro ⟨a, ha, r, hr, rfl⟩
    obtain rfl : a = [c] := ha
    exact ⟨r, hr, rfl⟩
  · rintro ⟨r, hr, rfl⟩
    exact ⟨[c], rfl, r, hr, rfl⟩

lemma separated_eq : separated c l = l * (1 + separator c * (1 + separated c l)) := by
  have hstar : (separator c * l)∗ = 1 + separator c * l * (separator c * l)∗ :=
    (Language.one_add_self_mul_kstar_eq_kstar _).symm
  have htail : (separator c * l)∗ * (1 + separator c) =
      1 + separator c * (1 + l * ((separator c * l)∗ * (1 + separator c))) := by
    calc (separator c * l)∗ * (1 + separator c)
        = (1 + separator c * l * (separator c * l)∗) * (1 + separator c) := by rw [← hstar]
      _ = 1 + separator c + separator c * l * (separator c * l)∗ * (1 + separator c) := by rw [add_mul, one_mul]
      _ = _ := by simp only [mul_add, mul_one, mul_assoc, add_assoc]
  rw [separated, mul_assoc]
  exact congrArg (l * ·) htail

lemma mem_separated : s ∈ separated c l ↔
    ∃ w ∈ l, s = w ∨ ∃ r, s = w ++ c :: r ∧ (r = [] ∨ r ∈ separated c l) := by
  nth_rewrite 1 [separated_eq]
  rw [Language.mem_mul]
  constructor
  · rintro ⟨w, hw, t, ht, rfl⟩
    refine ⟨w, hw, ?_⟩
    rcases ht with ht | ht
    · obtain rfl : t = [] := ht
      exact .inl (List.append_nil w)
    · obtain ⟨r, hr, rfl⟩ := mem_separator_mul.mp ht
      exact .inr ⟨r, rfl, hr⟩
  · rintro ⟨w, hw, rfl | ⟨r, rfl, hr⟩⟩
    · exact ⟨s, hw, [], .inl rfl, List.append_nil s⟩
    · exact ⟨w, hw, c :: r, .inr (mem_separator_mul.mpr ⟨r, hr, rfl⟩), rfl⟩

lemma mem_separated_word (hs : c ∉ s) : s ∈ separated c l ↔ s ∈ l := by
  rw [mem_separated]
  constructor
  · rintro ⟨w, hw, rfl | ⟨r, rfl, -⟩⟩
    · exact hw
    · simp at hs
  · exact fun h => ⟨s, h, .inl rfl⟩

lemma append_separator_inj {v t : List α} (hw : c ∉ w) (hv : c ∉ v) (h : w ++ c :: r = v ++ c :: t) : w = v ∧ r = t := by
  induction w generalizing v with
  | nil =>
    cases v with
    | nil => exact ⟨rfl, (List.cons.inj h).2⟩
    | cons b v =>
      obtain ⟨rfl, -⟩ := List.cons.inj h
      exact absurd List.mem_cons_self hv
  | cons a w ih =>
    cases v with
    | nil =>
      obtain ⟨rfl, -⟩ := List.cons.inj h
      exact absurd List.mem_cons_self hw
    | cons b v =>
      obtain ⟨rfl, hrest⟩ := List.cons.inj h
      obtain ⟨rfl, rfl⟩ := ih (List.not_mem_of_not_mem_cons hw) (List.not_mem_of_not_mem_cons hv) hrest
      exact ⟨rfl, rfl⟩

lemma infix_append_word (hw : c ∉ w) : c :: s <:+: w ++ r ↔ c :: s <:+: r := by
  induction w with
  | nil => exact Iff.rfl
  | cons a w ih =>
    have hne : c ≠ a := fun h => hw (h ▸ List.mem_cons_self)
    rw [List.cons_append, List.infix_cons_iff, ih (List.not_mem_of_not_mem_cons hw)]
    simp [List.cons_prefix_cons, hne]

lemma infix_flatMap_separator {words : List (List α)} (hw : c ∉ w) (hwords : ∀ v ∈ words, c ∉ v) :
    c :: (w ++ [c]) <:+: c :: words.flatMap (fun v => v ++ [c]) ↔ w ∈ words := by
  induction words with
  | nil => simp [List.infix_cons_iff]
  | cons v words ih =>
    have hv := hwords v List.mem_cons_self
    have htext : (v :: words).flatMap (fun v => v ++ [c]) = v ++ c :: words.flatMap (fun v => v ++ [c]) := by simp
    rw [List.infix_cons_iff, htext, infix_append_word hv, ih fun u hu => hwords u (List.mem_cons_of_mem v hu),
      List.mem_cons, List.cons_prefix_cons]
    apply or_congr_left
    constructor
    · rintro ⟨-, t, ht⟩
      rw [List.append_assoc] at ht
      exact (append_separator_inj hw hv ht).1
    · rintro rfl
      exact ⟨rfl, words.flatMap fun v => v ++ [c], by simp⟩

lemma mem_separated_append (hl : ∀ w ∈ l, c ∉ w) (hw : c ∉ w) :
    w ++ c :: r ∈ separated c l ↔ w ∈ l ∧ (r = [] ∨ r ∈ separated c l) := by
  rw [mem_separated]
  constructor
  · rintro ⟨v, hv, heq | ⟨t, heq, ht⟩⟩
    · apply absurd (hl v hv)
      simp [← heq]
    · obtain ⟨rfl, rfl⟩ := append_separator_inj hw (hl v hv) heq
      exact ⟨hv, ht⟩
  · rintro ⟨hw, hr⟩
    exact ⟨w, hw, .inr ⟨r, rfl, hr⟩⟩

end

end InputLeap.Lib
