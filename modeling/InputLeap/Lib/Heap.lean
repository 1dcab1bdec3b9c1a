import Mathlib.Data.List.Perm.Basic
import Mathlib.Data.List.Sort
import Mathlib.Order.Lattice

/-! Priority queues in vectors that are heaps. The algorithms that rearrange a vector are any that do what is documented of
them; from that follows what the queue has to offer. -/

namespace InputLeap.Lib

variable {α β : Type} [LinearOrder β]

def IsHeap (key : α → β) (l : List α) : Prop :=
  ∀ i v w, l[(i - 1) / 2]? = some v → l[i]? = some w → key v ≤ key w

namespace IsHeap

variable {key : α → β} {l : List α}

lemma nil : IsHeap key [] := by
  intro i v w hv
  cases hv

lemma head_le (h : IsHeap key l) {v w : α} (hv : l.head? = some v) (hw : w ∈ l) : key v ≤ key w := by
  obtain ⟨i, hi, rfl⟩ := List.getElem_of_mem hw
  induction i using Nat.strong_induction_on with
  | h i ih =>
    by_cases hzero : i = 0
    · subst hzero
      rw [List.head?_eq_getElem?, List.getElem?_eq_getElem hi] at hv
      rw [Option.some.inj hv]
    · have hparent : (i - 1) / 2 < l.length := by omega
      have hup := ih ((i - 1) / 2) (by omega) hparent (List.getElem_mem hparent)
      exact hup.trans (h i _ _ (List.getElem?_eq_getElem hparent) (List.getElem?_eq_getElem hi))

lemma map (h : IsHeap key l) {f : α → α} (hf : ∀ a b, key a ≤ key b → key (f a) ≤ key (f b)) : IsHeap key (l.map f) := by
  intro i v w hv hw
  rw [List.getElem?_map, Option.map_eq_some_iff] at hv hw
  obtain ⟨a, ha, rfl⟩ := hv
  obtain ⟨b, hb, rfl⟩ := hw
  exact hf a b (h i a b ha hb)

lemma of_pairwise (h : l.Pairwise fun a b => key a ≤ key b) : IsHeap key l := by
  intro i v w hv hw
  obtain ⟨hp, rfl⟩ := List.getElem?_eq_some_iff.mp hv
  obtain ⟨hi, rfl⟩ := List.getElem?_eq_some_iff.mp hw
  rcases Nat.eq_or_lt_of_le (show (i - 1) / 2 ≤ i by omega) with heq | hlt
  · simp only [heq, le_refl]
  · exact List.pairwise_iff_getElem.mp h _ _ hp hi hlt

end IsHeap

/-- The algorithms of the standard library on the elements of a vector. -/
structure HeapAlgorithms (key : α → β) where
  pushHeap : List α → List α
  popHeap : List α → List α
  makeHeap : List α → List α
  pushHeap_perm : ∀ l v, IsHeap key l → (pushHeap (l ++ [v])).Perm (l ++ [v])
  pushHeap_isHeap : ∀ l v, IsHeap key l → IsHeap key (pushHeap (l ++ [v]))
  popHeap_eq : ∀ l v, IsHeap key (v :: l) → ∃ d, popHeap (v :: l) = d ++ [v] ∧ d.Perm l ∧ IsHeap key d
  makeHeap_perm : ∀ l, (makeHeap l).Perm l
  makeHeap_isHeap : ∀ l, IsHeap key (makeHeap l)

namespace HeapAlgorithms

variable {key : α → β}

def push (std : HeapAlgorithms key) (l : List α) (v : α) : List α := std.pushHeap (l ++ [v])

def pop (std : HeapAlgorithms key) (l : List α) : List α := (std.popHeap l).dropLast

def erase (std : HeapAlgorithms key) (l : List α) (i : ℕ) : List α := std.makeHeap (l.eraseIdx i)

variable (std : HeapAlgorithms key) {l : List α}

lemma push_perm (h : IsHeap key l) (v : α) : (std.push l v).Perm (v :: l) :=
  (std.pushHeap_perm l v h).trans (List.perm_append_singleton v l)

lemma push_isHeap (h : IsHeap key l) (v : α) : IsHeap key (std.push l v) := std.pushHeap_isHeap l v h

lemma pop_spec {v : α} (h : IsHeap key (v :: l)) : (std.pop (v :: l)).Perm l ∧ IsHeap key (std.pop (v :: l)) := by
  obtain ⟨d, hpop, hperm, hheap⟩ := std.popHeap_eq l v h
  rw [pop, hpop, List.dropLast_concat]
  exact ⟨hperm, hheap⟩

lemma erase_isHeap (l : List α) (i : ℕ) : IsHeap key (std.erase l i) := std.makeHeap_isHeap _

lemma erase_perm {i : ℕ} {v : α} (hi : l[i]? = some v) : l.Perm (v :: std.erase l i) := by
  obtain ⟨hlt, rfl⟩ := List.getElem?_eq_some_iff.mp hi
  exact (List.getElem_cons_eraseIdx_perm hlt).symm.trans ((std.makeHeap_perm _).symm.cons _)

end HeapAlgorithms

section Sorting

variable (key : α → β)

lemma isHeap_insertionSort (l : List α) : IsHeap key (l.insertionSort fun a b => key a ≤ key b) := by
  have htotal : Std.Total fun a b => key a ≤ key b := ⟨fun a b => le_total (key a) (key b)⟩
  have htrans : IsTrans α fun a b => key a ≤ key b := ⟨fun _ _ _ => le_trans⟩
  exact IsHeap.of_pairwise (List.pairwise_insertionSort _ l)

def HeapAlgorithms.sorting : HeapAlgorithms key where
  pushHeap l := l.insertionSort fun a b => key a ≤ key b
  popHeap l := (l.tail.insertionSort fun a b => key a ≤ key b) ++ l.head?.toList
  makeHeap l := l.insertionSort fun a b => key a ≤ key b
  pushHeap_perm _ _ _ := List.perm_insertionSort _ _
  pushHeap_isHeap _ _ _ := isHeap_insertionSort key _
  popHeap_eq l _ _ := ⟨_, rfl, List.perm_insertionSort _ l, isHeap_insertionSort key l⟩
  makeHeap_perm _ := List.perm_insertionSort _ _
  makeHeap_isHeap := isHeap_insertionSort key

end Sorting

end InputLeap.Lib
