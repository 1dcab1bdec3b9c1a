import Mathlib.Data.List.TakeWhile

/-! A marker that moves through a list, each time to the place behind the next item, while the items may be changed. -/

namespace InputLeap.Lib.Marker

variable {α : Type} (mark item : α → Bool)

/-- The next item behind the marker, and the list with the marker moved behind it. -/
def advance (l : List α) : Option α × List α :=
  match l.dropWhile (fun a => !mark a) with
  | [] => (none, l)
  | m :: rest =>
    match rest.dropWhile (fun a => !item a) with
    | [] => (none, l)
    | a :: after =>
      (some a, l.takeWhile (fun a => !mark a) ++ rest.takeWhile (fun a => !item a) ++ a :: m :: after)

def walk : ℕ → List α → List α × List α
  | 0, l => ([], l)
  | n + 1, l =>
    match advance mark item l with
    | (none, l) => ([], l)
    | (some a, l) =>
      let (items, l) := walk n l
      (a :: items, l)

variable {mark item} {before rest : List α} {m : α}

lemma dropWhile_append_cons (p : α → Bool) {as : List α} (b : α) (bs : List α) (has : ∀ a ∈ as, p a = true)
    (hb : p b = false) :
    (as ++ b :: bs).dropWhile p = b :: bs ∧ (as ++ b :: bs).takeWhile p = as := by
  induction as with
  | nil => simp [hb]
  | cons a as ih =>
    obtain ⟨hdrop, htake⟩ := ih fun a ha => has a (List.mem_cons_of_mem _ ha)
    simp [has a List.mem_cons_self, hdrop, htake]

lemma advance_none (hbefore : ∀ a ∈ before, mark a = false) (hm : mark m = true) (hrest : ∀ a ∈ rest, item a = false) :
    advance mark item (before ++ m :: rest) = (none, before ++ m :: rest) := by
  obtain ⟨hdrop, -⟩ := dropWhile_append_cons (fun a => !mark a) m rest (fun a ha => by simpa using hbefore a ha)
    (by simp [hm])
  have hnone : rest.dropWhile (fun a => !item a) = [] := List.dropWhile_eq_nil_iff.mpr (by simpa using hrest)
  simp only [advance, hdrop, hnone]

lemma advance_some {skipped after : List α} {a : α} (hbefore : ∀ a ∈ before, mark a = false) (hm : mark m = true)
    (hskipped : ∀ a ∈ skipped, item a = false) (ha : item a = true) :
    advance mark item (before ++ m :: (skipped ++ a :: after)) = (some a, before ++ skipped ++ a :: m :: after) := by
  obtain ⟨hdrop, htake⟩ := dropWhile_append_cons (fun a => !mark a) m (skipped ++ a :: after)
    (fun a ha => by simpa using hbefore a ha) (by simp [hm])
  obtain ⟨hdrop', htake'⟩ := dropWhile_append_cons (fun a => !item a) a after (fun a ha => by simpa using hskipped a ha)
    (by simp [ha])
  simp only [advance, hdrop, htake, hdrop', htake']

lemma split_items (item : α → Bool) (rest : List α) : (∀ a ∈ rest, item a = false) ∨
    ∃ skipped a after, rest = skipped ++ a :: after ∧ (∀ a ∈ skipped, item a = false) ∧ item a = true := by
  induction rest with
  | nil => exact .inl fun a ha => absurd ha List.not_mem_nil
  | cons b rest ih =>
    cases hb : item b with
    | true => exact .inr ⟨[], b, rest, rfl, fun a ha => absurd ha List.not_mem_nil, hb⟩
    | false =>
      rcases ih with hnone | ⟨skipped, a, after, rfl, hskipped, ha⟩
      · exact .inl (List.forall_mem_cons.mpr ⟨hb, hnone⟩)
      · exact .inr ⟨b :: skipped, a, after, rfl, List.forall_mem_cons.mpr ⟨hb, hskipped⟩, ha⟩

/-- A walk visits the items behind the marker in their order and leaves the rest of the list as it is. -/
theorem walk_eq {n : ℕ} (hbefore : ∀ a ∈ before, mark a = false) (hm : mark m = true)
    (hrest : ∀ a ∈ rest, mark a = false) (hn : rest.length ≤ n) :
    (walk mark item n (before ++ m :: rest)).1 = rest.filter item ∧
      (walk mark item n (before ++ m :: rest)).2.filter (fun a => !mark a) = before ++ rest := by
  have hkept : ∀ {before rest : List α}, (∀ a ∈ before, mark a = false) → (∀ a ∈ rest, mark a = false) →
      (before ++ m :: rest).filter (fun a => !mark a) = before ++ rest := by
    intro before rest hbefore hrest
    rw [List.filter_append, List.filter_cons_of_neg (by simp [hm]), List.filter_eq_self.mpr (by simpa using hbefore),
      List.filter_eq_self.mpr (by simpa using hrest)]
  induction n generalizing before rest with
  | zero =>
    obtain rfl := List.length_eq_zero_iff.mp (Nat.le_zero.mp hn)
    exact ⟨rfl, hkept hbefore hrest⟩
  | succ n ih =>
    rw [walk]
    rcases split_items item rest with hnone | ⟨skipped, a, after, rfl, hskipped, ha⟩
    · rw [advance_none hbefore hm hnone]
      refine ⟨?_, hkept hbefore hrest⟩
      exact (List.filter_eq_nil_iff.mpr fun a ha => Bool.eq_false_iff.mp (hnone a ha)).symm
    · obtain ⟨hskipped', hafter⟩ := List.forall_mem_append.mp hrest
      obtain ⟨ha', hafter⟩ := List.forall_mem_cons.mp hafter
      rw [advance_some hbefore hm hskipped ha]
      have hsplit : before ++ skipped ++ a :: m :: after = (before ++ skipped ++ [a]) ++ m :: after := by simp
      rw [List.length_append, List.length_cons] at hn
      have hpassed : ∀ b ∈ before ++ skipped ++ [a], mark b = false :=
        List.forall_mem_append.mpr ⟨List.forall_mem_append.mpr ⟨hbefore, hskipped'⟩, List.forall_mem_singleton.mpr ha'⟩
      obtain ⟨hitems, hleft⟩ := ih hpassed hafter (by omega)
      dsimp only
      rw [hsplit, hitems, hleft]
      have hnone : skipped.filter item = [] :=
        List.filter_eq_nil_iff.mpr fun a ha => Bool.eq_false_iff.mp (hskipped a ha)
      refine ⟨?_, by simp⟩
      rw [List.filter_append, hnone, List.filter_cons_of_pos ha, List.nil_append]

end InputLeap.Lib.Marker
