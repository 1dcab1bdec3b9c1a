import Mathlib.Data.List.Basic

/-! Streams cut at a separator. Lines that are taken from a buffer, as pieces of the stream come in, are the lines of
the stream. -/

namespace InputLeap.Lib.Lines

variable {α σ : Type} [DecidableEq α] (sep : α)

def firstLine : List α → Option (List α × List α)
  | [] => none
  | a :: as => if a = sep then some ([], as) else (firstLine as).map fun cut => (a :: cut.1, cut.2)

def split : List α → List (List α) × List α
  | [] => ([], [])
  | a :: as =>
    if a = sep then ([] :: (split as).1, (split as).2)
    else
      match (split as).1 with
      | [] => ([], a :: (split as).2)
      | line :: lines => ((a :: line) :: lines, (split as).2)

def lines (as : List α) : List (List α) := (split sep as).1

def unfinished (as : List α) : List α := (split sep as).2

/-- Take lines as long as there is one and the taker lives. Each pass takes a separator, so that as many passes as there
is in the buffer are enough. -/
def drain (alive : σ → Bool) (take : σ → List α → σ) : ℕ → List α → σ → List α × σ
  | 0, buffer, s => (buffer, s)
  | passes + 1, buffer, s =>
    if alive s then
      match firstLine sep buffer with
      | none => (buffer, s)
      | some (line, rest) => drain alive take passes rest (take s line)
    else (buffer, s)

variable {sep} {as bs line rest : List α}

lemma firstLine_eq_none : firstLine sep as = none ↔ sep ∉ as := by
  induction as with
  | nil => simp [firstLine]
  | cons a as ih =>
    rw [firstLine]
    split_ifs with ha
    · simp [ha]
    · simp [ih, Ne.symm ha]

lemma firstLine_append_line (hline : sep ∉ line) (rest : List α) : firstLine sep (line ++ sep :: rest) = some (line, rest) := by
  induction line with
  | nil => exact if_pos rfl
  | cons a line ih =>
    rw [List.mem_cons, not_or] at hline
    rw [List.cons_append, firstLine, if_neg (Ne.symm hline.1), ih hline.2]
    rfl

lemma firstLine_eq_some (h : firstLine sep as = some (line, rest)) : as = line ++ sep :: rest ∧ sep ∉ line := by
  induction as generalizing line with
  | nil => cases h
  | cons a as ih =>
    rw [firstLine] at h
    split_ifs at h with ha
    · obtain ⟨rfl, rfl⟩ := Prod.ext_iff.mp (Option.some.inj h)
      exact ⟨by rw [ha]; rfl, by simp⟩
    · obtain ⟨cut, hcut, heq⟩ := Option.map_eq_some_iff.mp h
      obtain ⟨rfl, rfl⟩ := Prod.ext_iff.mp heq
      obtain ⟨has, hline⟩ := ih hcut
      refine ⟨by rw [List.cons_append, ← has], ?_⟩
      rw [List.mem_cons, not_or]
      exact ⟨Ne.symm ha, hline⟩

lemma split_append_line (hline : sep ∉ line) (rest : List α) :
    split sep (line ++ sep :: rest) = (line :: lines sep rest, unfinished sep rest) := by
  induction line with
  | nil => rw [List.nil_append, split, if_pos rfl, lines, unfinished]
  | cons a line ih =>
    rw [List.mem_cons, not_or] at hline
    rw [List.cons_append, split, if_neg (Ne.symm hline.1), ih hline.2]

lemma lines_append_line (hline : sep ∉ line) (rest : List α) : lines sep (line ++ sep :: rest) = line :: lines sep rest := by
  rw [lines, split_append_line hline]

lemma unfinished_append_line (hline : sep ∉ line) (rest : List α) :
    unfinished sep (line ++ sep :: rest) = unfinished sep rest := by
  rw [unfinished, split_append_line hline]

lemma split_of_not_mem (h : sep ∉ as) : split sep as = ([], as) := by
  induction as with
  | nil => rfl
  | cons a as ih =>
    rw [List.mem_cons, not_or] at h
    rw [split, if_neg (Ne.symm h.1), ih h.2]

lemma lines_append (sep : α) (as bs : List α) :
    lines sep (as ++ bs) = lines sep as ++ lines sep (unfinished sep as ++ bs) ∧
      unfinished sep (as ++ bs) = unfinished sep (unfinished sep as ++ bs) := by
  induction hn : as.length using Nat.strongRecOn generalizing as with
  | _ n ih =>
    cases hfirst : firstLine sep as with
    | none =>
      have hsplit := split_of_not_mem (firstLine_eq_none.mp hfirst)
      rw [lines, lines, unfinished, unfinished, hsplit]
      exact ⟨rfl, rfl⟩
    | some cut =>
      obtain ⟨rfl, hline⟩ := firstLine_eq_some hfirst
      have hless : cut.2.length < n := by
        rw [← hn, List.length_append, List.length_cons]
        omega
      obtain ⟨hlines, hunfinished⟩ := ih _ hless cut.2 rfl
      rw [lines_append_line hline, unfinished_append_line hline, List.append_assoc, List.cons_append, lines_append_line hline,
        unfinished_append_line hline, hlines, hunfinished]
      exact ⟨rfl, rfl⟩

lemma lines_flatMap {ls : List (List α)} (hls : ∀ line ∈ ls, sep ∉ line) :
    split sep (ls.flatMap fun line => line ++ [sep]) = (ls, []) := by
  induction ls with
  | nil => rfl
  | cons line ls ih =>
    have hrest := ih fun other hother => hls other (List.mem_cons_of_mem _ hother)
    rw [List.flatMap_cons, List.append_assoc, List.singleton_append, split_append_line (hls line List.mem_cons_self), lines,
      unfinished, hrest]

section Drain

variable {alive : σ → Bool} {take : σ → List α → σ}

lemma drain_dead (passes : ℕ) (buffer : List α) {s : σ} (h : alive s = false) :
    drain sep alive take passes buffer s = (buffer, s) := by
  cases passes with
  | zero => rfl
  | succ passes => rw [drain, if_neg (by rw [h]; exact Bool.false_ne_true)]

/-- A taker that is always there gets all lines. -/
theorem drain_always (halive : ∀ s, alive s = true) (passes : ℕ) {buffer : List α} (h : buffer.length ≤ passes) (s : σ) :
    drain sep alive take passes buffer s = (unfinished sep buffer, (lines sep buffer).foldl take s) := by
  induction passes generalizing buffer s with
  | zero =>
    obtain rfl := List.length_eq_zero_iff.mp (Nat.le_zero.mp h)
    rfl
  | succ passes ih =>
    rw [drain, if_pos (halive s)]
    cases hfirst : firstLine sep buffer with
    | none =>
      rw [unfinished, lines, split_of_not_mem (firstLine_eq_none.mp hfirst)]
      rfl
    | some cut =>
      obtain ⟨line, rest⟩ := cut
      obtain ⟨rfl, hline⟩ := firstLine_eq_some hfirst
      have hrest : rest.length ≤ passes := by
        rw [List.length_append, List.length_cons] at h
        omega
      rw [unfinished_append_line hline, lines_append_line hline]
      exact ih hrest (take s line)

end Drain

end InputLeap.Lib.Lines
