import Mathlib.Data.List.Basic

/-! Ordered maps with several entries for a key, as lists. An entry is inserted behind those that have the
same key. -/

namespace InputLeap.Lib.MultiMap

variable {κ ν : Type}

def insert [LE κ] [DecidableLE κ] (k : κ) (v : ν) (m : List (κ × ν)) : List (κ × ν) :=
  m.takeWhile (fun e => decide (e.1 ≤ k)) ++ (k, v) :: m.dropWhile (fun e => decide (e.1 ≤ k))

def equalRange [DecidableEq κ] (k : κ) (m : List (κ × ν)) : List (κ × ν) := m.filter fun e => decide (e.1 = k)

def erase [DecidableEq κ] (k : κ) (m : List (κ × ν)) : List (κ × ν) := m.filter fun e => decide (e.1 ≠ k)

def count [DecidableEq κ] (k : κ) (m : List (κ × ν)) : ℕ := (equalRange k m).length

def eraseFirst [DecidableEq κ] (k : κ) (p : ν → Bool) (m : List (κ × ν)) : List (κ × ν) :=
  m.eraseP fun e => decide (e.1 = k) && p e.2

lemma erase_eq_self [DecidableEq κ] {k : κ} {m : List (κ × ν)} (h : equalRange k m = []) : erase k m = m := by
  refine List.filter_eq_self.mpr fun e he => decide_eq_true fun hk => ?_
  exact List.ne_nil_of_mem (List.mem_filter.mpr ⟨he, decide_eq_true hk⟩) h

lemma insert_perm [LE κ] [DecidableLE κ] (k : κ) (v : ν) (m : List (κ × ν)) :
    (insert k v m).Perm ((k, v) :: m) := by
  have hsplit := List.takeWhile_append_dropWhile (p := fun e : κ × ν => decide (e.1 ≤ k)) (l := m)
  rw [insert]
  refine List.perm_middle.trans ?_
  rw [hsplit]

lemma foldl_insert_perm {α : Type} [LE κ] [DecidableLE κ] (key : α → κ) (value : α → ν) (es : List α) (m : List (κ × ν)) :
    (es.foldl (fun m e => insert (key e) (value e) m) m).Perm (es.map (fun e => (key e, value e)) ++ m) := by
  induction es generalizing m with
  | nil => exact .refl m
  | cons e es ih => exact (ih _).trans ((List.Perm.append_left _ (insert_perm _ _ m)).trans List.perm_middle)

end InputLeap.Lib.MultiMap
