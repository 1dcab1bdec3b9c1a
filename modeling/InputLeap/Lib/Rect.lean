import Mathlib.Algebra.Order.Ring.Int
import Mathlib.Order.Lattice

/-! Rectangles of integers, with their right and bottom edges outside, and the box around several. -/

namespace InputLeap.Lib

@[ext]
structure Rect where
  x : ℤ
  y : ℤ
  width : ℤ
  height : ℤ
  deriving DecidableEq

namespace Rect

def right (r : Rect) : ℤ := r.x + r.width

def bottom (r : Rect) : ℤ := r.y + r.height

def Proper (r : Rect) : Prop := 0 < r.width ∧ 0 < r.height

def intersects (r s : Rect) : Bool :=
  decide (r.x < s.right ∧ s.x < r.right ∧ r.y < s.bottom ∧ s.y < r.bottom)

def united (r s : Rect) : Rect :=
  ⟨min r.x s.x, min r.y s.y, max r.right s.right - min r.x s.x, max r.bottom s.bottom - min r.y s.y⟩

def translated (r : Rect) (dx dy : ℤ) : Rect := ⟨r.x + dx, r.y + dy, r.width, r.height⟩

def Inside (r s : Rect) : Prop := s.x ≤ r.x ∧ s.y ≤ r.y ∧ r.right ≤ s.right ∧ r.bottom ≤ s.bottom

def box : List Rect → Option Rect
  | [] => none
  | r :: rs => some (rs.foldl united r)

variable {r s t : Rect} {dx dy : ℤ}

lemma intersects_eq_false_iff : r.intersects s = false ↔
    s.right ≤ r.x ∨ r.right ≤ s.x ∨ s.bottom ≤ r.y ∨ r.bottom ≤ s.y := by
  rw [intersects, decide_eq_false_iff_not]
  omega

lemma intersects_comm (r s : Rect) : r.intersects s = s.intersects r := by
  rw [intersects, intersects, decide_eq_decide]
  omega

lemma Inside.refl (r : Rect) : r.Inside r := ⟨le_rfl, le_rfl, le_rfl, le_rfl⟩

lemma Inside.trans (h : r.Inside s) (h' : s.Inside t) : r.Inside t :=
  ⟨h'.1.trans h.1, h'.2.1.trans h.2.1, h.2.2.1.trans h'.2.2.1, h.2.2.2.trans h'.2.2.2⟩

lemma inside_united_left (r s : Rect) : r.Inside (r.united s) := by
  simp only [Inside, united, right, bottom]
  omega

lemma inside_united_right (r s : Rect) : s.Inside (r.united s) := by
  simp only [Inside, united, right, bottom]
  omega

lemma united_translated (r s : Rect) (dx dy : ℤ) :
    (r.translated dx dy).united (s.translated dx dy) = (r.united s).translated dx dy := by
  simp only [united, translated, right, bottom, Rect.mk.injEq]
  omega

lemma foldl_united_translated (rs : List Rect) (r : Rect) (dx dy : ℤ) :
    (rs.map (translated · dx dy)).foldl united (r.translated dx dy) = (rs.foldl united r).translated dx dy := by
  induction rs generalizing r with
  | nil => rfl
  | cons s rs ih =>
    rw [List.map_cons, List.foldl_cons, List.foldl_cons, united_translated]
    exact ih _

lemma box_translated (rs : List Rect) (dx dy : ℤ) :
    box (rs.map (translated · dx dy)) = (box rs).map (translated · dx dy) := by
  cases rs with
  | nil => rfl
  | cons r rs => exact congrArg some (foldl_united_translated rs r dx dy)

lemma inside_foldl_united (rs : List Rect) (r : Rect) :
    r.Inside (rs.foldl united r) ∧ ∀ s ∈ rs, s.Inside (rs.foldl united r) := by
  induction rs generalizing r with
  | nil => exact ⟨.refl r, by simp⟩
  | cons t rs ih =>
    obtain ⟨hfirst, hrest⟩ := ih (r.united t)
    refine ⟨(inside_united_left r t).trans hfirst, fun s hs => ?_⟩
    rcases List.mem_cons.mp hs with rfl | hs
    · exact (inside_united_right r s).trans hfirst
    · exact hrest s hs

lemma inside_box {rs : List Rect} (hr : r ∈ rs) (hs : box rs = some s) : r.Inside s := by
  cases rs with
  | nil => simp at hr
  | cons t rs =>
    obtain ⟨hfirst, hrest⟩ := inside_foldl_united rs t
    cases hs
    rcases List.mem_cons.mp hr with rfl | hr
    · exact hfirst
    · exact hrest r hr

lemma Inside.proper (h : r.Inside s) (hr : r.Proper) : s.Proper := by
  simp only [Inside, Proper, right, bottom] at *
  omega

lemma box_eq_none {rs : List Rect} : box rs = none ↔ rs = [] := by
  cases rs <;> simp [box]

end Rect

end InputLeap.Lib
