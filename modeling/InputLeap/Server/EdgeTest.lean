import InputLeap.Server.Entering
import InputLeap.Server.Motion

/-! The edges of the displays that the local screen is left by. A display that is beyond another one is as deep as two
zones, so that a point which is not moved to the edge of the box is not taken for one there. -/

namespace InputLeap

namespace DisplayRect

def Within (d box : DisplayRect) : Prop :=
  box.x ≤ d.x ∧ box.y ≤ d.y ∧ d.x + d.w ≤ box.x + box.w ∧ d.y + d.h ≤ box.y + box.h

def Apart (d e : DisplayRect) : Prop := ∀ p, d.contains p = true → e.contains p = false

def near (d : DisplayRect) (zone : ℤ) (p : Position) : Direction → Prop
  | .left => p.1 < d.x + zone
  | .right => d.x + d.w - zone ≤ p.1
  | .top => p.2 < d.y + zone
  | .bottom => d.y + d.h - zone ≤ p.2
  | .noDirection => False

end DisplayRect

namespace DisplayGeometry

variable {displays : List DisplayRect} {box d : DisplayRect} {zone : ℤ} {p : Position} {i : ℕ} {side : Direction}

lemma displayAt_eq (hapart : displays.Pairwise DisplayRect.Apart) (hd : displays[i]? = some d)
    (hp : d.contains p = true) : displayAt displays p = some (d, i) := by
  have hmem : (d, i) ∈ displays.zipIdx := List.mk_mem_zipIdx_iff_getElem?.mpr hd
  cases hfind : displayAt displays p with
  | none =>
    have hnot := List.find?_eq_none.mp hfind (d, i) hmem
    exact absurd hp hnot
  | some found =>
    obtain ⟨e, j⟩ := found
    have he := List.mk_mem_zipIdx_iff_getElem?.mp (List.mem_of_find?_eq_some hfind)
    have hcontains : e.contains p = true := by simpa using List.find?_some hfind
    obtain ⟨hi, rfl⟩ := List.getElem?_eq_some_iff.mp hd
    obtain ⟨hj, rfl⟩ := List.getElem?_eq_some_iff.mp he
    rcases lt_trichotomy i j with hlt | rfl | hgt
    · have hfalse := List.pairwise_iff_getElem.mp hapart i j hi hj hlt p hp
      exact absurd hcontains (Bool.eq_false_iff.mp hfalse)
    · rfl
    · have hfalse := List.pairwise_iff_getElem.mp hapart j i hj hi hgt p hcontains
      exact absurd hp (Bool.eq_false_iff.mp hfalse)

section Axis

/-- One of the two coordinates, on a display from `lo` to `hi` in a box from `first` to `last`. -/
def axisEdge (first last lo hi zone : ℤ) (outLow outHigh : Prop) [Decidable outLow] [Decidable outHigh] (x : ℤ) : ℤ :=
  if first < lo ∧ x < lo + zone ∧ outLow then first + (x - lo)
  else if hi < last ∧ hi - zone ≤ x ∧ outHigh then last - (hi - x)
  else x

variable {first last lo hi x : ℤ} {outLow outHigh : Prop} [Decidable outLow] [Decidable outHigh]

lemma axisEdge_spec (hzone : 1 ≤ zone) (hlo : lo ≤ x) (hhi : x < hi) (hfirst : first ≤ lo) (hlast : hi ≤ last)
    (hsize : 2 * zone ≤ hi - lo) (hlow : ¬outLow → first + 2 * zone ≤ lo) (hhigh : ¬outHigh → hi + 2 * zone ≤ last) :
    (axisEdge first last lo hi zone outLow outHigh x < first + zone ↔ x < lo + zone ∧ outLow) ∧
      (last - zone ≤ axisEdge first last lo hi zone outLow outHigh x ↔ hi - zone ≤ x ∧ outHigh) := by
  have houtLow : lo = first → outLow := fun heq => by_contra fun hnot => by
    have hle := hlow hnot
    omega
  have houtHigh : hi = last → outHigh := fun heq => by_contra fun hnot => by
    have hle := hhigh hnot
    omega
  rw [axisEdge]
  by_cases hL : outLow <;> by_cases hH : outHigh
  · simp only [hL, hH, and_true]
    split_ifs <;> omega
  · have hle := hhigh hH
    simp only [hL, hH, and_true, and_false, if_false, iff_false, not_le]
    split_ifs <;> omega
  · have hle := hlow hL
    simp only [hL, hH, and_true, and_false, if_false, iff_false, not_lt]
    split_ifs <;> omega
  · have hle := hlow hL
    have hle' := hhigh hH
    simp only [hL, hH, and_false, if_false, iff_false, not_lt, not_le]
    omega

end Axis

lemma far_of_not_facesOut (hsizes : ∀ d ∈ displays, 2 * zone ≤ d.w ∧ 2 * zone ≤ d.h)
    (hbox : ∀ d ∈ displays, d.Within box) (side : Direction) {n : ℤ} (h : ¬facesOut displays i d side n = true) :
    match side with
    | .left => box.x + 2 * zone ≤ d.x
    | .right => d.x + d.w + 2 * zone ≤ box.x + box.w
    | .top => box.y + 2 * zone ≤ d.y
    | .bottom => d.y + d.h + 2 * zone ≤ box.y + box.h
    | .noDirection => True := by
  rw [facesOut_iff] at h
  push Not at h
  obtain ⟨e, j, he, -, -, hbeyond⟩ := h
  have hmem := List.mem_of_getElem? he
  obtain ⟨hleft, htop, hright, hbottom⟩ := hbox e hmem
  obtain ⟨hw, hh⟩ := hsizes e hmem
  cases side <;> simp only [DisplayRect.beyond, ne_eq, decide_eq_false_iff_not, not_not] at hbeyond ⊢ <;> omega

lemma mem_choice {α : Type} {c c' : Prop} [Decidable c] [Decidable c'] {x a b : α} :
    x ∈ (if c then [a] else if c' then [b] else []) ↔ c ∧ x = a ∨ ¬c ∧ c' ∧ x = b := by
  split_ifs <;> simp [*]

lemma touches_iff (a : DisplayRect) (hzone : 2 * zone ≤ a.w ∧ 2 * zone ≤ a.h) (p : Position) (side : Direction) :
    (∃ q, (side, q) ∈ touches a zone p) ↔ a.near zone p side := by
  simp only [touches, List.mem_append, mem_choice, Prod.mk.injEq]
  cases side <;> simp [DisplayRect.near] <;> omega

lemma mem_of_displayAt (h : displayAt displays p = some (d, i)) : displays[i]? = some d ∧ d.contains p = true := by
  rw [displayAt] at h
  exact ⟨List.mk_mem_zipIdx_iff_getElem?.mp (List.mem_of_find?_eq_some h), by simpa using List.find?_some h⟩

lemma toBoxEdge_eq (hat : displayAt displays p = some (d, i)) : toBoxEdge displays box zone p =
    (axisEdge box.x (box.x + box.w) d.x (d.x + d.w) zone (facesOut displays i d .left p.2 = true)
        (facesOut displays i d .right p.2 = true) p.1,
      axisEdge box.y (box.y + box.h) d.y (d.y + d.h) zone (facesOut displays i d .top p.1 = true)
        (facesOut displays i d .bottom p.1 = true) p.2) := by
  rw [toBoxEdge, hat]
  rfl

lemma near_toBoxEdge (hzone : 1 ≤ zone) (hsizes : ∀ d ∈ displays, 2 * zone ≤ d.w ∧ 2 * zone ≤ d.h)
    (hbox : ∀ d ∈ displays, d.Within box) (hat : displayAt displays p = some (d, i)) (side : Direction) :
    box.near zone (toBoxEdge displays box zone p) side ↔
      d.near zone p side ∧ facesOut displays i d side (along side p) = true := by
  obtain ⟨hd, hp⟩ := mem_of_displayAt hat
  have hmem := List.mem_of_getElem? hd
  obtain ⟨hleft, htop, hright, hbottom⟩ := hbox d hmem
  obtain ⟨hw, hh⟩ := hsizes d hmem
  obtain ⟨hx, hxw, hy, hyh⟩ := of_decide_eq_true hp
  have hfar (side : Direction) := @far_of_not_facesOut displays box d zone i hsizes hbox side (along side p)
  have hacross := axisEdge_spec hzone hx hxw hleft hright (by omega) (hfar .left) (hfar .right)
  have hdown := axisEdge_spec hzone hy hyh htop hbottom (by omega) (hfar .top) (hfar .bottom)
  rw [toBoxEdge_eq hat]
  cases side with
  | noDirection => exact iff_of_false id fun h => h.1
  | left => exact hacross.1
  | right => exact hacross.2
  | top => exact hdown.1
  | bottom => exact hdown.2

theorem touches_toBoxEdge_iff (hzone : 1 ≤ zone) (hapart : displays.Pairwise DisplayRect.Apart)
    (hsizes : ∀ d ∈ displays, 2 * zone ≤ d.w ∧ 2 * zone ≤ d.h) (hbox : ∀ d ∈ displays, d.Within box)
    (hd : displays[i]? = some d) (hp : d.contains p = true) (side : Direction) :
    (∃ q, (side, q) ∈ touches box zone (toBoxEdge displays box zone p)) ↔
      d.near zone p side ∧ facesOut displays i d side (along side p) = true := by
  have hmem := List.mem_of_getElem? hd
  obtain ⟨hleft, htop, hright, hbottom⟩ := hbox d hmem
  obtain ⟨hw, hh⟩ := hsizes d hmem
  rw [touches_iff box (by omega)]
  exact near_toBoxEdge hzone hsizes hbox (displayAt_eq hapart hd hp) side

theorem touches_toBoxEdge_laptop :
    (∃ q, (Direction.left, q) ∈ touches ⟨0, 0, 300, 200⟩ 1
      (toBoxEdge [⟨100, 0, 200, 100⟩, ⟨0, 100, 300, 100⟩] ⟨0, 0, 300, 200⟩ 1 (100, 50))) ↔
      (⟨100, 0, 200, 100⟩ : DisplayRect).near 1 (100, 50) .left ∧
        facesOut [⟨100, 0, 200, 100⟩, ⟨0, 100, 300, 100⟩] 0 ⟨100, 0, 200, 100⟩ .left 50 = true := by
  refine @touches_toBoxEdge_iff [⟨100, 0, 200, 100⟩, ⟨0, 100, 300, 100⟩] ⟨0, 0, 300, 200⟩ _ 1 (100, 50) 0 (by decide) ?_
    (by simp) (by simp [DisplayRect.Within]) rfl (by decide) .left
  rw [List.pairwise_pair]
  intro p hp
  simp only [DisplayRect.contains, decide_eq_true_eq, decide_eq_false_iff_not] at hp ⊢
  omega

end DisplayGeometry

end InputLeap
