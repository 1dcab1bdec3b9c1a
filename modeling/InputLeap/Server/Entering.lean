import InputLeap.Server.Landing
import Mathlib.Data.Finset.Max

/-! Entering a computer with several displays. Of the displays on a row, the one that ends first has no other one of
the row wholly before it, so that there always is a display to enter by. -/

namespace InputLeap

namespace DisplayGeometry

open Server

variable {displays : List DisplayRect} {box d e : DisplayRect} {side dir : Direction} {p : Position} {i : ℕ} {n : ℤ}

def farEnd (side : Direction) (d : DisplayRect) : ℤ :=
  match side with
  | .left => d.x + d.w
  | .right => -d.x
  | .top => d.y + d.h
  | _ => -d.y

lemma farEnd_lt (hd : 0 < d.w ∧ 0 < d.h) (h : d.beyond e side = true) : farEnd side e < farEnd side d := by
  cases side <;> simp only [DisplayRect.beyond, decide_eq_true_eq, Bool.false_eq_true] at h <;>
    simp only [farEnd] <;> omega

lemma facesOut_iff : facesOut displays i d side n = true ↔
    ∀ e j, displays[j]? = some e → j ≠ i → e.spans side n = true → d.beyond e side = false := by
  rw [facesOut, List.all_eq_true]
  constructor
  · intro h e j he hne hspans
    have hout := h (e, j) (List.mk_mem_zipIdx_iff_getElem?.mpr he)
    simpa [hne, hspans] using hout
  · rintro h ⟨e, j⟩ he
    have hbeyond := h e j (List.mk_mem_zipIdx_iff_getElem?.mp he)
    by_cases hne : j = i
    · simp [hne]
    · cases hspans : e.spans side n with
      | false => simp [hspans]
      | true => simp [hbeyond hne hspans]

lemma exists_facesOut (hsizes : ∀ d ∈ displays, 0 < d.w ∧ 0 < d.h) (hd : d ∈ displays) (hspans : d.spans side n = true) :
    ∃ e ∈ displays, e.spans side n = true ∧ ∀ f ∈ displays, f.spans side n = true → e.beyond f side = false := by
  have hne : (displays.toFinset.filter fun e => e.spans side n = true).Nonempty :=
    ⟨d, Finset.mem_filter.mpr ⟨List.mem_toFinset.mpr hd, hspans⟩⟩
  obtain ⟨e, he, hleast⟩ := Finset.exists_min_image _ (farEnd side) hne
  obtain ⟨hmem, hspans'⟩ := Finset.mem_filter.mp he
  rw [List.mem_toFinset] at hmem
  refine ⟨e, hmem, hspans', fun f hf hfspans => ?_⟩
  have hle := hleast f (Finset.mem_filter.mpr ⟨List.mem_toFinset.mpr hf, hfspans⟩)
  by_contra hbeyond
  exact absurd (farEnd_lt (hsizes e hmem) (Bool.eq_true_of_not_eq_false hbeyond)) (not_lt.mpr hle)

lemma find_facing (hsizes : ∀ d ∈ displays, 0 < d.w ∧ 0 < d.h) (hd : d ∈ displays) (hspans : d.spans side n = true) :
    ∃ e i, (displays.zipIdx.find? fun (d, i) => d.spans side n && facesOut displays i d side n) = some (e, i) := by
  obtain ⟨e, he, hspans', hfirst⟩ := exists_facesOut hsizes hd hspans
  obtain ⟨i, hi⟩ := List.mem_iff_getElem?.mp he
  have hout : facesOut displays i e side n = true :=
    facesOut_iff.mpr fun f j hf _ hfspans => hfirst f (List.mem_of_getElem? hf) hfspans
  cases hfind : displays.zipIdx.find? fun (d, i) => d.spans side n && facesOut displays i d side n with
  | none =>
    have hnot := List.find?_eq_none.mp hfind (e, i) (List.mk_mem_zipIdx_iff_getElem?.mpr hi)
    simp [hspans', hout] at hnot
  | some found => exact ⟨found.1, found.2, rfl⟩

def toEdge (box d : DisplayRect) (dir : Direction) (p : Position) : Position :=
  match opposite dir with
  | .left => (p.1 + (d.x - box.x), p.2)
  | .right => (p.1 - ((box.x + box.w) - (d.x + d.w)), p.2)
  | .top => (p.1, p.2 + (d.y - box.y))
  | .bottom => (p.1, p.2 - ((box.y + box.h) - (d.y + d.h)))
  | .noDirection => p

lemma enter_found {e : DisplayRect} {i : ℕ} (hat : displayAt displays p = none) (hne : displays ≠ [])
    (hfind : (displays.zipIdx.find? fun (d, i) => d.spans (opposite dir) (along (opposite dir) p) &&
      facesOut displays i d (opposite dir) (along (opposite dir) p)) = some (e, i)) :
    enter displays box dir p = e.clampInto (toEdge box e dir p) := by
  rw [enter, if_neg (by simp [hat, hne])]
  dsimp only
  rw [hfind]
  rfl

lemma along_clampInto (hspans : d.spans (opposite dir) (along (opposite dir) p) = true) :
    along (opposite dir) (d.clampInto (toEdge box d dir p)) = along (opposite dir) p := by
  cases dir <;>
    simp only [opposite, DisplayRect.spans, along, upright, DisplayRect.clampInto, toEdge, decide_eq_true_eq, if_true,
      Bool.false_eq_true, if_false] at * <;> omega

lemma depth_clampInto (hd : 0 < d.w ∧ 0 < d.h) :
    depth dir d (d.clampInto (toEdge box d dir p)) = max 0 (min (depth dir box p) (extent dir d - 1)) := by
  cases dir <;>
    simp only [opposite, depth, extent, upright, DisplayRect.clampInto, toEdge, if_true, Bool.false_eq_true, if_false] <;>
    omega

theorem enter_onRow (hne : displays ≠ []) (hsizes : ∀ d ∈ displays, 0 < d.w ∧ 0 < d.h) (box : DisplayRect)
    (dir : Direction) (p : Position) :
    (∃ d ∈ displays, d.contains (enter displays box dir p) = true) ∧
      (displayAt displays p = none →
        (∃ d ∈ displays, d.spans (opposite dir) (along (opposite dir) p) = true) →
        ∃ d ∈ displays, d.contains (enter displays box dir p) = true ∧
          (∀ e ∈ displays, e.spans (opposite dir) (along (opposite dir) p) = true → d.beyond e (opposite dir) = false) ∧
          along (opposite dir) (enter displays box dir p) = along (opposite dir) p ∧
          depth dir d (enter displays box dir p) = max 0 (min (depth dir box p) (extent dir d - 1))) := by
  refine ⟨enter_mem hne hsizes dir, fun hat hrow => ?_⟩
  obtain ⟨d, hd, hspans⟩ := hrow
  obtain ⟨e, i, hfind⟩ := find_facing hsizes hd hspans
  have he := List.mk_mem_zipIdx_iff_getElem?.mp (List.mem_of_find?_eq_some hfind)
  have hpick := List.find?_some hfind
  simp only [Bool.and_eq_true] at hpick
  have hmem := List.mem_of_getElem? he
  rw [enter_found hat hne hfind]
  refine ⟨e, hmem, contains_clampInto (hsizes e hmem) _, fun f hf hfspans => ?_, along_clampInto hpick.1,
    depth_clampInto (hsizes e hmem)⟩
  obtain ⟨j, hj⟩ := List.mem_iff_getElem?.mp hf
  by_cases hji : j = i
  · -- nothing is wholly before itself
    subst hji
    obtain rfl := Option.some.inj (he.symm.trans hj)
    by_contra hbeyond
    exact lt_irrefl _ (farEnd_lt (hsizes e hmem) (Bool.eq_true_of_not_eq_false hbeyond))
  · exact facesOut_iff.mp hpick.2 f j hj hji hfspans

theorem enter_onRow_laptop :
    ∃ d ∈ [(⟨0, 0, 300, 100⟩ : DisplayRect), ⟨100, 100, 100, 100⟩],
      d.contains (enter [⟨0, 0, 300, 100⟩, ⟨100, 100, 100, 100⟩] ⟨0, 0, 300, 200⟩ .right (5, 150)) = true ∧
        depth .right d (enter [⟨0, 0, 300, 100⟩, ⟨100, 100, 100, 100⟩] ⟨0, 0, 300, 200⟩ .right (5, 150)) = 5 := by
  have henter := @enter_onRow [⟨0, 0, 300, 100⟩, ⟨100, 100, 100, 100⟩] (by simp) (by simp) ⟨0, 0, 300, 200⟩ .right (5, 150)
  obtain ⟨d, hd, hcontains, -, -, hdepth⟩ := henter.2 (by decide) ⟨⟨100, 100, 100, 100⟩, by simp, by decide⟩
  have hextent : ∀ d ∈ [(⟨0, 0, 300, 100⟩ : DisplayRect), ⟨100, 100, 100, 100⟩],
      max 0 (min (depth .right ⟨0, 0, 300, 200⟩ (5, 150)) (extent .right d - 1)) = 5 := by decide
  exact ⟨d, hd, hcontains, hdepth.trans (hextent d hd)⟩

end DisplayGeometry

end InputLeap
