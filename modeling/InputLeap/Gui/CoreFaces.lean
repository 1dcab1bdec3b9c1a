import InputLeap.Gui.LinkSymmetry
import InputLeap.Server.DisplayGeometry

/-! Where the displays of a computer face out is worked out twice: by the GUI, which cuts stretches out of each edge,
and by the core, which asks for one row at a time. -/

namespace InputLeap.Gui

open InputLeap.Lib DisplayGeometry

def Side.direction : Side → Direction
  | .left => .left
  | .right => .right
  | .up => .top
  | .down => .bottom

def coreRect (r : Rect) : DisplayRect := ⟨r.x, r.y, r.width, r.height⟩

variable {side : Side} {rects : List Rect} {d e : Rect} {i : ℕ} {n : ℤ}

lemma spans_coreRect : (coreRect e).spans side.direction n = true ↔ Over (side.along e) n := by
  cases side <;> exact decide_eq_true_iff

lemma beyond_coreRect : (coreRect d).beyond (coreRect e) side.direction = side.beyond d e := by
  cases side <;> rfl

lemma facesOut_coreRect : facesOut (rects.map coreRect) i (coreRect d) side.direction n = true ↔
    ∀ e j, rects[j]? = some e → j ≠ i → side.beyond d e = true → ¬Over (side.along e) n := by
  rw [facesOut, List.all_eq_true]
  constructor
  · intro h e j he hne hbeyond hover
    have hmem : (coreRect e, j) ∈ (rects.map coreRect).zipIdx := by
      rw [List.mk_mem_zipIdx_iff_getElem?, List.getElem?_map, he]
      rfl
    have hout := h _ hmem
    simp [hne, spans_coreRect.mpr hover, beyond_coreRect, hbeyond] at hout
  · rintro h ⟨c, j⟩ hmem
    rw [List.mk_mem_zipIdx_iff_getElem?, List.getElem?_map] at hmem
    obtain ⟨e, he, rfl⟩ := Option.map_eq_some_iff.mp hmem
    by_cases hne : j = i
    · simp [hne]
    · cases hbeyond : side.beyond d e with
      | false => simp [beyond_coreRect, hbeyond]
      | true =>
        have hnot := h e j he hne hbeyond
        rw [← spans_coreRect] at hnot
        simp [hnot]

theorem faces_iff_facesOut (hproper : ∀ r ∈ rects, r.Proper) (side : Side) (i : ℕ) (n : ℤ) :
    (∃ f ∈ facesOf side rects, f.display = i ∧ f.Has n) ↔
      ∃ d, rects[i]? = some d ∧ Over (side.along d) n ∧
        facesOut (rects.map coreRect) i (coreRect d) side.direction n = true := by
  constructor
  · rintro ⟨f, hf, rfl, hn⟩
    obtain ⟨d, hd, hspan, -⟩ := mem_facesOf.mp hf
    have hopen := (over_openSpans hproper (hproper d (List.mem_of_getElem? hd)) n).mp ⟨_, hspan, hn⟩
    exact ⟨d, hd, hopen.1, facesOut_coreRect.mpr hopen.2⟩
  · rintro ⟨d, hd, hover, hout⟩
    have hopen := @over_openSpans side rects d i hproper (hproper d (List.mem_of_getElem? hd)) n
    obtain ⟨span, hspan, hn⟩ := hopen.mpr ⟨hover, facesOut_coreRect.mp hout⟩
    exact ⟨⟨span.1, span.2, i, side.edge d⟩, mem_facesOf.mpr ⟨d, hd, hspan, rfl⟩, rfl, hn⟩

/-- A laptop below a wider monitor, which hangs over it to the right. -/
theorem faces_laptop :
    (∃ f ∈ facesOf .up [⟨0, 0, 300, 100⟩, ⟨0, 100, 200, 100⟩], f.display = 1 ∧ f.Has 50) ↔
      ∃ d, [(⟨0, 0, 300, 100⟩ : Rect), ⟨0, 100, 200, 100⟩][1]? = some d ∧ Over (Side.up.along d) 50 ∧
        facesOut ([(⟨0, 0, 300, 100⟩ : Rect), ⟨0, 100, 200, 100⟩].map coreRect) 1 (coreRect d) Side.up.direction 50 =
          true :=
  faces_iff_facesOut (by simp [Rect.Proper]) .up 1 50

end InputLeap.Gui
