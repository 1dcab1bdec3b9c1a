import InputLeap.Gui.LinkSymmetry
import InputLeap.Gui.Setups

/-! A desktop that grows pushes on what is right of it and below it. Each desktop moves at most as far as the ones
behind it, so none of them collide, and those that touched the grown one keep touching it. -/

namespace InputLeap.Gui

open InputLeap.Lib

section Growth

/-- `e` is on one side of `d`, and they share a stretch of that edge. -/
def Touches (side : Side) (d e : Rect) : Prop :=
  side.opposite.edge e = side.edge d ∧ ∃ n, Over (side.along d) n ∧ Over (side.along e) n

def shifted (before : Rect) (dw dh : ℤ) (d : Rect) : Rect :=
  d.translated (if before.right ≤ d.x then dw else 0) (if before.bottom ≤ d.y then dh else 0)

def grown (before : Rect) (dw dh : ℤ) : Rect := ⟨before.x, before.y, before.width + dw, before.height + dh⟩

variable {before d e : Rect} {dw dh : ℤ}

lemma shifted_x (before : Rect) (dw dh : ℤ) (d : Rect) : before.right ≤ d.x ∧ (shifted before dw dh d).x = d.x + dw ∨
    d.x < before.right ∧ (shifted before dw dh d).x = d.x := by
  rw [shifted, Rect.translated]
  split_ifs <;> simp <;> omega

lemma shifted_y (before : Rect) (dw dh : ℤ) (d : Rect) : before.bottom ≤ d.y ∧ (shifted before dw dh d).y = d.y + dh ∨
    d.y < before.bottom ∧ (shifted before dw dh d).y = d.y := by
  rw [shifted, Rect.translated]
  split_ifs <;> simp <;> omega

@[simp]
lemma shifted_width : (shifted before dw dh d).width = d.width := rfl

@[simp]
lemma shifted_height : (shifted before dw dh d).height = d.height := rfl

lemma shifted_apart (hdw : 0 ≤ dw) (hdh : 0 ≤ dh) (hd : d.Proper) (he : e.Proper) (h : d.intersects e = false) :
    (shifted before dw dh d).intersects (shifted before dw dh e) = false := by
  have hdx := shifted_x before dw dh d
  have hex := shifted_x before dw dh e
  have hdy := shifted_y before dw dh d
  have hey := shifted_y before dw dh e
  rw [Rect.intersects_eq_false_iff] at h ⊢
  simp only [Rect.Proper, Rect.right, Rect.bottom, shifted_width, shifted_height] at *
  -- the one behind moves no less than the one before it
  rcases h with h | h | h | h
  · left
    omega
  · right; left
    omega
  · right; right; left
    omega
  · right; right; right
    omega

lemma grown_apart (hbefore : before.Proper) (he : e.Proper) (h : before.intersects e = false) :
    (grown before dw dh).intersects (shifted before dw dh e) = false := by
  have hx := shifted_x before dw dh e
  have hy := shifted_y before dw dh e
  rw [Rect.intersects_eq_false_iff] at h ⊢
  simp only [Rect.Proper, grown, Rect.right, Rect.bottom, shifted_width, shifted_height] at *
  rcases h with h | h | h | h
  · left
    omega
  · right; left
    omega
  · right; right; left
    omega
  · right; right; right
    omega

lemma grown_touches (hbefore : before.Proper) (hdw : 0 ≤ dw) (hdh : 0 ≤ dh) (he : e.Proper) {side : Side}
    (h : Touches side before e) : Touches side (grown before dw dh) (shifted before dw dh e) := by
  obtain ⟨hedge, n, hover, hover'⟩ := h
  have hx := shifted_x before dw dh e
  have hy := shifted_y before dw dh e
  -- along the edge nothing moves, since they share the row
  refine ⟨?_, n, ?_, ?_⟩
  all_goals
    simp only [Rect.Proper, Over, grown, Rect.right, Rect.bottom] at *
    cases side <;> simp [Side.along, Side.upright, Side.opposite, Side.edge, Rect.right, Rect.bottom] at * <;> omega

end Growth

namespace LayoutModel

variable {qt : Qt} {m : LayoutModel} {index : ℕ} {s t probe : ScreenConfig} {before : Rect} {dw dh : ℤ}

lemma proper_desktop (s : ScreenConfig) : s.desktop.Proper := by
  rw [ScreenConfig.desktop_eq]
  exact s.extent_pos

lemma desktop_pushed (before : Rect) (dw dh : ℤ) (s : ScreenConfig) :
    (pushed before dw dh s).desktop = shifted before dw dh s.desktop := by
  have hextent : (pushed before dw dh s).extent = s.extent := by
    have hunplaced : (pushed before dw dh s).unplacedRects = s.unplacedRects :=
      ScreenConfig.unplacedRects_congr rfl rfl rfl
    rw [ScreenConfig.extent, ScreenConfig.extent, hunplaced]
  rw [ScreenConfig.desktop_eq, hextent, shifted, pushed, Rect.translated]
  rw [ScreenConfig.desktop_eq]
  simp only [Rect.mk.injEq, and_true]
  constructor <;> split_ifs <;> simp

lemma moved_getElem? (hs : m.screens[index]? = some s) (before : Rect) (dw dh : ℤ) (probe : ScreenConfig) (i : ℕ) :
    ((m.screens.map (pushed before dw dh)).set index probe)[i]? =
      if i = index then some probe else m.screens[i]?.map (pushed before dw dh) := by
  obtain ⟨hlt, -⟩ := List.getElem?_eq_some_iff.mp hs
  rw [List.getElem?_set, List.length_map, List.getElem?_map]
  by_cases hi : i = index
  · rw [if_pos hi, if_pos hi.symm, if_pos (hi ▸ hlt)]
  · rw [if_neg hi, if_neg (Ne.symm hi)]

lemma allApart_moved (hapart : AllApart m.screens) (hs : m.screens[index]? = some s) (hdw : 0 ≤ dw) (hdh : 0 ≤ dh)
    (hprobe : probe.desktop = grown s.desktop dw dh) :
    AllApart ((m.screens.map (pushed s.desktop dw dh)).set index probe) := by
  rw [allApart_iff] at hapart ⊢
  have hbeside (i : ℕ) (t : ScreenConfig) (hne : i ≠ index) (ht : m.screens[i]? = some t) :
      probe.Apart (pushed s.desktop dw dh t) := by
    rw [ScreenConfig.Apart, hprobe, desktop_pushed]
    exact grown_apart (proper_desktop s) (proper_desktop t) (hapart index i s t hs ht hne.symm)
  intro i j t u ht hu hne
  rw [moved_getElem? hs] at ht hu
  split_ifs at ht hu with hi hj hj
  · exact absurd (hi.trans hj.symm) hne
  · obtain rfl := Option.some.inj ht
    obtain ⟨u', hu', rfl⟩ := Option.map_eq_some_iff.mp hu
    exact hbeside j u' hj hu'
  · obtain rfl := Option.some.inj hu
    obtain ⟨t', ht', rfl⟩ := Option.map_eq_some_iff.mp ht
    exact (hbeside i t' hi ht').symm
  · obtain ⟨t', ht', rfl⟩ := Option.map_eq_some_iff.mp ht
    obtain ⟨u', hu', rfl⟩ := Option.map_eq_some_iff.mp hu
    rw [ScreenConfig.Apart, desktop_pushed, desktop_pushed]
    exact shifted_apart hdw hdh (proper_desktop t') (proper_desktop u') (hapart i j t' u' ht' hu' hne)

theorem applyGeometry_grows (hapart : AllApart m.screens) (hs : m.screens[index]? = some s)
    (horigin : probe.x = s.x ∧ probe.y = s.y) (hwidth : s.desktop.width ≤ probe.desktop.width)
    (hheight : s.desktop.height ≤ probe.desktop.height) :
    (m.applyGeometry qt index probe).2 = true ∧ AllApart (m.applyGeometry qt index probe).1.screens ∧
      (m.applyGeometry qt index probe).1.screens[index]? = some probe ∧
      ∀ i t, i ≠ index → m.screens[i]? = some t → ∃ u, (m.applyGeometry qt index probe).1.screens[i]? = some u ∧
        ∀ side, Touches side s.desktop t.desktop → Touches side probe.desktop u.desktop := by
  have hdw := sub_nonneg.mpr hwidth
  have hdh := sub_nonneg.mpr hheight
  have hprobe : probe.desktop = grown s.desktop (probe.desktop.width - s.desktop.width)
      (probe.desktop.height - s.desktop.height) := by
    rw [grown, ScreenConfig.desktop_eq, ScreenConfig.desktop_eq, horigin.1, horigin.2]
    simp
  have hmoved := allApart_moved hapart hs hdw hdh hprobe
  have hfits := decide_eq_true hmoved
  have happly : m.applyGeometry qt index probe = ({ m with screens := (m.screens.map (pushed s.desktop
      (probe.desktop.width - s.desktop.width) (probe.desktop.height - s.desktop.height))).set index probe }.save qt,
      true) := by
    rw [applyGeometry, hs]
    exact if_pos hfits
  rw [happly, save_screens]
  refine ⟨rfl, hmoved, ?_, fun i t hne ht => ?_⟩
  · rw [moved_getElem? hs, if_pos rfl]
  · refine ⟨pushed s.desktop (probe.desktop.width - s.desktop.width) (probe.desktop.height - s.desktop.height) t, ?_,
      fun side htouches => ?_⟩
    · rw [moved_getElem? hs, if_neg hne, ht, Option.map_some]
    · rw [desktop_pushed]
      nth_rewrite 1 [hprobe]
      exact grown_touches (proper_desktop s) hdw hdh (proper_desktop t) htouches

def besideDesk : List ScreenConfig := [.new "desk".toList, { ScreenConfig.new "laptop".toList with x := 1920 }]

def widerDesk : ScreenConfig := { ScreenConfig.new "desk".toList with displays := [⟨0, 0, 2560, 1440, 0, 0⟩] }

theorem applyGeometry_grows_desk : ∃ u : ScreenConfig,
    ({ empty none with screens := besideDesk }.applyGeometry asciiQt 0 widerDesk).1.screens[1]? = some u ∧
      Touches .right widerDesk.desktop u.desktop := by
  have hgrows := @applyGeometry_grows asciiQt { empty none with screens := besideDesk } 0 (.new "desk".toList) widerDesk
    (by decide) rfl ⟨rfl, rfl⟩ (by decide) (by decide)
  obtain ⟨u, hu, htouches⟩ := hgrows.2.2.2 1 { ScreenConfig.new "laptop".toList with x := 1920 } (by decide) rfl
  exact ⟨u, hu, htouches .right ⟨by decide, 0, by decide, by decide⟩⟩

end LayoutModel

end InputLeap.Gui
