import InputLeap.Lib.Obstacles
import InputLeap.Gui.LinkSymmetry
import InputLeap.Gui.Growth

/-! A new computer goes beside another one, in its row or column, at the first place that is free. -/

namespace InputLeap.Gui

open InputLeap.Lib

namespace Side

def gap (side : Side) (d e : Rect) : ℤ := side.pos (side.opposite.edge e) - side.pos (side.edge d)

def sameRow (side : Side) (d e : Rect) : Prop := (side.along e).1 = (side.along d).1

def placeAt (side : Side) (anchor : Rect) (size : ℤ × ℤ) (k : ℤ) : Rect :=
  match side with
  | .left => ⟨anchor.x - k - size.1, anchor.y, size.1, size.2⟩
  | .right => ⟨anchor.right + k, anchor.y, size.1, size.2⟩
  | .up => ⟨anchor.x, anchor.y - k - size.2, size.1, size.2⟩
  | .down => ⟨anchor.x, anchor.bottom + k, size.1, size.2⟩

def reach (side : Side) (anchor d : Rect) : ℤ := side.pos (side.edge d) - side.pos (side.edge anchor)

variable {side : Side} {anchor d e : Rect} {size : ℤ × ℤ} {k : ℤ}

lemma beyond_iff_gap : side.beyond d e = true ↔ 0 ≤ side.gap d e := by
  rw [beyond_iff]
  cases side <;> simp [gap, pos, forward, opposite, edge, across, upright]

lemma gap_placeAt : side.gap anchor (side.placeAt anchor size k) = k := by
  cases side <;> simp [gap, pos, forward, opposite, edge, placeAt, Rect.right, Rect.bottom]

lemma sameRow_placeAt : side.sameRow anchor (side.placeAt anchor size k) := by
  cases side <;> rfl

lemma eq_placeAt (hrow : side.sameRow anchor e) : e = side.placeAt anchor (e.width, e.height) (side.gap anchor e) := by
  rw [Rect.ext_iff]
  cases side <;>
    simp [sameRow, along, upright, gap, pos, forward, opposite, edge, placeAt, Rect.right, Rect.bottom] at * <;> omega

lemma reach_self : side.reach anchor anchor = 0 := sub_self _

lemma obstructs {α : Type} (f : α → Rect) (side : Side) (anchor : Rect) (size : ℤ × ℤ) :
    Obstructs (fun a k => (f a).intersects (side.placeAt anchor size k)) fun a => side.reach anchor (f a) where
  lt := by
    intro a k h
    rw [Rect.intersects, decide_eq_true_eq] at h
    cases side <;> simp [placeAt, reach, pos, forward, edge, Rect.right, Rect.bottom] at * <;> omega
  upTo := by
    intro a k j h hkj hj
    rw [Rect.intersects, decide_eq_true_eq] at *
    cases side <;> simp [placeAt, reach, pos, forward, edge, Rect.right, Rect.bottom] at * <;> omega

lemma besideRect_self : LayoutModel.besideRect side anchor size = side.placeAt anchor size 0 := by
  cases side <;> simp [LayoutModel.besideRect, placeAt]

lemma besideRect_reach : LayoutModel.besideRect side
    (if side = .left ∨ side = .right then { d with y := anchor.y } else { d with x := anchor.x }) size =
      side.placeAt anchor size (side.reach anchor d) := by
  cases side <;>
    simp [LayoutModel.besideRect, placeAt, reach, pos, forward, edge, Rect.right, Rect.bottom]

end Side

namespace LayoutModel

variable {qt : Qt} {m : LayoutModel} {side : Side} {anchor : Rect} {size : ℤ × ℤ} {name : Name}

lemma walkBeside_eq (n : ℕ) {beside : Rect} {k : ℤ} (h : besideRect side beside size = side.placeAt anchor size k) :
    m.walkBeside side anchor size n beside =
      (firstFree (fun s k => s.desktop.intersects (side.placeAt anchor size k)) (fun s => side.reach anchor s.desktop)
        m.screens n k).map (side.placeAt anchor size) := by
  induction n generalizing beside k with
  | zero => rfl
  | succ n ih =>
    rw [walkBeside, firstFree, h]
    dsimp only
    cases m.screens.find? fun s => s.desktop.intersects (side.placeAt anchor size k) with
    | none => rfl
    | some blocker => exact ih Side.besideRect_reach

/-- A computer that is here itself is not in the way, so that there are attempts enough for all the others. -/
lemma walkBeside_spec {start : ScreenConfig} (hstart : start ∈ m.screens) {n : ℕ} (hn : m.screens.length ≤ n) :
    ∃ k, m.walkBeside side start.desktop size n start.desktop = some (side.placeAt start.desktop size k) ∧ 0 ≤ k ∧
      (∀ t ∈ m.screens, t.desktop.intersects (side.placeAt start.desktop size k) = false) ∧
      ∀ i, 0 ≤ i → i < k → ∃ t ∈ m.screens, t.desktop.intersects (side.placeAt start.desktop size i) = true := by
  have hcount : (m.screens.countP fun s => decide (0 < side.reach start.desktop s.desktop)) < n := by
    refine lt_of_lt_of_le (lt_of_le_of_ne List.countP_le_length fun heq => ?_) hn
    have hall := List.countP_eq_length.mp heq start hstart
    simp [Side.reach_self] at hall
  obtain ⟨k, hk, hle, hfree, hbefore⟩ := firstFree_spec (Side.obstructs ScreenConfig.desktop side start.desktop size) hcount
  refine ⟨k, ?_, hle, hfree, hbefore⟩
  rw [walkBeside_eq n Side.besideRect_self, hk, Option.map_some]

lemma overlapsAnother_none {rect : Rect} (h : ∀ t ∈ m.screens, t.desktop.intersects rect = false) :
    m.overlapsAnother none rect = false := by
  rw [overlapsAnother, List.any_eq_false]
  rintro ⟨t, i⟩ ht
  simpa using h t (List.fst_mem_of_mem_zipIdx ht)

lemma addScreen_free {x y : ℤ} (hname : qt.trimmed name ≠ []) (hnew : m.hasScreen qt (qt.trimmed name) = false)
    (hfree : ∀ t ∈ m.screens,
      t.desktop.intersects ({ m.newScreen qt (qt.trimmed name) with x := x, y := y } : ScreenConfig).desktop = false) :
    m.addScreen qt (qt.trimmed name) x y =
      ((m.append { m.newScreen qt (qt.trimmed name) with x := x, y := y }).save qt, true) := by
  rw [addScreen, Qt.trimmed_trimmed]
  dsimp only
  rw [if_neg (by simp [hname, hnew]), overlapsAnother_none hfree]
  rfl

lemma desktop_at (s : ScreenConfig) (x y : ℤ) :
    ({ s with x := x, y := y } : ScreenConfig).desktop = { s.desktop with x := x, y := y } := by
  have hunplaced : ({ s with x := x, y := y } : ScreenConfig).unplacedRects = s.unplacedRects :=
    ScreenConfig.unplacedRects_congr rfl rfl rfl
  rw [ScreenConfig.desktop_eq, ScreenConfig.desktop_eq, ScreenConfig.extent, ScreenConfig.extent, hunplaced]

theorem placeNextTo_nearest {anchor : Name} {i : ℕ} {start : ScreenConfig} (hlen : m.screens.length ≤ 64)
    (hanchor : m.indexOf qt anchor = some i) (hstart : m.screens[i]? = some start) (hname : qt.trimmed name ≠ [])
    (hnew : m.hasScreen qt (qt.trimmed name) = false) (side : Side) :
    ∃ s : ScreenConfig, m.placeNextTo qt name anchor side = ((m.append s).save qt, true) ∧
      s = { m.newScreen qt (qt.trimmed name) with x := s.x, y := s.y } ∧ side.sameRow start.desktop s.desktop ∧
      side.beyond start.desktop s.desktop = true ∧ (∀ t ∈ m.screens, t.Apart s) ∧
      ∀ r : Rect, r.width = s.desktop.width → r.height = s.desktop.height → side.sameRow start.desktop r →
        side.beyond start.desktop r = true → side.gap start.desktop r < side.gap start.desktop s.desktop →
        ∃ t ∈ m.screens, t.desktop.intersects r = true := by
  have hmem := List.mem_of_getElem? hstart
  let probe := m.newScreen qt (qt.trimmed name)
  obtain ⟨k, hwalk, hk, hfree, hbefore⟩ :=
    @walkBeside_spec m side (probe.desktop.width, probe.desktop.height) start hmem 64 hlen
  let place := side.placeAt start.desktop (probe.desktop.width, probe.desktop.height) k
  let s : ScreenConfig := { probe with x := place.x, y := place.y }
  have hdesktop : s.desktop = place := by
    rw [desktop_at, Rect.ext_iff]
    cases side <;> exact ⟨rfl, rfl, rfl, rfl⟩
  refine ⟨s, ?_, rfl, ?_, ?_, fun t ht => ?_, fun r hwidth hheight hrow hbeyond hgap => ?_⟩
  · rw [placeNextTo, hanchor, Option.bind_some, hstart]
    dsimp only
    rw [if_neg (by simp [hname, hnew]), hwalk]
    refine addScreen_free hname hnew fun t ht => ?_
    exact hdesktop ▸ hfree t ht
  · rw [hdesktop]
    exact Side.sameRow_placeAt
  · rw [hdesktop, Side.beyond_iff_gap, Side.gap_placeAt]
    exact hk
  · rw [ScreenConfig.Apart, hdesktop]
    exact hfree t ht
  · rw [hdesktop, Side.gap_placeAt] at hgap
    rw [desktop_at] at hwidth hheight
    rw [Side.eq_placeAt hrow, hwidth, hheight]
    exact hbefore _ (Side.beyond_iff_gap.mp hbeyond) hgap

theorem placeNextTo_nearest_desk : ∃ s : ScreenConfig,
    { empty none with screens := besideDesk }.placeNextTo asciiQt " tv".toList "desk".toList .right =
      (({ empty none with screens := besideDesk }.append s).save asciiQt, true) ∧
    Side.right.beyond (ScreenConfig.new "desk".toList).desktop s.desktop = true ∧ ∀ t ∈ besideDesk, t.Apart s := by
  obtain ⟨s, hplaced, -, -, hbeyond, hapart, -⟩ := @placeNextTo_nearest asciiQt { empty none with screens := besideDesk }
    " tv".toList "desk".toList 0 (.new "desk".toList) (by decide) (by decide) rfl (by decide) (by decide) .right
  exact ⟨s, hplaced, hbeyond, hapart⟩

end LayoutModel

end InputLeap.Gui
