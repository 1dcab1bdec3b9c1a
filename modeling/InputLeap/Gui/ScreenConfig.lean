import InputLeap.Lib.Binary64
import InputLeap.Lib.Rect
import InputLeap.Server.Config
import Mathlib.Data.Fintype.Basic

/-! A computer of the layout: its displays in its own pixels, and where they lie in the shared space, which counts
pixels of 96 dpi. Where the source divides a whole number by 1000 the quotient is exact, as no double next to it lies on
the other side of a half. -/

namespace InputLeap.Gui

open InputLeap.Lib

def kMaxDimension : ℤ := 100000
def kDefaultWidth : ℤ := 1920
def kDefaultHeight : ℤ := 1080
def kMinScale : ℤ := 200
def kMaxScale : ℤ := 4000
def kMaxReportedDisplays : ℕ := 8

def qBound (low value high : ℤ) : ℤ := max low (min value high)

/-- `n / d` to the nearest integer, halves away from zero. -/
def lround (n d : ℤ) : ℤ := if 0 ≤ n then (2 * n + d) / (2 * d) else -((-2 * n + d) / (2 * d))

structure DisplayConfig where
  x : ℤ
  y : ℤ
  width : ℤ
  height : ℤ
  mmWidth : ℤ
  mmHeight : ℤ
  deriving DecidableEq

namespace DisplayConfig

def default : DisplayConfig := ⟨0, 0, kDefaultWidth, kDefaultHeight, 0, 0⟩

def rect (d : DisplayConfig) : Rect := ⟨d.x, d.y, d.width, d.height⟩

def area (d : DisplayConfig) : ℤ := d.width * d.height

def clamped (d : DisplayConfig) : DisplayConfig :=
  { d with
    width := qBound 1 d.width kMaxDimension
    height := qBound 1 d.height kMaxDimension
    x := qBound (-kMaxDimension) d.x kMaxDimension
    y := qBound (-kMaxDimension) d.y kMaxDimension }

def moved (d : DisplayConfig) (dx dy : ℤ) : DisplayConfig := { d with x := d.x - dx, y := d.y - dy }

def withoutSize (d : DisplayConfig) : DisplayConfig := { d with mmWidth := 0, mmHeight := 0 }

end DisplayConfig

def minOf (f : DisplayConfig → ℤ) (first : DisplayConfig) (displays : List DisplayConfig) : ℤ :=
  displays.foldl (fun n d => min n (f d)) (f first)

def moveToOrigin : List DisplayConfig → List DisplayConfig
  | [] => []
  | d :: ds => (d :: ds).map (·.moved (minOf DisplayConfig.x d ds) (minOf DisplayConfig.y d ds))

def lroundDouble (q : ℚ) : ℤ := lround q.num q.den

/-- Millimetres per pixel over both axes, against a pixel of 96 dpi, in doubles. -/
def measured (d : DisplayConfig) : ℤ :=
  let mmPerPixel := Binary64.round (Binary64.round (d.mmWidth / d.width) + Binary64.round (d.mmHeight / d.height)) / 2
  let mmAt96 := Binary64.round (Binary64.round (254 / 10) / 96)
  let scale := lroundDouble (Binary64.round (Binary64.round (mmPerPixel / mmAt96) * 1000))
  if kMinScale ≤ scale ∧ scale ≤ kMaxScale then scale else 0

def DisplayConfig.knowsSize (d : DisplayConfig) : Bool :=
  decide (0 < d.mmWidth ∧ 0 < d.mmHeight ∧ 0 < d.width ∧ 0 < d.height)

def bigger (best : Option DisplayConfig) (d : DisplayConfig) : Option DisplayConfig :=
  match best with
  | none => some d
  | some b => if b.area < d.area then some d else some b

def measuredScale (displays : List DisplayConfig) : ℤ :=
  match (displays.filter DisplayConfig.knowsSize).foldl bigger none with
  | none => 0
  | some d => measured d

def cleanDisplay (d : DisplayConfig) : DisplayConfig :=
  { x := qBound (-kMaxDimension) d.x kMaxDimension
    y := qBound (-kMaxDimension) d.y kMaxDimension
    width := min d.width kMaxDimension
    height := min d.height kMaxDimension
    mmWidth := if 0 < d.mmWidth ∧ 0 < d.mmHeight then min d.mmWidth 10000 else 0
    mmHeight := if 0 < d.mmWidth ∧ 0 < d.mmHeight then min d.mmHeight 10000 else 0 }

def cleanDisplays (reported : List DisplayConfig) : List DisplayConfig :=
  moveToOrigin <| ((reported.filter fun d => decide (0 < d.width ∧ 0 < d.height)).take kMaxReportedDisplays).map
    cleanDisplay

def displaysFromJson (displays : List DisplayConfig) : List DisplayConfig :=
  cleanDisplays (displays.take (4 * kMaxReportedDisplays + 1))

structure ScreenConfig where
  name : Name
  x : ℤ
  y : ℤ
  displays : List DisplayConfig
  displaysReported : Bool
  displaysTyped : Bool
  scale : ℤ
  scaleTyped : Bool
  aliases : List Name
  modifiers : Fin 5 → Fin 6
  corners : Fin 4 → Bool
  cornerSize : ℤ
  fixes : Fin 5 → Bool
  deriving DecidableEq

namespace ScreenConfig

def new (name : Name) : ScreenConfig where
  name := name
  x := 0
  y := 0
  displays := [.default]
  displaysReported := false
  displaysTyped := false
  scale := 1000
  scaleTyped := false
  aliases := []
  modifiers i := i.castSucc
  corners _ := false
  cornerSize := 0
  fixes _ := false

def toShared (s : ScreenConfig) (pixels : ℤ) : ℤ := lround (pixels * s.scale) 1000

def displayScale (s : ScreenConfig) (d : DisplayConfig) : ℤ :=
  if s.scaleTyped then s.scale
  else
    let own := measuredScale [d]
    if 0 < own then own else s.scale

def nativeSize (s : ScreenConfig) : ℤ × ℤ :=
  match Rect.box (s.displays.map DisplayConfig.rect) with
  | none => (kDefaultWidth, kDefaultHeight)
  | some box => (box.width, box.height)

end ScreenConfig

def biggest (first : DisplayConfig) (displays : List DisplayConfig) : DisplayConfig × ℕ :=
  (displays.zipIdx 1).foldl (fun main d => if main.1.area < d.1.area then d else main) (first, 0)

namespace ScreenConfig

def shared (pixels scale : ℤ) : ℤ := lround (pixels * scale) 1000

def mainRect (s : ScreenConfig) (m : DisplayConfig) : Rect :=
  let sm := s.displayScale m
  ⟨shared m.x sm, shared m.y sm, max 1 (shared m.width sm), max 1 (shared m.height sm)⟩

/-- Along the biggest display, offsets at its scale; a display meeting it keeps meeting it. -/
def besideMain (s : ScreenConfig) (m d : DisplayConfig) : Rect :=
  let M := s.mainRect m
  let sm := s.displayScale m
  let si := s.displayScale d
  let width := max 1 (shared d.width si)
  let height := max 1 (shared d.height si)
  let left := if d.x = m.x + m.width then M.right
    else if d.x + d.width = m.x then M.x - width
    else M.x + shared (d.x - m.x) sm
  let top := if d.y = m.y + m.height then M.bottom
    else if d.y + d.height = m.y then M.y - height
    else M.y + shared (d.y - m.y) sm
  ⟨left, top, width, height⟩

def unplacedRects (s : ScreenConfig) : List Rect :=
  match s.displays with
  | [] => []
  | d :: ds =>
    let main := biggest d ds
    (d :: ds).zipIdx.map fun (d, i) => if i = main.2 then s.mainRect main.1 else s.besideMain main.1 d

def displayRects (s : ScreenConfig) : List Rect :=
  match Rect.box s.unplacedRects with
  | none => []
  | some box => s.unplacedRects.map (·.translated (s.x - box.x) (s.y - box.y))

def desktop (s : ScreenConfig) : Rect := (Rect.box s.displayRects).getD ⟨s.x, s.y, 1, 1⟩

def normaliseDisplays (s : ScreenConfig) : ScreenConfig :=
  match s.displays.map DisplayConfig.clamped with
  | [] => { s with displays := [.default] }
  | d :: ds =>
    { s with
      x := s.x + s.toShared (minOf DisplayConfig.x d ds)
      y := s.y + s.toShared (minOf DisplayConfig.y d ds)
      displays := moveToOrigin (d :: ds) }

def extent (s : ScreenConfig) : ℤ × ℤ :=
  match Rect.box s.unplacedRects with
  | none => (1, 1)
  | some box => (box.width, box.height)

variable {s t : ScreenConfig}

lemma desktop_eq (s : ScreenConfig) : s.desktop = ⟨s.x, s.y, s.extent.1, s.extent.2⟩ := by
  rw [desktop, displayRects, extent]
  cases hbox : Rect.box s.unplacedRects with
  | none => rfl
  | some box =>
    dsimp only
    rw [Rect.box_translated, hbox]
    simp [Rect.translated]

lemma proper_unplaced {r : Rect} (hr : r ∈ s.unplacedRects) : r.Proper := by
  rw [unplacedRects] at hr
  split at hr
  · simp at hr
  · obtain ⟨⟨d, i⟩, _, rfl⟩ := List.mem_map.mp hr
    dsimp only
    split_ifs
    · exact ⟨lt_max_of_lt_left one_pos, lt_max_of_lt_left one_pos⟩
    · exact ⟨lt_max_of_lt_left one_pos, lt_max_of_lt_left one_pos⟩

lemma proper_displayRects {r : Rect} (hr : r ∈ s.displayRects) : r.Proper := by
  rw [displayRects] at hr
  split at hr
  · simp at hr
  · obtain ⟨u, hu, rfl⟩ := List.mem_map.mp hr
    have hproper : u.Proper := proper_unplaced hu
    exact hproper

lemma extent_pos (s : ScreenConfig) : 0 < s.extent.1 ∧ 0 < s.extent.2 := by
  rw [extent]
  cases hbox : Rect.box s.unplacedRects with
  | none => exact ⟨one_pos, one_pos⟩
  | some box =>
    have hne : s.unplacedRects ≠ [] := by
      intro hnil
      simp [hnil, Rect.box] at hbox
    obtain ⟨r, hr⟩ := List.exists_mem_of_ne_nil _ hne
    exact (Rect.inside_box hr hbox).proper (proper_unplaced hr)

lemma inside_desktop {r : Rect} (hr : r ∈ s.displayRects) : r.Inside s.desktop := by
  rw [desktop]
  cases hbox : Rect.box s.displayRects with
  | none => simp [Rect.box_eq_none.mp hbox] at hr
  | some box => exact Rect.inside_box hr hbox

end ScreenConfig

end InputLeap.Gui
