import InputLeap.Gui.LayoutModel
import InputLeap.Lib.Runs
import Mathlib.Data.List.MinMax
import Mathlib.Data.List.Sort

/-! From every stretch of every edge of a display that faces out, the cursor goes straight on to the first display of
another computer in that direction. Percentages are whole numbers of hundredths. -/

namespace InputLeap.Gui

open InputLeap.Lib

namespace Side

def all : List Side := [.left, .right, .up, .down]

def opposite : Side → Side
  | .left => .right
  | .right => .left
  | .up => .down
  | .down => .up

def upright (side : Side) : Bool := side = .left ∨ side = .right

def forward (side : Side) : Bool := side = .right ∨ side = .down

def edge (side : Side) (d : Rect) : ℤ :=
  match side with
  | .left => d.x
  | .right => d.right
  | .up => d.y
  | .down => d.bottom

def along (side : Side) (d : Rect) : ℤ × ℤ := if side.upright then (d.y, d.bottom) else (d.x, d.right)

def beyond (side : Side) (d e : Rect) : Bool :=
  match side with
  | .left => e.right ≤ d.x
  | .right => d.right ≤ e.x
  | .up => e.bottom ≤ d.y
  | .down => d.bottom ≤ e.y

@[simp]
lemma opposite_opposite (side : Side) : side.opposite.opposite = side := by
  cases side <;> rfl

@[simp]
lemma opposite_upright (side : Side) : side.opposite.upright = side.upright := by
  cases side <;> rfl

lemma along_opposite (side : Side) (d : Rect) : side.opposite.along d = side.along d := by
  rw [along, along, opposite_upright]

lemma mem_all (side : Side) : side ∈ all := by
  cases side <;> simp [all]

end Side

structure Face where
  start : ℤ
  stop : ℤ
  display : ℕ
  edge : ℤ
  deriving DecidableEq

/-- What is left of the stretches beside one from `lo` to `hi`. -/
def cutOut (lo hi : ℤ) (spans : List (ℤ × ℤ)) : List (ℤ × ℤ) :=
  spans.flatMap fun span =>
    if hi ≤ span.1 ∨ span.2 ≤ lo then [span]
    else (if span.1 < lo then [(span.1, lo)] else []) ++ (if hi < span.2 then [(hi, span.2)] else [])

def openSpans (side : Side) (rects : List Rect) (d : Rect) (i : ℕ) : List (ℤ × ℤ) :=
  rects.zipIdx.foldl
    (fun spans (e, j) =>
      if j = i ∨ side.beyond d e = false then spans else cutOut (side.along e).1 (side.along e).2 spans)
    [side.along d]

def facesOf (side : Side) (rects : List Rect) : List Face :=
  (rects.zipIdx.flatMap fun (d, i) =>
      (openSpans side rects d i).map fun span => ⟨span.1, span.2, i, side.edge d⟩).insertionSort
    fun a b => a.start ≤ b.start

def faces (s : ScreenConfig) (side : Side) : List Face := facesOf side s.displayRects

def percent (n d whole : ℤ) : ℤ := if whole ≤ 0 then 0 else qBound 0 (lround (10000 * n) (d * whole)) 10000

def ownRange (s : ScreenConfig) (display : ℕ) (side : Side) (start stop : ℤ) : ℤ × ℤ :=
  let whole := if side.upright then s.nativeSize.2 else s.nativeSize.1
  let d := s.displays.getD display .default
  let r := s.displayRects.getD display ⟨0, 0, 0, 0⟩
  let own (at' : ℤ) := if side.upright
    then percent (d.y * r.height + (at' - r.y) * d.height) r.height whole
    else percent (d.x * r.width + (at' - r.x) * d.width) r.width whole
  (own start, own stop)

/-- A face is known by its computer and its values. -/
structure Ahead where
  screen : ℕ
  face : Face
  deriving DecidableEq

structure ScreenLink where
  source : ℕ
  target : ℕ
  side : Side
  fromStart : ℤ
  fromEnd : ℤ
  toStart : ℤ
  toEnd : ℤ
  line : (ℤ × ℤ) × ℤ × ℤ
  gap : ℤ
  deriving DecidableEq

namespace Face

variable (side : Side) (f g : Face)

def distance : ℤ := if side.forward then g.edge - f.edge else f.edge - g.edge

def commonStart : ℤ := max f.start g.start

def commonStop : ℤ := min f.stop g.stop

def facedBy : Bool := decide (0 ≤ distance side f g ∧ commonStart f g < commonStop f g)

end Face

namespace LayoutModel

variable (m : LayoutModel) (side : Side)

def ahead (i : ℕ) (f : Face) : List Ahead :=
  m.screens.zipIdx.flatMap fun (t, j) =>
    if j = i then [] else ((faces t side.opposite).filter (Face.facedBy side f)).map (Ahead.mk j)

def cuts (f : Face) (ahead : List Ahead) : List ℤ :=
  ((f.start :: f.stop :: ahead.flatMap fun a => [f.commonStart a.face, f.commonStop a.face]).insertionSort
    (· ≤ ·)).dedup

/-- The order of `ℤ` is given, since `argmin` has to compute with it. -/
def nearest (f : Face) (ahead : List Ahead) (start stop : ℤ) : Option Ahead :=
  @List.argmin Ahead ℤ Int.instLinearOrder.toPreorder Int.decLt (fun a => f.distance side a.face)
    (ahead.filter fun a => decide (f.commonStart a.face ≤ start ∧ stop ≤ f.commonStop a.face))

def pieces (i : ℕ) (f : Face) : List (Run Ahead) :=
  runs (nearest side f (m.ahead side i f)) (cuts f (m.ahead side i f))

def link (s : ScreenConfig) (i : ℕ) (f : Face) (piece : Run Ahead) : Option ScreenLink :=
  m.screens[piece.value.screen]?.bind fun t =>
    let ra := ownRange s f.display side piece.start piece.stop
    let rb := ownRange t piece.value.face.display side.opposite piece.start piece.stop
    -- too thin to mean anything once rounded
    if ra.2 ≤ ra.1 ∨ rb.2 ≤ rb.1 then none
    else some
      { source := i
        target := piece.value.screen
        side := side
        fromStart := ra.1
        fromEnd := ra.2
        toStart := rb.1
        toEnd := rb.2
        line := if side.upright then ((f.edge, piece.start), f.edge, piece.stop)
          else ((piece.start, f.edge), piece.stop, f.edge)
        gap := f.distance side piece.value.face }

def links : List ScreenLink :=
  Side.all.flatMap fun side => m.screens.zipIdx.flatMap fun (s, i) =>
    (faces s side).flatMap fun f => (m.pieces side i f).filterMap (m.link side s i f)

end LayoutModel

end InputLeap.Gui
