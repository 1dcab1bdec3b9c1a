import Mathlib.Order.Lattice
import Mathlib.Order.Defs.LinearOrder
import Mathlib.Data.Int.Order.Basic

/-! The monitors of a computer within the box around them. A monitor's edge with nothing of the same
computer beyond it faces out, and leads where the box's edge would. -/

namespace InputLeap

inductive Direction
  | noDirection
  | left
  | right
  | top
  | bottom
  deriving DecidableEq

def Direction.toNat : Direction → ℕ
  | noDirection => 0
  | left => 1
  | right => 2
  | top => 3
  | bottom => 4

abbrev Position := ℤ × ℤ

structure DisplayRect where
  x : ℤ
  y : ℤ
  w : ℤ
  h : ℤ
  deriving DecidableEq

namespace DisplayRect

def contains (d : DisplayRect) (p : Position) : Bool :=
  decide (d.x ≤ p.1 ∧ p.1 < d.x + d.w ∧ d.y ≤ p.2 ∧ p.2 < d.y + d.h)

def clampInto (d : DisplayRect) (p : Position) : Position :=
  (max d.x (min p.1 (d.x + d.w - 1)), max d.y (min p.2 (d.y + d.h - 1)))

def spans (d : DisplayRect) (side : Direction) (along : ℤ) : Bool :=
  match side with
  | .left | .right => decide (d.y ≤ along ∧ along < d.y + d.h)
  | _ => decide (d.x ≤ along ∧ along < d.x + d.w)

def beyond (d e : DisplayRect) : Direction → Bool
  | .left => decide (e.x + e.w ≤ d.x)
  | .right => decide (d.x + d.w ≤ e.x)
  | .top => decide (e.y + e.h ≤ d.y)
  | .bottom => decide (d.y + d.h ≤ e.y)
  | .noDirection => false

end DisplayRect

namespace DisplayGeometry

def upright : Direction → Bool
  | .left => true
  | .right => true
  | _ => false

def along (side : Direction) (p : Position) : ℤ := if upright side then p.2 else p.1

def displayAt (displays : List DisplayRect) (p : Position) : Option (DisplayRect × ℕ) :=
  displays.zipIdx.find? fun (d, _) => d.contains p

def distance (d : DisplayRect) (p : Position) : ℤ :=
  let c := d.clampInto p
  (c.1 - p.1) * (c.1 - p.1) + (c.2 - p.2) * (c.2 - p.2)

def nearest (displays : List DisplayRect) (p : Position) : Option (DisplayRect × ℕ) :=
  displays.zipIdx.foldl (fun best d =>
    match best with
    | none => some d
    | some b => if distance d.1 p < distance b.1 p then some d else some b) none

def facesOut (displays : List DisplayRect) (index : ℕ) (d : DisplayRect) (side : Direction) (at' : ℤ) : Bool :=
  displays.zipIdx.all fun (e, i) => i == index || !e.spans side at' || !d.beyond e side

def opposite : Direction → Direction
  | .left => .right
  | .right => .left
  | .top => .bottom
  | _ => .top

def enter (displays : List DisplayRect) (box : DisplayRect) (dir : Direction) (p : Position) : Position :=
  if displays = [] ∨ (displayAt displays p).isSome then p
  else
    let side := opposite dir
    let at' := along side p
    match displays.zipIdx.find? fun (d, i) => d.spans side at' && facesOut displays i d side at' with
    | some (d, _) =>
      d.clampInto <|
        match side with
        | .left => (p.1 + (d.x - box.x), p.2)
        | .right => (p.1 - ((box.x + box.w) - (d.x + d.w)), p.2)
        | .top => (p.1, p.2 + (d.y - box.y))
        | .bottom => (p.1, p.2 - ((box.y + box.h) - (d.y + d.h)))
        | .noDirection => p
    | none =>
      match nearest displays p with
      | some (d, _) => d.clampInto p
      | none => p

/-- The cursor moved from `old`, on a monitor, to `p`, on none: past an edge facing out it is carried
as far past the box's edge. -/
def leave (displays : List DisplayRect) (box : DisplayRect) (old p : Position) : Position :=
  if displays = [] ∨ (displayAt displays p).isSome then p
  else
    match (displayAt displays old).or (nearest displays old) with
    | none => p
    | some (d, from') =>
      let side :=
        if p.1 < d.x then Direction.left
        else if d.x + d.w ≤ p.1 then .right
        else if p.2 < d.y then .top
        else .bottom
      if facesOut displays from' d side (along side (d.clampInto p)) then
        match side with
        | .left => (box.x - (d.x - p.1), p.2)
        | .right => (box.x + box.w - 1 + (p.1 - (d.x + d.w - 1)), p.2)
        | .top => (p.1, box.y - (d.y - p.2))
        | _ => (p.1, box.y + box.h - 1 + (p.2 - (d.y + d.h - 1)))
      else p

def stay (displays : List DisplayRect) (old p : Position) : Position :=
  if displays = [] ∨ (displayAt displays p).isSome then p
  else
    match (displayAt displays old).or (nearest displays p) with
    | none => p
    | some (d, _) => d.clampInto p

def toBoxEdge (displays : List DisplayRect) (box : DisplayRect) (zone : ℤ) (p : Position) : Position :=
  match displayAt displays p with
  | none => p
  | some (d, i) =>
    let x :=
      if box.x < d.x ∧ p.1 < d.x + zone ∧ facesOut displays i d .left p.2 then box.x + (p.1 - d.x)
      else if d.x + d.w < box.x + box.w ∧ d.x + d.w - zone ≤ p.1 ∧ facesOut displays i d .right p.2 then
        box.x + box.w - (d.x + d.w - p.1)
      else p.1
    let y :=
      if box.y < d.y ∧ p.2 < d.y + zone ∧ facesOut displays i d .top p.1 then box.y + (p.2 - d.y)
      else if d.y + d.h < box.y + box.h ∧ d.y + d.h - zone ≤ p.2 ∧ facesOut displays i d .bottom p.1 then
        box.y + box.h - (d.y + d.h - p.2)
      else p.2
    (x, y)

end DisplayGeometry

end InputLeap
