import InputLeap.Server.Screens

/-! Mouse motion on the local screen, which is reported by position, and on other screens, which is
reported by displacement. -/

namespace InputLeap

open InputLeap.Lib

def clampToShape (a : DisplayRect) (zone : ℤ) (p : Position) : Position :=
  (if p.1 < a.x + zone then a.x else if a.x + a.w - zone ≤ p.1 then a.x + a.w - 1 else p.1,
   if p.2 < a.y + zone then a.y else if a.y + a.h - zone ≤ p.2 then a.y + a.h - 1 else p.2)

/-- The edges within `zone` of which the point is, each with the point moved as far beyond it: first
the one to the side, then the one above or below. -/
def touches (a : DisplayRect) (zone : ℤ) (p : Position) : List (Direction × Position) :=
  let horizontal :=
    if p.1 < a.x + zone then [(Direction.left, (p.1 - zone, p.2))]
    else if a.x + a.w - zone ≤ p.1 then [(.right, (p.1 + zone, p.2))]
    else []
  let vertical :=
    if p.2 < a.y + zone then [(Direction.top, (p.1, p.2 - zone))]
    else if a.y + a.h - zone ≤ p.2 then [(.bottom, (p.1, p.2 + zone))]
    else []
  horizontal ++ vertical

def leavesBy (a : DisplayRect) (p : Position) : Option Direction :=
  if p.1 < a.x then some .left
  else if a.x + a.w - 1 < p.1 then some .right
  else if p.2 < a.y then some .top
  else if a.y + a.h - 1 < p.2 then some .bottom
  else none

namespace Server

def switchOrDrag (env : Env) (s : Server) (newScreen : ClientId) (p : Position) : Server :=
  if s.enableDragDrop ∧ env.isDraggingStarted ∧ s.active ≠ newScreen ∧ s.waitDragInfoThread then
    { s with sendDragInfoThread := true }
  else { s.switchScreen env newScreen p with waitDragInfoThread := true }

/-- Try the edges in turn. `pc` is the position on the border of the active screen. -/
def tryTouches (env : Env) (pc : Position) : Server → List (Direction × Position) → Option Server
  | s, [] => some s
  | s, (dir, p) :: rest =>
    match s.mapToNeighbor env s.active dir p with
    | none => none
    | some none => tryTouches env pc { s with switch := (s.isSwitchOkay env none dir p pc).1 } rest
    | some (some (newScreen, p)) =>
      let tested := s.isSwitchOkay env (some newScreen) dir p pc
      if tested.2 then some ({ s with switch := tested.1 }.switchOrDrag env newScreen p)
      else tryTouches env pc { s with switch := tested.1 } rest

def edgePoint (env : Env) (s : Server) (p : Position) : Position :=
  s.toBoxEdge s.active (getJumpZoneSize env s.active) p

def primaryTouches (env : Env) (s : Server) (p : Position) : List (Direction × Position) :=
  touches (s.getShape s.active) (getJumpZoneSize env s.active) (s.edgePoint env p)

def onMouseMovePrimary (env : Env) (s : Server) (p : Position) : Option Server :=
  if s.active ≠ primaryClient then some s
  else
    let s := { s with pointer := ⟨p, (p.1 - s.pointer.pos.1, p.2 - s.pointer.pos.2), s.pointer.delta⟩ }
    let q := s.edgePoint env p
    match s.primaryTouches env p with
    | [] => some { s with switch := s.noSwitch env q }
    | ts => s.tryTouches env (clampToShape (s.getShape s.active) (getJumpZoneSize env s.active) q) ts

/-- The point is off the border on which a switch is waited for. The test for the lower border adds
the zone where the others keep it within. -/
def clearsWait (a : DisplayRect) (zoneSize : ℤ) (p : Position) : Direction → Bool
  | .left => decide (a.x + zoneSize ≤ p.1)
  | .right => decide (p.1 ≤ a.x + a.w - 1 - zoneSize)
  | .top => decide (a.y + zoneSize ≤ p.2)
  | .bottom => decide (p.2 ≤ a.y + a.h - 1 + zoneSize)
  | .noDirection => false

def moveWithin (s : Server) (old d : Position) : Server :=
  let a := s.getShape s.active
  let x := old.1 + d.1
  let y := old.2 + d.2
  let p := (if x < a.x then a.x else if a.x + a.w - 1 < x then a.x + a.w - 1 else x,
    if y < a.y then a.y else if a.y + a.h - 1 < y then a.y + a.h - 1 else y)
  { s with pointer := { s.pointer with pos := s.stayOnDisplays s.active old p } }

def secondaryPoint (s : Server) (d : Position) : Position :=
  s.leaveDisplays s.active s.pointer.pos (s.pointer.pos.1 + d.1, s.pointer.pos.2 + d.2)

def onMouseMoveSecondary (env : Env) (s : Server) (d : Position) : Option Server :=
  if s.active = primaryClient ∨ s.settings.relativeMoves ∧ s.lockedToScreen then some s
  else
    let old := s.pointer.pos
    let p := s.secondaryPoint d
    let s := { s with pointer := ⟨p, d, s.pointer.delta⟩ }
    let a := s.getShape s.active
    match leavesBy a p with
    | none =>
      let s := if s.switch.screen.isSome ∧ clearsWait a env.jumpZoneSize p s.switch.dir then
          { s with switch := s.noSwitch env p }
        else s
      some (s.moveWithin old d)
    | some dir =>
      match s.mapToNeighbor env s.active dir p with
      | none => none
      | some none => some ({ s with switch := (s.isSwitchOkay env none dir p (clampToShape a 0 p)).1 }.moveWithin old d)
      | some (some (newScreen, q)) =>
        let tested := s.isSwitchOkay env (some newScreen) dir q (clampToShape a 0 p)
        let s := { s with switch := tested.1 }
        if tested.2 then some (s.switchScreen env newScreen q) else some (s.moveWithin old d)

end Server

end InputLeap
