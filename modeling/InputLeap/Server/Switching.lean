import InputLeap.Server.Neighbors

/-! Whether and how the cursor changes screens. -/

namespace InputLeap

open InputLeap.Lib InputLeap.Protocol

namespace SwitchState

def stopSwitchWait (w : SwitchState) : SwitchState := { w with waitTimer := false }

def stopSwitchTwoTap (w : SwitchState) : SwitchState :=
  { w with twoTapEngaged := false, twoTapArmed := false }

def stopSwitch (w : SwitchState) : SwitchState :=
  if w.screen.isSome then
    { w.stopSwitchTwoTap.stopSwitchWait with screen := none, dir := .noDirection }
  else w

def startSwitchTwoTap (w : SwitchState) : SwitchState :=
  { w with twoTapEngaged := true, twoTapArmed := false }

/-- `screen` is the neighbor that `p` was computed for. -/
def startSwitchWait (w : SwitchState) (screen : ClientId) (p : Position) : SwitchState :=
  { w.stopSwitchWait with waitTimer := true, waitPos := p, waitScreen := some screen }

def aimAt (w : SwitchState) (dir : Direction) (screen : ClientId) : SwitchState :=
  if dir ≠ w.dir ∨ w.screen = none then { w with dir := dir, screen := some screen } else w

end SwitchState

def kTopLeftMask : BitVec 32 := 1
def kTopRightMask : BitVec 32 := 2
def kBottomLeftMask : BitVec 32 := 4
def kBottomRightMask : BitVec 32 := 8

def getCorner (shape : DisplayRect) (p : Position) (size : ℤ) : BitVec 32 :=
  let xSide : ℤ := if p.1 ≤ shape.x then -1 else if shape.x + shape.w - 1 ≤ p.1 then 1 else 0
  let ySide : ℤ := if p.2 ≤ shape.y then -1 else if shape.y + shape.h - 1 ≤ p.2 then 1 else 0
  if xSide ≠ 0 ∧ p.2 < shape.y + size then if xSide < 0 then kTopLeftMask else kTopRightMask
  else if xSide ≠ 0 ∧ shape.y + shape.h - size ≤ p.2 then
    if xSide < 0 then kBottomLeftMask else kBottomRightMask
  else if ySide ≠ 0 ∧ p.1 < shape.x + size then if ySide < 0 then kTopLeftMask else kBottomLeftMask
  else if ySide ≠ 0 ∧ shape.x + shape.w - size ≤ p.1 then
    if ySide < 0 then kTopRightMask else kBottomRightMask
  else 0

namespace Server

def switchTwoTapZone : ℤ := 3

def armSwitchTwoTap (env : Env) (s : Server) (p : Position) : SwitchState :=
  let w := s.switch
  if w.twoTapEngaged then
    if s.settings.switchTwoTapDelay < env.twoTapTime then w.stopSwitchTwoTap
    else if !w.twoTapArmed then
      let a := s.getShape s.active
      let tapZone := max env.jumpZoneSize switchTwoTapZone
      if a.x + tapZone ≤ p.1 ∧ p.1 < a.x + a.w - tapZone ∧ a.y + tapZone ≤ p.2 ∧
          p.2 < a.y + a.h - tapZone then
        let d := s.pointer.delta
        let d2 := s.pointer.delta2
        let armed :=
          match w.dir with
          | .left => decide (0 < d.1 ∧ 0 < d2.1)
          | .right => decide (d.1 < 0 ∧ d2.1 < 0)
          | .top => decide (0 < d.2 ∧ 0 < d2.2)
          | .bottom => decide (d.2 < 0 ∧ d2.2 < 0)
          | .noDirection => w.twoTapArmed
        { w with twoTapArmed := armed }
      else w
    else w
  else w

def noSwitch (env : Env) (s : Server) (p : Position) : SwitchState := (armSwitchTwoTap env s p).stopSwitchWait

def secondTap (env : Env) (s : Server) (dir : Direction) : Bool :=
  decide (0 < s.settings.switchTwoTapDelay) && decide (dir = s.switch.dir) && s.switch.twoTapEngaged &&
    (s.switch.twoTapArmed && decide (env.twoTapTime ≤ s.settings.switchTwoTapDelay))

def lockedCorner (s : Server) (p : Position) : Bool :=
  let own := s.registry.config.getOptions (s.getName s.active)
  let options := if own.any fun o => o.contains kOptionScreenSwitchCorners then own
    else s.registry.config.getOptions []
  match options with
  | none => false
  | some o =>
    match o.find? kOptionScreenSwitchCorners with
    | none => false
    | some corners =>
      let size := ((o.find? kOptionScreenSwitchCornerSize).map BitVec.toInt).getD 0
      getCorner (s.getShape s.active) p size &&& corners ≠ 0

def lacksModifiers (env : Env) (s : Server) : Bool :=
  let mods := env.toggleMask
  s.settings.switchNeedsShift && mods &&& keyModifierShift ≠ keyModifierShift ||
    s.settings.switchNeedsControl && mods &&& keyModifierControl ≠ keyModifierControl ||
    s.settings.switchNeedsAlt && mods &&& keyModifierAlt ≠ keyModifierAlt

def prepareSwitch (env : Env) (s : Server) (screen : ClientId) (dir : Direction) (p : Position) :
    SwitchState × Bool :=
  let allowSwitch := s.secondTap env dir
  let twoTap := decide (0 < s.settings.switchTwoTapDelay) && !allowSwitch
  let wait := !allowSwitch && decide (0 < s.settings.switchWaitDelay)
  let w := s.switch.aimAt dir screen
  let w := if twoTap then w.startSwitchTwoTap else w
  let w := if wait && (decide (dir ≠ s.switch.dir) || !w.waitTimer) then w.startSwitchWait screen p else w
  (w, twoTap || wait)

/-- The new state of the tests, and whether to switch now. `p` is the position on the new screen and
`pActive` that on the border of the active screen. -/
def isSwitchOkay (env : Env) (s : Server) (newScreen : Option ClientId) (dir : Direction)
    (p pActive : Position) : SwitchState × Bool :=
  match newScreen with
  | none => (s.switch.stopSwitch, false)
  | some screen =>
    let prepared := s.prepareSwitch env screen dir p
    if s.lockedCorner pActive then (prepared.1.stopSwitch, false)
    else if prepared.2 then (prepared.1, false)
    else if s.isLockedToScreen env || s.lacksModifiers env then (prepared.1.stopSwitch, false)
    else (prepared.1, true)

end Server

end InputLeap
