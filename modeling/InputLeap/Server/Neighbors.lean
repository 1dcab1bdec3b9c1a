import InputLeap.Server.State
import Mathlib.Data.Rat.Floor

/-! The search for a neighbor. Links are followed through screens that are not connected, and screens
smaller than the overshoot are skipped. The searches are loops without a bound of their own: a result
of `none` means that `fuel` passes were not enough. -/

namespace InputLeap

open InputLeap.Lib

def truncate (q : ℚ) : ℤ := if 0 ≤ q then ⌊q⌋ else ⌈q⌉

def mapToFraction (rnd : ℚ → ℚ) (shape : DisplayRect) (dir : Direction) (p : Position) : ℚ :=
  match dir with
  | .left | .right => rnd (rnd (rnd (p.2 - shape.y : ℤ) + 1 / 2) / rnd shape.h)
  | .top | .bottom => rnd (rnd (rnd (p.1 - shape.x : ℤ) + 1 / 2) / rnd shape.w)
  | .noDirection => 0

def mapToPixel (rnd : ℚ → ℚ) (shape : DisplayRect) (dir : Direction) (f : ℚ) (p : Position) : Position :=
  match dir with
  | .left | .right => (p.1, truncate (rnd (f * rnd shape.h)) + shape.y)
  | .top | .bottom => (truncate (rnd (f * rnd shape.w)) + shape.x, p.2)
  | .noDirection => p

namespace Registry

/-- The loop of `getNeighbor`. -/
def searchNeighbor (rnd : ℚ → ℚ) (r : Registry) (dir : Direction) :
    ℕ → Name → ℚ → Option (Option (ClientId × ℚ))
  | 0, _, _ => none
  | fuel + 1, srcName, t =>
    let (dstName, tTmp) := r.config.getNeighbor rnd srcName dir t
    if dstName = [] then some none
    else
      match r.clients.find? dstName with
      | some c => some (some (c, tTmp))
      | none => r.searchNeighbor rnd dir fuel dstName tTmp

end Registry

namespace Server

def getNeighbor (env : Env) (s : Server) (src : ClientId) (dir : Direction) (p : Position) :
    Option (Option (ClientId × Position)) :=
  (s.registry.searchNeighbor env.rnd dir env.fuel (s.getName src)
    (mapToFraction env.rnd (s.getShape src) dir p)).map fun found =>
      found.map fun (dst, f) => (dst, mapToPixel env.rnd (s.getShape dst) dir f p)

def onNext (srcSide : Direction) (prev shape : DisplayRect) (p : Position) : Position :=
  match srcSide with
  | .left => (p.1 + shape.w, p.2)
  | .right => (p.1 - prev.w, p.2)
  | .top => (p.1, p.2 + shape.h)
  | .bottom => (p.1, p.2 - prev.h)
  | .noDirection => p

def reached (srcSide : Direction) (shape : DisplayRect) (p : Position) : Bool :=
  match srcSide with
  | .left => decide (0 ≤ p.1)
  | .right => decide (p.1 < shape.w)
  | .top => decide (0 ≤ p.2)
  | .bottom => decide (p.2 < shape.h)
  | .noDirection => true

/-- The loop of `mapToNeighbor`, from a screen of shape `prev` to `dst`, in a space in which each
screen's corner is the origin. -/
def skipScreens (env : Env) (s : Server) (srcSide : Direction) :
    ℕ → DisplayRect → ClientId → Position → Option (ClientId × Position)
  | 0, _, _, _ => none
  | fuel + 1, prev, dst, p =>
    let shape := s.getShape dst
    let p := onNext srcSide prev shape p
    if reached srcSide shape p then some (dst, p)
    else
      match getNeighbor env s dst srcSide p with
      | none => none
      | some none => some (dst, p)
      | some (some (next, p)) => skipScreens env s srcSide fuel shape next p

def avoidJumpZone (env : Env) (s : Server) (dst : ClientId) (dir : Direction) (p : Position) : Position :=
  if dst ≠ primaryClient then p
  else
    let d := s.getShape dst
    let t := mapToFraction env.rnd d dir p
    let z := getJumpZoneSize env dst
    let linked (side : Direction) : Bool := (s.registry.config.getNeighbor env.rnd (s.getName dst) side t).1 ≠ []
    match dir with
    | .left => if linked .right ∧ d.x + d.w - 1 - z < p.1 then (d.x + d.w - 1 - z, p.2) else p
    | .right => if linked .left ∧ p.1 < d.x + z then (d.x + z, p.2) else p
    | .top => if linked .bottom ∧ d.y + d.h - 1 - z < p.2 then (p.1, d.y + d.h - 1 - z) else p
    | .bottom => if linked .top ∧ p.2 < d.y + z then (p.1, d.y + z) else p
    | .noDirection => p

def mapToNeighbor (env : Env) (s : Server) (src : ClientId) (srcSide : Direction) (p : Position) :
    Option (Option (ClientId × Position)) :=
  match getNeighbor env s src srcSide p with
  | none => none
  | some none => some none
  | some (some (dst, p)) =>
    let d := s.getShape src
    let p := if DisplayGeometry.upright srcSide then (p.1 - d.x, p.2) else (p.1, p.2 - d.y)
    (skipScreens env s srcSide env.fuel d dst p).map fun (dst, p) =>
      let d := s.getShape dst
      let p := if DisplayGeometry.upright srcSide then (p.1 + d.x, p.2) else (p.1, p.2 + d.y)
      some (dst, s.enterDisplays dst srcSide (s.avoidJumpZone env dst srcSide p))

end Server

end InputLeap
