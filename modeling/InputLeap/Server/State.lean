import InputLeap.Protocol.Clipboard
import InputLeap.Server.Config
import Mathlib.Data.Finset.Basic
import Mathlib.Data.Fintype.Defs

/-! The state of a server: the clients it is connected to, the screen with the cursor, what it knows
of a switch to come and the clipboards. Clients are named by number and `primaryClient` is the
local screen. -/

namespace InputLeap

open InputLeap.Lib InputLeap.Protocol

abbrev ClientId := ℕ

def primaryClient : ClientId := 0

inductive ClipboardID
  | clipboard
  | selection
  deriving DecidableEq

def clipboardIDs : List ClipboardID := [.clipboard, .selection]

instance : Fintype ClipboardID := ⟨clipboardIDs.toFinset, fun id => by cases id <;> decide⟩

structure Registry where
  config : Config
  /-- `BaseClientProxy::m_name`. -/
  names : ClientId → Name
  clients : OrdMap (id : Name → Name) ClientId
  clientSet : Finset ClientId
  oldClients : Finset ClientId

def Registry.getName (r : Registry) (c : ClientId) : Name :=
  if r.config.getCanonicalName (r.names c) = [] then r.names c
  else r.config.getCanonicalName (r.names c)

structure Proxy where
  shape : DisplayRect
  cursor : Position
  jump : Position
  dirty : ClipboardID → Bool
  clipboard : ClipboardID → Clipboard
  /-- Ghost: the content that the screen was last given. -/
  lastSet : ClipboardID → Option Clipboard
  /-- Ghost: the grabs that the screen has announced. -/
  grabs : List (ClipboardID × ℕ)
  lastDimSent : Option Bool
  lastLockSent : Option Bool

def Proxy.new (shape : DisplayRect) (cursor : Position) : Proxy where
  shape := shape
  cursor := cursor
  jump := (0, 0)
  dirty := fun _ => true
  clipboard := fun _ => .clear
  lastSet := fun _ => none
  grabs := []
  lastDimSent := none
  lastLockSent := none

structure Pointer where
  pos : Position
  delta : Position
  delta2 : Position

structure SwitchState where
  dir : Direction
  screen : Option ClientId
  waitTimer : Bool
  waitPos : Position
  /-- Ghost: the neighbor that `waitPos` was computed for. -/
  waitScreen : Option ClientId
  twoTapEngaged : Bool
  twoTapArmed : Bool

/-- What the options of the configuration set. Delays are in milliseconds. -/
structure Settings where
  switchWaitDelay : ℕ
  switchTwoTapDelay : ℕ
  switchNeedsShift : Bool
  switchNeedsControl : Bool
  switchNeedsAlt : Bool
  relativeMoves : Bool
  enableClipboard : Bool
  maximumClipboardSize : ℕ
  deriving DecidableEq

structure ClipboardInfo where
  clipboard : Clipboard
  data : List UInt8
  owner : Name
  seqNum : ℕ

structure Faults where
  staleSwitch : Bool
  /-- The assertion in `onClipboardChanged`. -/
  clipboardOwner : Bool
  deriving DecidableEq

structure Server where
  registry : Registry
  proxies : ClientId → Proxy
  active : ClientId
  seqNum : ℕ
  pointer : Pointer
  clipboards : ClipboardID → ClipboardInfo
  activeSaver : Option ClientId
  saverPos : Position
  switch : SwitchState
  settings : Settings
  lockedToScreen : Bool
  enableDragDrop : Bool
  sendDragInfoThread : Bool
  waitDragInfoThread : Bool
  faults : Faults

structure Env where
  rnd : ℚ → ℚ
  /-- A bound on the passes of each search for a neighbor. -/
  fuel : ℕ
  jumpZoneSize : ℤ
  isLockedToScreen : Bool
  toggleMask : BitVec 32
  leave : Bool
  cursorCenter : Position
  twoTapTime : ℕ
  isDraggingStarted : Bool
  getClipboard : ClipboardID → Option Clipboard

def keyModifierShift : BitVec 32 := 1
def keyModifierControl : BitVec 32 := 2
def keyModifierAlt : BitVec 32 := 4
def keyModifierScrollLock : BitVec 32 := 0x4000

namespace Server

def getName (s : Server) (c : ClientId) : Name := s.registry.getName c

def getShape (s : Server) (c : ClientId) : DisplayRect := (s.proxies c).shape

def modifyProxy (s : Server) (c : ClientId) (f : Proxy → Proxy) : Server :=
  { s with proxies := Function.update s.proxies c (f (s.proxies c)) }

def displaysOf (s : Server) (c : ClientId) : List DisplayRect :=
  let box := s.getShape c
  match s.registry.config.displaysOf (s.getName c) with
  | none => []
  | some given =>
    match given with
    | [] => []
    | [_] => []
    | front :: _ =>
      let left := given.foldl (fun n d => min n d.x) front.x
      let top := given.foldl (fun n d => min n d.y) front.y
      let right := given.foldl (fun n d => max n (d.x + d.w)) 0
      let bottom := given.foldl (fun n d => max n (d.y + d.h)) 0
      if left = 0 ∧ top = 0 ∧ right = box.w ∧ bottom = box.h then
        given.map fun d => { d with x := d.x + box.x, y := d.y + box.y }
      else []

def enterDisplays (s : Server) (dst : ClientId) (dir : Direction) (p : Position) : Position :=
  DisplayGeometry.enter (s.displaysOf dst) (s.getShape dst) dir p

def leaveDisplays (s : Server) (c : ClientId) (old p : Position) : Position :=
  DisplayGeometry.leave (s.displaysOf c) (s.getShape c) old p

def stayOnDisplays (s : Server) (c : ClientId) (old p : Position) : Position :=
  DisplayGeometry.stay (s.displaysOf c) old p

def toBoxEdge (s : Server) (c : ClientId) (zone : ℤ) (p : Position) : Position :=
  DisplayGeometry.toBoxEdge (s.displaysOf c) (s.getShape c) zone p

def getJumpZoneSize (env : Env) (c : ClientId) : ℤ := if c = primaryClient then env.jumpZoneSize else 0

def isLockedToScreen (env : Env) (s : Server) : Bool := s.lockedToScreen || env.isLockedToScreen

end Server

end InputLeap
