import InputLeap.Lib.Binary32
import InputLeap.Lib.Reachable
import InputLeap.Server.Clients

/-! The events that a server handles, one after the other. -/

namespace InputLeap

open InputLeap.Lib InputLeap.Protocol

inductive LockState
  | off
  | on
  | toggle

def LockState.choose (old : Bool) : LockState → Bool
  | off => false
  | on => true
  | toggle => !old

inductive Event
  | adopt (c : ClientId) (name : Name) (shape : DisplayRect) (cursor : Position)
  | disconnected (c : ClientId)
  | closeTimeout (c : ClientId)
  | info (c : ClientId) (shape : DisplayRect) (cursor : Position)
  | shapeChanged (c : ClientId)
  | motionPrimary (p : Position)
  | motionSecondary (d : Position)
  | buttonDown
  | dragInfoSent
  | screensaver (activated : Bool)
  | switchWait
  | switchToScreen (name : Name)
  | toggleScreen
  | switchInDirection (dir : Direction)
  | lockCursorToScreen (state : LockState)
  | recvClipboard (c : ClientId) (id : ClipboardID) (data : List UInt8)
  | clipboardGrabbed (c : ClientId) (id : ClipboardID) (seqNum : ℕ)
  | clipboardChanged (c : ClientId) (id : ClipboardID) (seqNum : ℕ)
  | reload (config : Config)

/-- An `int` that is stored in a `std::int16_t`. -/
def storeInt16 (n : ℤ) : ℤ := n.bmod (2 ^ 16)

namespace Proxy

def recvInfo (p : Proxy) (shape : DisplayRect) (cursor : Position) : Proxy :=
  if shape.w ≤ 0 ∨ shape.h ≤ 0 then p
  else { p with
    shape := shape
    cursor := if shape.contains cursor then cursor
      else (storeInt16 (shape.x + shape.w / 2), storeInt16 (shape.y + shape.h / 2)) }

def recvClipboard (p : Proxy) (id : ClipboardID) (data : List UInt8) : Proxy :=
  { p with clipboard := Function.update p.clipboard id (Clipboard.unmarshall data) }

end Proxy

namespace Server

def accept (s : Server) (c : ClientId) (name : Name) (shape : DisplayRect) (cursor : Position) : Server :=
  { s with
    registry := { s.registry with names := Function.update s.registry.names c name }
    proxies := Function.update s.proxies c (Proxy.new shape cursor) }

def handleInfo (s : Server) (c : ClientId) (shape : DisplayRect) (cursor : Position) : Server :=
  s.modifyProxy c fun p =>
    if c = primaryClient then { p with shape := shape, cursor := cursor } else p.recvInfo shape cursor

def takeCursor (s : Server) (c : ClientId) : Server :=
  let p := (s.proxies c).cursor
  let s := s.modifyProxy c fun proxy => { proxy with jump := p }
  if c = s.active then { s with pointer := { s.pointer with pos := p } } else s

def handleShapeChanged (env : Env) (s : Server) (c : ClientId) : Option Server :=
  if c ∉ s.registry.clientSet then some s
  else
    let s := s.takeCursor c
    if c ≠ primaryClient then some s
    else if c = s.active then s.onMouseMovePrimary env s.pointer.pos
    else s.onMouseMoveSecondary env (0, 0)

def handleSwitchWait (env : Env) (s : Server) : Server :=
  if s.isLockedToScreen env then { s with switch := s.switch.stopSwitch }
  else
    match s.switch.screen with
    | none => s
    | some screen => s.switchScreen env screen s.switch.waitPos

def handleSwitchToScreen (env : Env) (s : Server) (name : Name) : Server :=
  match s.registry.clients.find? name with
  | none => s
  | some c => s.jumpToScreen env c

def handleToggleScreen (env : Env) (s : Server) : Server :=
  let current := s.getName s.active
  match s.registry.clients.find? current with
  | none => s
  | some _ =>
    match (s.registry.clients.firstGt? current).or s.registry.clients.entries.head? with
    | none => s
    | some (_, c) => s.jumpToScreen env c

def handleSwitchInDirection (env : Env) (s : Server) (dir : Direction) : Option Server :=
  (s.getNeighbor env s.active dir s.pointer.pos).map fun found =>
    match found with
    | none => s
    | some (newScreen, _) => s.jumpToScreen env newScreen

def handleLockCursorToScreen (s : Server) (state : LockState) : Server :=
  let newState := state.choose s.lockedToScreen
  if newState = s.lockedToScreen then s
  else
    let s := { s with lockedToScreen := newState }.lockStateChanged newState
    if newState then s else s.stopRelativeMoves

def handleClipboardGrabbed (s : Server) (grabber : ClientId) (id : ClipboardID) (seqNum : ℕ) : Server :=
  if !s.settings.enableClipboard ∨ s.settings.maximumClipboardSize = 0 ∨ grabber ∉ s.registry.clientSet then s
  else
    let s := s.modifyProxy grabber fun p => { p with grabs := (id, seqNum) :: p.grabs }
    if grabber ≠ primaryClient ∧ seqNum < (s.clipboards id).seqNum then s
    else
      let s := s.modifyClipboard id fun _ =>
        ⟨.clear, Clipboard.clear.marshall, s.getName grabber, seqNum⟩
      s.forClients fun c p => if c = grabber then p.setClipboardDirty id false else p.grabClipboard id

def handleClipboardChanged (env : Env) (s : Server) (c : ClientId) (id : ClipboardID) (seqNum : ℕ) : Server :=
  if c ∉ s.registry.clientSet then s else s.onClipboardChanged env c id seqNum

/-- The result is `none` if a search for a neighbor does not end. -/
def handle (env : Env) (s : Server) : Event → Option Server
  | .adopt c name shape cursor => some ((s.accept c name shape cursor).adoptClient env c)
  | .disconnected c => some ((s.removeActiveClient env c).removeOldClient c)
  | .closeTimeout c => some (s.removeOldClient c)
  | .info c shape cursor => some (s.handleInfo c shape cursor)
  | .shapeChanged c => s.handleShapeChanged env c
  | .motionPrimary p => s.onMouseMovePrimary env p
  | .motionSecondary d => s.onMouseMoveSecondary env d
  | .buttonDown => some { s with waitDragInfoThread := true }
  | .dragInfoSent => some { s with waitDragInfoThread := false, sendDragInfoThread := false }
  | .screensaver activated => some (s.onScreensaver env activated)
  | .switchWait => some (s.handleSwitchWait env)
  | .switchToScreen name => some (s.handleSwitchToScreen env name)
  | .toggleScreen => some (s.handleToggleScreen env)
  | .switchInDirection dir => s.handleSwitchInDirection env dir
  | .lockCursorToScreen state => some (s.handleLockCursorToScreen state)
  | .recvClipboard c id data => some (s.modifyProxy c fun p => p.recvClipboard id data)
  | .clipboardGrabbed c id seqNum => some (s.handleClipboardGrabbed c id seqNum)
  | .clipboardChanged c id seqNum => some (s.handleClipboardChanged env c id seqNum)
  | .reload config => some (s.reloadConfig env config)

def hasProxy (s : Server) (c : ClientId) : Bool :=
  decide (c ∈ s.registry.clientSet ∨ c ∈ s.registry.oldClients)

/-- When an event can occur. Proxies of clients are made when they connect and deleted when they are
gone, only they send clipboard data, and a timer has to run to expire. -/
def enabled (s : Server) : Event → Bool
  | .adopt c _ _ _ => decide (c ≠ primaryClient) && !s.hasProxy c
  | .disconnected c => decide (c ≠ primaryClient) && s.hasProxy c
  | .closeTimeout c => decide (c ∈ s.registry.oldClients)
  | .info c _ _ => s.hasProxy c
  | .dragInfoSent => s.sendDragInfoThread
  | .switchWait => s.switch.waitTimer
  | .recvClipboard c _ _ => decide (c ≠ primaryClient) && s.hasProxy c
  | .clipboardChanged c _ _ => decide (c ≠ primaryClient)
  | _ => true

def next (s : Server) (e : Env × Event) : Option Server := if s.enabled e.2 then s.handle e.1 e.2 else none

def Initial (s : Server) : Prop :=
  ∃ env config name shape cursor pos enableDragDrop,
    config.isScreen name = true ∧ s = new env config name shape cursor pos enableDragDrop

end Server

def Env.plain : Env where
  rnd := Binary32.round
  fuel := 8
  jumpZoneSize := 1
  isLockedToScreen := false
  toggleMask := 0
  leave := true
  cursorCenter := (0, 0)
  twoTapTime := 0
  isDraggingStarted := false
  getClipboard := fun _ => some .clear

def Server.plain (config : Config) : Server :=
  new .plain config ['p'] ⟨0, 0, 1920, 1080⟩ (0, 0) (0, 0) false

lemma Server.plain_initial (config : Config) (h : config.isScreen ['p'] = true) : Initial (plain config) :=
  ⟨_, _, _, _, _, _, _, h, rfl⟩

def Event.isReload : Event → Bool
  | reload _ => true
  | _ => false

end InputLeap
