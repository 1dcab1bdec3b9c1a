import Mathlib.Data.BitVec

/-! The client's end of a connection: motion messages of the server are compressed while more
input is ready, and what is held back is flushed before anything that depends on it. -/

namespace InputLeap.Client

/-- What the proxy asks of the client. Wire integers arrive as `int16_t` and are widened. -/
inductive ClientCall
  | mouseMove (x y : BitVec 32)
  | mouseRelativeMove (dx dy : BitVec 32)
  | mouseWheel (xDelta yDelta : BitVec 32)
  | mouseDown (id : BitVec 8)
  | mouseUp (id : BitVec 8)
  | enter (x y : BitVec 32) (seqNum : BitVec 32) (mask : BitVec 16)
  | leave
  deriving DecidableEq

inductive Message
  | mouseMove (x y : BitVec 16)
  | mouseRelMove (dx dy : BitVec 16)
  | mouseWheel (xDelta yDelta : BitVec 16)
  | mouseDown (id : BitVec 8)
  | mouseUp (id : BitVec 8)
  | enter (x y : BitVec 16) (seqNum : BitVec 32) (mask : BitVec 16)
  | leave
  | infoAck
  deriving DecidableEq

structure ServerProxy where
  compressMouse : Bool
  compressMouseRelative : Bool
  xMouse : BitVec 32
  yMouse : BitVec 32
  dxMouse : BitVec 32
  dyMouse : BitVec 32
  ignoreMouse : Bool
  seqNum : BitVec 32
  deriving DecidableEq

namespace ServerProxy

def new : ServerProxy where
  compressMouse := false
  compressMouseRelative := false
  xMouse := 0
  yMouse := 0
  dxMouse := 0
  dyMouse := 0
  ignoreMouse := false
  seqNum := 0

def flushCompressedMouse (p : ServerProxy) : ServerProxy × List ClientCall :=
  let absolute := if p.compressMouse then [ClientCall.mouseMove p.xMouse p.yMouse] else []
  let relative := if p.compressMouseRelative then [ClientCall.mouseRelativeMove p.dxMouse p.dyMouse] else []
  ({ p with
      compressMouse := false
      compressMouseRelative := false
      dxMouse := if p.compressMouseRelative then 0 else p.dxMouse
      dyMouse := if p.compressMouseRelative then 0 else p.dyMouse },
    absolute ++ relative)

/-- `ready` is the stream's answer to `isReady()` after the message has been read. -/
def mouseMove (p : ServerProxy) (x y : BitVec 16) (ready : Bool) : ServerProxy × List ClientCall :=
  let compress := p.compressMouse || (!p.ignoreMouse && ready)
  if compress then
    ({ p with
        compressMouse := true
        compressMouseRelative := false
        xMouse := x.signExtend 32
        yMouse := y.signExtend 32
        dxMouse := 0
        dyMouse := 0 }, [])
  else if p.ignoreMouse then (p, [])
  else (p, [.mouseMove (x.signExtend 32) (y.signExtend 32)])

def mouseRelativeMove (p : ServerProxy) (dx dy : BitVec 16) (ready : Bool) :
    ServerProxy × List ClientCall :=
  let compress := p.compressMouseRelative || (!p.ignoreMouse && ready)
  if compress then
    ({ p with
        compressMouseRelative := true
        dxMouse := p.dxMouse + dx.signExtend 32
        dyMouse := p.dyMouse + dy.signExtend 32 }, [])
  else if p.ignoreMouse then (p, [])
  else (p, [.mouseRelativeMove (dx.signExtend 32) (dy.signExtend 32)])

def enter (p : ServerProxy) (x y : BitVec 16) (seqNum : BitVec 32) (mask : BitVec 16) :
    ServerProxy × List ClientCall :=
  ({ p with
      compressMouse := false
      compressMouseRelative := false
      dxMouse := 0
      dyMouse := 0
      seqNum := seqNum }, [.enter (x.signExtend 32) (y.signExtend 32) seqNum mask])

def flushThen (p : ServerProxy) (call : ClientCall) : ServerProxy × List ClientCall :=
  let (q, calls) := p.flushCompressedMouse
  (q, calls ++ [call])

def infoAcknowledgment (p : ServerProxy) : ServerProxy := { p with ignoreMouse := false }

def onInfoChanged (p : ServerProxy) : ServerProxy := { p with ignoreMouse := true }

def parseMessage (p : ServerProxy) (ready : Bool) : Message → ServerProxy × List ClientCall
  | .mouseMove x y => p.mouseMove x y ready
  | .mouseRelMove dx dy => p.mouseRelativeMove dx dy ready
  | .mouseWheel dx dy => p.flushThen (.mouseWheel (dx.signExtend 32) (dy.signExtend 32))
  | .mouseDown id => p.flushThen (.mouseDown id)
  | .mouseUp id => p.flushThen (.mouseUp id)
  | .enter x y seqNum mask => p.enter x y seqNum mask
  | .leave => p.flushThen .leave
  | .infoAck => (p.infoAcknowledgment, [])

/-- The loop of `handle_data`, before its final flush. -/
def handleMessages (p : ServerProxy) : List (Message × Bool) → ServerProxy × List ClientCall
  | [] => (p, [])
  | (m, ready) :: rest =>
    let (q, calls) := p.parseMessage ready m
    let (r, more) := q.handleMessages rest
    (r, calls ++ more)

def handleData (p : ServerProxy) (messages : List (Message × Bool)) :
    ServerProxy × List ClientCall :=
  let (q, calls) := p.handleMessages messages
  let (r, flushed) := q.flushCompressedMouse
  (r, calls ++ flushed)

section Motion

variable {p : ServerProxy} {r : Bool} (hi : p.ignoreMouse = false)
include hi

lemma mouseMove_held (x y : BitVec 16) (h : (p.compressMouse || r) = true) :
    p.mouseMove x y r =
      ({ p with
          compressMouse := true
          compressMouseRelative := false
          xMouse := x.signExtend 32
          yMouse := y.signExtend 32
          dxMouse := 0
          dyMouse := 0 }, []) := by
  simp_all [mouseMove]

lemma mouseMove_forwarded (x y : BitVec 16) (h : (p.compressMouse || r) = false) :
    p.mouseMove x y r = (p, [.mouseMove (x.signExtend 32) (y.signExtend 32)]) := by
  simp_all [mouseMove]

lemma mouseRelativeMove_held (dx dy : BitVec 16) (h : (p.compressMouseRelative || r) = true) :
    p.mouseRelativeMove dx dy r =
      ({ p with
          compressMouseRelative := true
          dxMouse := p.dxMouse + dx.signExtend 32
          dyMouse := p.dyMouse + dy.signExtend 32 }, []) := by
  simp_all [mouseRelativeMove]

lemma mouseRelativeMove_forwarded (dx dy : BitVec 16) (h : (p.compressMouseRelative || r) = false) :
    p.mouseRelativeMove dx dy r =
      (p, [.mouseRelativeMove (dx.signExtend 32) (dy.signExtend 32)]) := by
  simp_all [mouseRelativeMove]

end Motion

structure Settled (p : ServerProxy) : Prop where
  absolute : p.compressMouse = false
  relative : p.compressMouseRelative = false
  dx : p.dxMouse = 0
  dy : p.dyMouse = 0

def Pending (p : ServerProxy) : Prop :=
  p.compressMouseRelative = false → p.dxMouse = 0 ∧ p.dyMouse = 0

lemma new_settled : new.Settled := ⟨rfl, rfl, rfl, rfl⟩

lemma Settled.pending {p : ServerProxy} (h : p.Settled) : p.Pending := fun _ => ⟨h.dx, h.dy⟩

lemma flush_settled {p : ServerProxy} (h : p.Pending) : p.flushCompressedMouse.1.Settled := by
  cases hr : p.compressMouseRelative with
  | false => exact ⟨rfl, rfl, by simp [flushCompressedMouse, hr, (h hr).1],
      by simp [flushCompressedMouse, hr, (h hr).2]⟩
  | true => exact ⟨rfl, rfl, by simp [flushCompressedMouse, hr], by simp [flushCompressedMouse, hr]⟩

lemma parseMessage_pending {p : ServerProxy} (h : p.Pending) (ready : Bool) (m : Message) :
    (p.parseMessage ready m).1.Pending := by
  cases m with
  | mouseMove x y =>
    simp only [parseMessage, mouseMove]
    split_ifs
    · intro _
      exact ⟨rfl, rfl⟩
    · exact h
    · exact h
  | mouseRelMove dx dy =>
    simp only [parseMessage, mouseRelativeMove]
    split_ifs
    · intro hr
      exact by simp at hr
    · exact h
    · exact h
  | enter x y seqNum mask => exact fun _ => ⟨rfl, rfl⟩
  | infoAck => exact h
  | mouseWheel _ _ | mouseDown _ | mouseUp _ | leave => exact (flush_settled h).pending

lemma handleMessages_pending {p : ServerProxy} (h : p.Pending) (messages : List (Message × Bool)) :
    (p.handleMessages messages).1.Pending := by
  induction messages generalizing p with
  | nil => exact h
  | cons m rest ih => exact ih (parseMessage_pending h m.2 m.1)

theorem handleData_settled {p : ServerProxy} (h : p.Settled) (messages : List (Message × Bool)) :
    (p.handleData messages).1.Settled :=
  flush_settled (handleMessages_pending h.pending messages)

inductive Reachable : ServerProxy → Prop
  | new : Reachable new
  | handleData {p} (h : Reachable p) (messages : List (Message × Bool)) :
      Reachable (p.handleData messages).1
  | onInfoChanged {p} (h : Reachable p) : Reachable p.onInfoChanged

lemma Reachable.settled {p : ServerProxy} (h : p.Reachable) : p.Settled := by
  induction h with
  | new => exact new_settled
  | handleData _ messages ih => exact handleData_settled ih messages
  | onInfoChanged _ ih => exact ⟨ih.absolute, ih.relative, ih.dx, ih.dy⟩

end ServerProxy

end InputLeap.Client
