import InputLeap.Client.Client
import InputLeap.Client.ClipboardOptions
import InputLeap.Client.ModifierTranslation
import InputLeap.Client.ServerProxy
import InputLeap.Protocol.FileAssembly
import InputLeap.Protocol.ServerMessages
import InputLeap.Protocol.Told

/-! The proxy of the server at a client, message by message. What it keeps of its client is what the functions for
messages read of it. -/

namespace InputLeap.Client

open Protocol Protocol.ProtocolUtil

/-- What the proxy asks of its client, of its timer and of the server. -/
inductive Effect
  | call (c : ClientCall)
  | keyDown (id : Keys.KeyID) (mask : Keys.KeyModifierMask) (button : BitVec 16)
  | keyRepeat (id : Keys.KeyID) (mask : Keys.KeyModifierMask) (count button : BitVec 16)
  | keyUp (id : Keys.KeyID) (mask : Keys.KeyModifierMask) (button : BitVec 16)
  | screensaver (activate : Bool)
  | setClipboard (id : UInt8) (data : List UInt8)
  | grabClipboard (id : UInt8)
  | setOptions (options : List ℕ)
  | resetOptions
  | handshakeComplete
  /-- The event, with what the client holds of the file then. -/
  | fileReceiveCompleted (data : List UInt8)
  | dragInfoReceived (fileNum : ℕ) (data : List UInt8)
  | dimScreen (dim : Bool)
  | cursorLocked (locked : Bool)
  | disconnect (msg : Option String)
  /-- The timer is started anew, or there is none any more. -/
  | keepAliveAlarm (alarm : Option Seconds)
  /-- The shape of the screen and the position of the cursor. -/
  | sendInfo
  | sendKeepAlive
  | sendNoop
  | sendBad
  deriving DecidableEq

structure Session where
  /-- `m_parser` is `parseHandshakeMessage`. -/
  handshake : Bool
  motion : ServerProxy
  table : ModifierTable
  keepAliveAlarm : Seconds
  clipboard : Assembly
  file : FileAssembly
  settings : ClipboardSettings

namespace Session

def new (file : FileAssembly) (settings : ClipboardSettings) : Session where
  handshake := true
  motion := .new
  table := .initial
  keepAliveAlarm := kKeepAliveRate * kKeepAlivesUntilDeath
  clipboard := .idle
  file := file
  settings := settings

def does (s : Session) (effects : List Effect) : Reaction Session Effect := ⟨s, effects, .goOn⟩

def leaves (s : Session) (effects : List Effect) : Reaction Session Effect := ⟨s, effects, .leave⟩

/-- A variable is used that `readf` has not stored to. -/
def uses (s : Session) : Reaction Session Effect := ⟨s, [], .undefined⟩

def moves (s : Session) (r : ServerProxy × List ClientCall) : Reaction Session Effect :=
  ⟨{ s with motion := r.1 }, r.2.map .call, .goOn⟩

def flushCompressedMouse (s : Session) : Session × List Effect :=
  ({ s with motion := s.motion.flushCompressedMouse.1 }, s.motion.flushCompressedMouse.2.map .call)

def nothing (s : Session) : Session × List Effect := (s, [])

section KeepAlive

def alarm (seconds : Seconds) : Effect := .keepAliveAlarm (if 0 < seconds then some seconds else none)

def resetKeepAliveAlarm (s : Session) : Effect := alarm s.keepAliveAlarm

def setKeepAliveRate (s : Session) (rate : Seconds) : Session :=
  { s with keepAliveAlarm := rate * kKeepAlivesUntilDeath }

def heartbeats : List ℕ → List Seconds
  | id :: value :: options => if id = kOptionHeartbeat then (value / 1000) :: heartbeats options else heartbeats options
  | _ => []

def setHeartbeats (s : Session) (options : List ℕ) : Session × List Effect :=
  ((heartbeats options).foldl setKeepAliveRate s, (heartbeats options).map fun rate => alarm (rate * kKeepAlivesUntilDeath))

end KeepAlive

section Messages

def mouseMove (s : Session) (v : Values) : Reaction Session Effect :=
  match v.stored with
  | [.int x, .int y] => s.moves (s.motion.mouseMove (.ofNat 16 x) (.ofNat 16 y) v.ready)
  | _ => s.uses

def mouseRelativeMove (s : Session) (v : Values) : Reaction Session Effect :=
  match v.stored with
  | [.int dx, .int dy] => s.moves (s.motion.mouseRelativeMove (.ofNat 16 dx) (.ofNat 16 dy) v.ready)
  | _ => s.uses

def mouseWheel (s : Session) (v : Values) : Reaction Session Effect :=
  match v.stored with
  | [.int xDelta, .int yDelta] =>
    s.does [.call (.mouseWheel ((BitVec.ofNat 16 xDelta).signExtend 32) ((BitVec.ofNat 16 yDelta).signExtend 32))]
  | _ => s.uses

def mouseDown (s : Session) (v : Values) : Reaction Session Effect :=
  match v.stored with
  | [.int id] => s.does [.call (.mouseDown (.ofNat 8 id))]
  | _ => s.uses

def mouseUp (s : Session) (v : Values) : Reaction Session Effect :=
  match v.stored with
  | [.int id] => s.does [.call (.mouseUp (.ofNat 8 id))]
  | _ => s.uses

def keyDown (s : Session) (v : Values) : Reaction Session Effect :=
  match v.stored with
  | [.int id, .int mask, .int button] =>
    s.does [.keyDown (s.table.translateKey id.toUInt32) (s.table.translateModifierMask (.ofNat 32 mask)) (.ofNat 16 button)]
  | _ => s.uses

def keyRepeat (s : Session) (v : Values) : Reaction Session Effect :=
  match v.stored with
  | [.int id, .int mask, .int count, .int button] =>
    s.does [.keyRepeat (s.table.translateKey id.toUInt32) (s.table.translateModifierMask (.ofNat 32 mask))
      (.ofNat 16 count) (.ofNat 16 button)]
  | _ => s.uses

def keyUp (s : Session) (v : Values) : Reaction Session Effect :=
  match v.stored with
  | [.int id, .int mask, .int button] =>
    s.does [.keyUp (s.table.translateKey id.toUInt32) (s.table.translateModifierMask (.ofNat 32 mask)) (.ofNat 16 button)]
  | _ => s.uses

def enter (s : Session) (v : Values) : Reaction Session Effect :=
  match v.stored with
  | [.int x, .int y, .int seqNum, .int mask] =>
    s.moves (s.motion.enter (.ofNat 16 x) (.ofNat 16 y) (.ofNat 32 seqNum) (.ofNat 16 mask))
  | _ => s.uses

def leave (s : Session) : Reaction Session Effect := s.does [.call .leave]

def screensaver (s : Session) (v : Values) : Reaction Session Effect :=
  match v.stored with
  | [.int on] => s.does [.screensaver (decide (on ≠ 0))]
  | _ => s.uses

def grabClipboard (s : Session) (v : Values) : Reaction Session Effect :=
  match v.stored with
  | [.int id, .int _] => if kClipboardEnd ≤ id then s.does [] else s.does [.grabClipboard id.toUInt8]
  | _ => s.uses

def takeChunk (uninit : UInt64) (s : Session) (chunk : ClipboardChunk) : Reaction Session Effect :=
  let (a, received) := ClipboardChunk.accept s.settings.maximumClipboardSize uninit s.clipboard chunk
  if received = .finish then
    { s with clipboard := { a with dataCached := [] } }.does [.setClipboard chunk.id a.dataCached]
  else { s with clipboard := a }.does []

def setClipboard (uninit : UInt64) (s : Session) (v : Values) : Reaction Session Effect :=
  if v.ok then
    match ClipboardChunk.ofStored v.stored with
    | some chunk => s.takeChunk uninit chunk
    | none => s.uses
  else { s with clipboard := .idle }.does []

def takeFileChunk (uninit : UInt64) (s : Session) (chunk : FileChunk) : Reaction Session Effect :=
  let (a, received) := FileChunk.assemble uninit s.file chunk
  { s with file := a }.does (if received = DataReceived.finish then [.fileReceiveCompleted a.received] else [])

def fileChunkReceived (uninit : UInt64) (s : Session) (v : Values) : Reaction Session Effect :=
  if v.ok then
    match FileChunk.ofStored v.stored with
    | some chunk => s.takeFileChunk uninit chunk
    | none => s.uses
  else s.does []

def dragInfoReceived (s : Session) (v : Values) : Reaction Session Effect :=
  match v.stored with
  | [.int fileNum, .string content] => s.does [.dragInfoReceived fileNum content]
  | [.int fileNum] => s.does [.dragInfoReceived fileNum []]
  | _ => s.does [.dragInfoReceived 0 []]

def resetOptions (s : Session) : Reaction Session Effect :=
  let s := s.setKeepAliveRate kKeepAliveRate
  { s with table := .initial }.does [.resetOptions, s.resetKeepAliveAlarm]

def applyOptions (s : Session) (options : List ℕ) : Reaction Session Effect :=
  if options.length % 2 ≠ 0 then s.does []
  else
    match s.settings.setOptions options with
    | none => s.uses
    | some settings =>
      let (s, effects) := { s with settings := settings }.setHeartbeats options
      { s with table := s.table.setOptions options }.does (.setOptions options :: effects)

def entry? : Stored → Option ℕ
  | .entry value => some value
  | _ => none

def setOptions (s : Session) (v : Values) : Reaction Session Effect := s.applyOptions (v.stored.filterMap entry?)

def queryInfo (s : Session) : Reaction Session Effect := s.does [.sendInfo]

def infoAcknowledgment (s : Session) : Reaction Session Effect :=
  { s with motion := s.motion.infoAcknowledgment }.does []

def keepAlive (s : Session) : Reaction Session Effect := s.does [.sendKeepAlive, s.resetKeepAliveAlarm]

def dimScreen (s : Session) (v : Values) : Reaction Session Effect :=
  match v.stored with
  | [.int dim] => s.does [.dimScreen (decide (dim ≠ 0))]
  | _ => s.uses

def recvLockState (s : Session) (v : Values) : Reaction Session Effect :=
  match v.stored with
  | [.int locked] => s.does [.cursorLocked (decide (locked ≠ 0))]
  | _ => s.uses

def disconnect (s : Session) (msg : Option String) : Reaction Session Effect := s.leaves [.disconnect msg]

/-- `kUnknown` is returned. -/
def unknown (s : Session) : Reaction Session Effect := s.disconnect (some "invalid message from server")

end Messages

section Parser

def handshakeCodes : List MessageCode :=
  [.qInfo, .cInfoAck, .dSetOptions, .cResetOptions, .cKeepAlive, .cNoop, .cClose, .eIncompatible, .eBusy, .eUnknown, .eBad]

def messageCodes : List MessageCode :=
  [.cDimScreen, .cLockState, .dMouseMove, .dMouseRelMove, .dMouseWheel, .dKeyDown, .dKeyUp, .dMouseDown, .dMouseUp,
    .dKeyRepeat, .cKeepAlive, .cNoop, .cEnter, .cLeave, .cClipboard, .cScreenSaver, .qInfo, .cInfoAck, .dClipboard,
    .cResetOptions, .dSetOptions, .dFileTransfer, .dDragInfo, .cClose, .eBad]

def completing (a : Reaction Session Effect) : Reaction Session Effect :=
  if a.next = .goOn then { a with state := { a.state with handshake := false }, effects := a.effects ++ [.handshakeComplete] }
  else a

def parseHandshakeMessage (code : List UInt8) : Handler Session Effect :=
  match MessageCode.compared handshakeCodes code with
  | some .qInfo => .plain queryInfo
  | some .cInfoAck => .plain infoAcknowledgment
  | some .dSetOptions => .reads nothing MessageCode.dSetOptions.body fun s v => completing (s.setOptions v)
  | some .cResetOptions => .plain resetOptions
  | some .cKeepAlive => .plain keepAlive
  | some .cNoop => .plain fun s => s.does []
  | some .cClose => .plain fun s => s.disconnect none
  | some .eIncompatible => .reads nothing MessageCode.eIncompatible.body fun s _ =>
      s.disconnect (some "server has incompatible version")
  | some .eBusy => .plain fun s => s.disconnect (some "server already has a connected client with our name")
  | some .eUnknown => .plain fun s => s.disconnect (some "server refused client with our name")
  | some .eBad => .plain fun s => s.disconnect (some "server reported a protocol error")
  | _ => .plain unknown

def reply (a : Reaction Session Effect) : Reaction Session Effect :=
  if a.next = .goOn then { a with effects := a.effects ++ [.sendNoop] } else a

def replying : Handler Session Effect → Handler Session Effect
  | .reads before format act => .reads before format fun s v => reply (act s v)
  | .plain act => .plain fun s => reply (act s)

def parseMessage (uninit : UInt64) (code : List UInt8) : Handler Session Effect :=
  let flushing (c : MessageCode) (act : Session → Values → Reaction Session Effect) : Handler Session Effect :=
    .reads flushCompressedMouse c.body act
  let reads (c : MessageCode) (act : Session → Values → Reaction Session Effect) : Handler Session Effect :=
    .reads nothing c.body act
  replying <| match MessageCode.compared messageCodes code with
  | some .cDimScreen => reads .cDimScreen dimScreen
  | some .cLockState => reads .cLockState recvLockState
  | some .dMouseMove => reads .dMouseMove mouseMove
  | some .dMouseRelMove => reads .dMouseRelMove mouseRelativeMove
  | some .dMouseWheel => flushing .dMouseWheel mouseWheel
  | some .dKeyDown => flushing .dKeyDown keyDown
  | some .dKeyUp => flushing .dKeyUp keyUp
  | some .dMouseDown => flushing .dMouseDown mouseDown
  | some .dMouseUp => flushing .dMouseUp mouseUp
  | some .dKeyRepeat => flushing .dKeyRepeat keyRepeat
  | some .cKeepAlive => .plain keepAlive
  | some .cNoop => .plain fun s => s.does []
  | some .cEnter => reads .cEnter enter
  | some .cLeave => flushing .cLeave fun s _ => s.leave
  | some .cClipboard => reads .cClipboard grabClipboard
  | some .cScreenSaver => reads .cScreenSaver screensaver
  | some .qInfo => .plain queryInfo
  | some .cInfoAck => .plain infoAcknowledgment
  | some .dClipboard => reads .dClipboard (setClipboard uninit)
  | some .cResetOptions => .plain resetOptions
  | some .dSetOptions => reads .dSetOptions setOptions
  | some .dFileTransfer => reads .dFileTransfer (fileChunkReceived uninit)
  | some .dDragInfo => reads .dDragInfo dragInfoReceived
  | some .cClose => .plain fun s => s.disconnect none
  | some .eBad => .plain fun s => s.disconnect (some "server reported a protocol error")
  | _ => .plain unknown

/-- `handle_data`. -/
def endpoint (uninit : UInt64) : Endpoint Session Effect where
  parse s code := if s.handshake then parseHandshakeMessage code else parseMessage uninit code
  incomplete s := (s, [.disconnect (some "incomplete message from server")])
  badClient s := (s, [.sendBad, .disconnect (some "invalid message from server")])
  finish := flushCompressedMouse

end Parser

end Session

end InputLeap.Client
