import InputLeap.Lib.Arrivals
import InputLeap.Protocol.ProtocolUtil
import Mathlib.Data.List.OfFn

/-! The daemon's end of a connection to the window, which sends its commands over it. The bytes come
straight from the socket, whose reads give what is there. -/

namespace InputLeap.Ipc

open InputLeap.Lib InputLeap.Protocol

def kIpcMsgHello : List Char := "IHEL%1i".toList

def kIpcMsgLogLine : List Char := "ILOG%s".toList

def kIpcMsgCommand : List Char := "ICMD%s%1i".toList

/-- The four bytes before the format of what follows. -/
def code (message : List Char) : List UInt8 := (message.take 4).map Char.toUInt8

def kIpcClientGui : ℕ := 1

inductive ElevateMode
  | asNeeded
  | always
  | never
  deriving DecidableEq

inductive IpcMessage
  | hello (clientType : ℕ)
  | command (command : List UInt8) (elevate : Bool)
  deriving DecidableEq

inductive IpcEvent
  | messageReceived (data : Option IpcMessage)
  | disconnected
  deriving DecidableEq

inductive Call
  | sendHello
  | sendCommand (command : List UInt8) (elevate : ElevateMode)
  deriving DecidableEq

namespace Call

/-- A C string, which ends at its first NUL. -/
def cString (text : List UInt8) : List UInt8 := text.takeWhile fun b => decide (b ≠ 0)

def format : Call → List Char
  | .sendHello => kIpcMsgHello
  | .sendCommand _ _ => kIpcMsgCommand

def fields : Call → List UInt8
  | .sendHello => [UInt8.ofNat kIpcClientGui]
  | .sendCommand command elevate =>
    BigEndian.encode 4 (cString command).length ++ (cString command ++ [if elevate = .always then 1 else 0])

def written (call : Call) : List UInt8 := code call.format ++ call.fields

def message : Call → IpcMessage
  | .sendHello => .hello kIpcClientGui
  | .sendCommand command elevate => .command (cString command) (decide (elevate = .always))

def counts : Call → List ℕ
  | .sendHello => [1]
  | .sendCommand command _ => [4, (cString command).length, 1]

def Fits : Call → Prop
  | .sendHello => True
  | .sendCommand command _ => (cString command).length ≤ ProtocolUtil.maxStringLength

end Call

structure IpcClientProxy where
  stream : Arriving
  clientType : ℕ
  disconnecting : Bool
  events : List IpcEvent
  /-- An exception has left the event handler and the daemon with it. -/
  thrown : Bool
  deriving DecidableEq

/-- What is in the variables that the code does not initialise, at the moment when they are declared. -/
structure Uninitialised where
  code : Arriving → Fin 4 → UInt8
  type : Arriving → ℕ
  elevate : Arriving → ℕ

namespace IpcClientProxy

variable (unset : Uninitialised) (p : IpcClientProxy)

def start (stream : Arriving) : IpcClientProxy := ⟨stream, 0, false, [], false⟩

def disconnect : IpcClientProxy :=
  if p.disconnecting then p
  else { p with disconnecting := true, stream := ⟨[], []⟩, events := p.events ++ [.disconnected] }

def addEvent (data : Option IpcMessage) : IpcClientProxy := { p with events := p.events ++ [.messageReceived data] }

def readf (fmt : List Char) : Reader.Outcome ProtocolUtil.ReadError ProtocolUtil.Stored Arriving :=
  (ProtocolUtil.vreadf fmt).run .endOfStream p.stream

def storedInt (unset : ℕ) : List ProtocolUtil.Stored → ℕ
  | [] => unset
  | .int value :: _ => value
  | _ :: stored => storedInt unset stored

def storedString : List ProtocolUtil.Stored → List UInt8
  | [] => []
  | .string bytes :: _ => bytes
  | _ :: stored => storedString stored

def parseHello : IpcClientProxy :=
  let o := p.readf (kIpcMsgHello.drop 4)
  match ProtocolUtil.readfResult o.result with
  | .error _ => { p with stream := o.source, thrown := true }
  | .ok _ =>
    let type := storedInt (unset.type p.stream) o.stored
    { p with stream := o.source, clientType := type }.addEvent (some (.hello type))

def parseCommand : IpcClientProxy :=
  let o := p.readf (kIpcMsgCommand.drop 4)
  match ProtocolUtil.readfResult o.result with
  | .error _ => { p with stream := o.source, thrown := true }
  | .ok _ =>
    let elevate := storedInt (unset.elevate p.stream) o.stored
    { p with stream := o.source }.addEvent (some (.command (storedString o.stored) (decide (elevate ≠ 0))))

def dispatch (bytes : List UInt8) : IpcClientProxy :=
  if bytes = code kIpcMsgHello then p.parseHello unset
  else if bytes = code kIpcMsgCommand then p.parseCommand unset
  else p.disconnect.addEvent none

/-- Every pass reads a byte, so one pass more than there are bytes is enough. A short read leaves the
rest of the code as it was. -/
def pass : ℕ → List UInt8 → IpcClientProxy → IpcClientProxy
  | 0, _, p => p
  | passes + 1, held, p =>
    let (bytes, stream) := ByteSource.read p.stream 4
    let p := { p with stream }
    if bytes = [] then p
    else
      let held := bytes ++ held.drop bytes.length
      let p := p.dispatch unset held
      if p.thrown then p else pass passes held p

def handleData : IpcClientProxy :=
  if p.thrown then p else pass unset (p.stream.unread.length + 1) (List.ofFn (unset.code p.stream)) p

def receive : ℕ → IpcClientProxy → IpcClientProxy
  | 0, p => p
  | n + 1, p => receive n (p.handleData unset)

/-- What has come of the bytes once all have been read. A call of `handleData` ends at a read that finds nothing, so there are
no more calls than arrivals. -/
def received (arrivals : List (List UInt8)) : IpcClientProxy := receive unset arrivals.length (start ⟨[], arrivals⟩)

end IpcClientProxy

end InputLeap.Ipc
