import InputLeap.Client.IgnoredMotion
import InputLeap.Lib.Reachable
import InputLeap.Server.ClientProxyMessages

/-! A client and its server, with what is in flight between them. When the screen of the client changes, the client
says so and ignores the motion of the mouse until the server acknowledges what it has been told. -/

namespace InputLeap

open Lib Protocol Client

structure ScreenInfo where
  x : BitVec 32
  y : BitVec 32
  w : BitVec 32
  h : BitVec 32
  mx : BitVec 32
  my : BitVec 32
  deriving DecidableEq

namespace ScreenInfo

def send (i : ScreenInfo) : ClientSend := .info i.x i.y i.w i.h i.mx i.my

def received (i : ScreenInfo) : InfoMessage := ClientProxy1_6.sentInfo i.x i.y i.w i.h i.mx i.my

def ofSend : ClientSend → Option ScreenInfo
  | .info x y w h mx my => some ⟨x, y, w, h, mx, my⟩
  | _ => none

@[simp] lemma ofSend_send (i : ScreenInfo) : ofSend i.send = some i := rfl

end ScreenInfo

/-- A message of the server in flight, with what the server went by when it sent it. -/
structure InFlight where
  message : ServerSend
  /-- So many descriptions of the screen had been accepted. -/
  known : ℕ
  shape : DisplayRect

structure Conversation where
  client : Session
  clientOpen : Bool
  server : ClientProxy1_6
  serverOpen : Bool
  toServer : List ClientSend
  toClient : List InFlight
  /-- History: what the client has said of its screen. -/
  infos : List ScreenInfo
  /-- So many of them the server has accepted. -/
  accepted : ℕ
  /-- So many acknowledgments have come back. -/
  acknowledged : ℕ
  /-- The number of the one that was sent when the screen changed last. -/
  changed : ℕ
  /-- So many were not acknowledged then. -/
  behind : ℕ

namespace Conversation

variable (uninit : UInt64)

inductive Step
  /-- The event `SCREEN_SHAPE_CHANGED` of the client's screen. -/
  | shapeChanged (info : ScreenInfo)
  | clientSends (m : ClientSend)
  /-- A call of `handle_data` of the client, with so many messages and the screen as it is at each question. -/
  | clientTakes (n : ℕ) (answers : List ScreenInfo)
  | serverSends (m : ServerSend)
  | serverTakes

def replies : List Client.Effect → List ScreenInfo → List ClientSend
  | .sendInfo :: effects, info :: answers => info.send :: replies effects answers
  | .sendNoop :: effects, answers => .noop :: replies effects answers
  | .sendKeepAlive :: effects, answers => .keepAlive :: replies effects answers
  | .sendBad :: effects, answers => .bad :: replies effects answers
  | _ :: effects, answers => replies effects answers
  | [], _ => []

section Steps

variable (c : Conversation)

/-- `onInfoChanged`. -/
def shapeChanged (info : ScreenInfo) : Conversation :=
  { c with
    client := { c.client with motion := c.client.motion.onInfoChanged }
    toServer := c.toServer ++ [info.send]
    infos := c.infos ++ [info]
    changed := c.infos.length + 1
    behind := c.infos.length - c.acknowledged }

def batch (n : ℕ) : List ServerSend := (c.toClient.take n).map InFlight.message

def clientTakes (n : ℕ) (answers : List ScreenInfo) : Conversation :=
  let a := c.client.takeAll uninit (c.batch n)
  { c with
    client := a.state
    clientOpen := a.next = .goOn
    toServer := c.toServer ++ replies a.effects answers
    toClient := c.toClient.drop n
    infos := c.infos ++ answers
    acknowledged := c.acknowledged + (c.batch n).count .infoAck }

def serverSends (m : ServerSend) : Conversation :=
  { c with toClient := c.toClient ++ [⟨m, c.accepted, c.server.shape⟩] }

/-- A message is acknowledged if the server has accepted it. -/
def serverTakes (m : ClientSend) (rest : List ClientSend) : Conversation :=
  let a := c.server.told uninit m
  let accepted := c.accepted + a.effects.count .sendInfoAck
  { c with
    server := a.state
    serverOpen := a.next = .goOn
    toServer := rest
    toClient := c.toClient ++ List.replicate (a.effects.count .sendInfoAck) ⟨.infoAck, accepted, a.state.shape⟩
    accepted := accepted }

end Steps

def next (c : Conversation) : Step → Option Conversation
  | .shapeChanged info => if c.clientOpen then some (c.shapeChanged info) else none
  | .clientSends m =>
    if c.clientOpen ∧ ScreenInfo.ofSend m = none then some { c with toServer := c.toServer ++ [m] } else none
  | .clientTakes n answers =>
    if c.clientOpen ∧ answers.length = (c.client.takeAll uninit (c.batch n)).effects.count .sendInfo then
      some (c.clientTakes uninit n answers)
    else none
  | .serverSends m => if c.serverOpen ∧ m ≠ .infoAck then some (c.serverSends m) else none
  | .serverTakes =>
    match c.toServer with
    | m :: rest => if c.serverOpen then some (c.serverTakes uninit m rest) else none
    | [] => none

def start (file : FileAssembly) (settings : ClipboardSettings) (maximumClipboardSize : ℕ) (received : FileAssembly) :
    Conversation where
  client := .new file settings
  clientOpen := true
  server := .new maximumClipboardSize received
  serverOpen := true
  toServer := []
  toClient := []
  infos := []
  accepted := 0
  acknowledged := 0
  changed := 0
  behind := 0

def Initial (c : Conversation) : Prop :=
  ∃ file settings maximumClipboardSize received, c = start file settings maximumClipboardSize received

end Conversation

end InputLeap
