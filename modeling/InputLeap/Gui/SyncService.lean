import InputLeap.Gui.LayoutModel
import InputLeap.Lib.Reachable

/-! The settings channel between the windows of two computers. Each one listens, connects to its targets, and sends
JSON objects by lines. A line is the object that it holds, which Qt writes and reads back. -/

namespace InputLeap.Gui

open InputLeap.Lib

/-- Numbers are those that an `int` holds; all other values are told apart by a number. -/
inductive Json
  | string (s : Name)
  | number (n : ℤ)
  | bool (b : Bool)
  | other (n : ℕ)
  deriving DecidableEq

abbrev Object := OrdMap (id : Name → Name) Json

namespace Object

def put (o : Object) (key : String) (value : Json) : Object := o.set key.toList value

def remove (o : Object) (key : String) : Object := o.erase key.toList

def string (o : Object) (key : String) : Name :=
  match o.find? key.toList with
  | some (.string s) => s
  | _ => []

def int (o : Object) (key : String) (default : ℤ) : ℤ :=
  match o.find? key.toList with
  | some (.number n) => n
  | _ => default

def bool (o : Object) (key : String) : Bool :=
  match o.find? key.toList with
  | some (.bool b) => b
  | _ => false

end Object

inductive RequestKind
  | set
  | action
  | relay
  | setConfig
  deriving DecidableEq

def RequestKind.toString : RequestKind → String
  | set => "set"
  | action => "action"
  | relay => "relay"
  | setConfig => "set-config"

def requestKinds : List RequestKind := [.set, .action, .relay, .setConfig]

/-- What the handler of an ack does: it sends requests, whose handlers do the same. -/
inductive Script
  | done
  | request (peerName : Name) (kind : RequestKind) (body : Object) (handler : Object → Script) (next : Script)

abbrev AckHandler := Object → Script

def failedAck (text : Name) : Object := (Object.put OrdMap.empty "ok" (.bool false)).put "text" (.string text)

namespace Access

def none : ℤ := 0
def read : ℤ := 1
def write : ℤ := 2

end Access

namespace SyncService

def kFirstRetryMs : ℕ := 3000
def kMaxRetryMs : ℕ := 60000
def kProtocol : ℤ := 3

structure Peer where
  number : ℕ
  incoming : Bool
  verified : Bool
  access : ℤ
  accessThere : ℤ
  protocol : ℤ
  targetKey : Name
  targetName : Name
  name : Name
  role : Name
  version : Name
  fingerprint : Name
  documents : OrdMap (id : Name → Name) Object
  helloTimer : Bool
  /-- The lines that were written to its socket, and those read from it. -/
  sent : List Object
  received : List Object
  deriving DecidableEq

structure Target where
  key : Name
  name : Name
  host : Name
  port : ℕ
  retryMs : ℕ
  timer : Bool
  deriving DecidableEq

/-- Its timer runs as long as there is the entry. -/
structure Pending where
  number : ℕ
  addressee : ℕ
  peerName : Name
  handler : AckHandler

/-- A call of a handler: the peer that the request went to, if it was sent, and the peer that sent the ack, if it was
not made here. -/
structure Answer where
  number : ℕ
  addressee : Option ℕ
  sender : Option ℕ
  ack : Object
  deriving DecidableEq

end SyncService

structure SyncService where
  listening : Bool
  identityReady : Bool
  name : Name
  role : Name
  version : Name
  documents : OrdMap (id : Name → Name) Object
  dirty : List Name
  broadcastTimer : Bool
  peers : List SyncService.Peer
  targets : List SyncService.Target
  pending : List SyncService.Pending
  /-- Connections and requests are numbered. -/
  connections : ℕ
  requests : ℕ
  answers : List SyncService.Answer

/-- What the channel is given: strings without case, ids that are all different, the trust check, and the handler of
requests. -/
structure SyncContext where
  qt : Qt
  uuid : ℕ → Name
  trust : Name → Name → Bool → ℤ
  handle : Name → RequestKind → Object → ℤ → Object

namespace SyncService

section Lines

variable (s : SyncService)

def modifyPeer (number : ℕ) (f : Peer → Peer) : SyncService :=
  { s with peers := s.peers.map fun p => if p.number = number then f p else p }

def writeLine (number : ℕ) (line : Object) : SyncService :=
  s.modifyPeer number fun p => { p with sent := p.sent ++ [line] }

def sendDocument (number : ℕ) (kind : Name) (document : Object) : SyncService :=
  s.writeLine number (document.put "type" (.string kind))

def hello : Object :=
  (((Object.put OrdMap.empty "name" (.string s.name)).put "role" (.string s.role)).put "version"
    (.string s.version)).put "protocol" (.number kProtocol)

def accessDocument (level : ℤ) : Object := Object.put OrdMap.empty "level" (.number level)

def sendAll (number : ℕ) : SyncService :=
  s.documents.entries.foldl (fun s e => s.sendDocument number e.1 e.2) s

def setDocument (kind : Name) (document : Object) : SyncService :=
  if (s.documents.find? kind).getD .empty = document then s
  else
    { s with
      documents := s.documents.set kind document
      dirty := if kind ∈ s.dirty then s.dirty else s.dirty ++ [kind]
      broadcastTimer := true }

def publish (kinds : List Name) (t : SyncService) (number : ℕ) : SyncService :=
  kinds.foldl (fun t kind => t.sendDocument number kind ((t.documents.find? kind).getD .empty)) t

def verifiedNumbers : List ℕ := (s.peers.filter Peer.verified).map Peer.number

def broadcast : SyncService :=
  s.verifiedNumbers.foldl (publish s.dirty) { s with dirty := [], broadcastTimer := false }

def setLocalInfo (name role version : Name) : SyncService :=
  let t := { s with name := name, role := role, version := version }
  if s.name ≠ name ∨ s.role ≠ role ∨ s.version ≠ version then
    s.verifiedNumbers.foldl (fun t number => t.sendDocument number "hello".toList t.hello) t
  else t

end Lines

section Requests

variable (ctx : SyncContext) (s : SyncService)

def peerNamed (name : Name) : Option Peer := s.peers.find? fun p => p.verified && ctx.qt.sameName p.name name

/-- The peer that a request is sent to, or why it fails at once. -/
def addressee (peerName : Name) (kind : RequestKind) : Except Name Peer :=
  match s.peerNamed ctx peerName with
  | none => .error (peerName ++ " is not connected".toList)
  | some p =>
    if p.protocol < 2 then
      .error (peerName ++ " runs an older build that only shares, it does not accept changes".toList)
    else if p.protocol < 3 ∧ (kind = .relay ∨ kind = .setConfig) then
      .error (peerName ++ " runs an older build: update it to edit the whole fleet from here".toList)
    else .ok p

def failAtOnce (text : Name) : SyncService :=
  { s with requests := s.requests + 1, answers := s.answers ++ [⟨s.requests, none, none, failedAck text⟩] }

def sendRequest (p : Peer) (peerName : Name) (kind : RequestKind) (body : Object) (handler : AckHandler) : SyncService :=
  let t := s.sendDocument p.number kind.toString.toList (body.put "id" (.string (ctx.uuid s.requests)))
  { t with requests := s.requests + 1, pending := s.pending ++ [⟨s.requests, p.number, peerName, handler⟩] }

def run : Script → SyncService → SyncService
  | .done, s => s
  | .request peerName kind body handler next, s =>
    match s.addressee ctx peerName kind with
    | .error text => run next (run (handler (failedAck text)) (s.failAtOnce text))
    | .ok p => run next (s.sendRequest ctx p peerName kind body handler)

def finish (e : Pending) (ack : Object) (sender : Option ℕ) : SyncService :=
  run ctx (e.handler ack)
    { s with
      pending := s.pending.filter fun d => d.number ≠ e.number
      answers := s.answers ++ [⟨e.number, some e.addressee, sender, ack⟩] }

def finishPending (id : Name) (ack : Object) (sender : Option ℕ) : SyncService :=
  match s.pending.find? fun e => decide (ctx.uuid e.number = id) with
  | none => s
  | some e => s.finish ctx e ack sender

def answer (peerName : Name) (id : Json) (ack : Object) : SyncService :=
  match s.peerNamed ctx peerName with
  | none => s
  | some p => s.sendDocument p.number "ack".toList ((ack.remove "deferred").put "id" id)

end Requests

section Targets

variable (s : SyncService)

def peer (number : ℕ) : Option Peer := s.peers.find? fun p => decide (p.number = number)

def hasOutgoing (key : Name) : Bool := s.peers.any fun p => !p.incoming && decide (p.targetKey = key)

def target (key : Name) : Option Target := s.targets.find? fun t => decide (t.key = key)

def modifyTarget (key : Name) (f : Target → Target) : SyncService :=
  { s with targets := s.targets.map fun t => if t.key = key then f t else t }

def scheduleRetry (key : Name) : SyncService :=
  s.modifyTarget key fun t =>
    { t with retryMs := min kMaxRetryMs (if t.retryMs = 0 then kFirstRetryMs else t.retryMs * 2), timer := true }

def newPeer (incoming : Bool) (targetKey targetName : Name) : Peer where
  number := s.connections
  incoming := incoming
  verified := false
  access := Access.none
  accessThere := Access.none
  protocol := 1
  targetKey := targetKey
  targetName := targetName
  name := []
  role := []
  version := []
  fingerprint := []
  documents := .empty
  helloTimer := true
  sent := []
  received := []

def attach (incoming : Bool) (targetKey targetName : Name) : SyncService :=
  { s with
    peers := s.peers ++ [s.newPeer incoming targetKey targetName]
    connections := s.connections + 1 }

def acceptIncoming : SyncService := s.attach true [] []

def attempt (key : Name) : SyncService :=
  if s.identityReady = false ∨ s.listening = false then s
  else
    match s.target key with
    | none => s
    | some t =>
      if s.hasOutgoing key then s
      else (s.modifyTarget key fun t => { t with timer := false }).attach false key t.name

end Targets

section Connections

variable (ctx : SyncContext) (s : SyncService)

/-- One request fails, if it still waits and is one of those. -/
def failOne (which : Pending → Bool) (text : Name) (t : SyncService) (number : ℕ) : SyncService :=
  match t.pending.find? fun e => decide (e.number = number) with
  | none => t
  | some e => if which e then t.finish ctx e (failedAck text) none else t

def failPending (which : Pending → Bool) (text : Name) : SyncService :=
  (s.pending.map Pending.number).foldl (failOne ctx which text) s

def removePeer (number : ℕ) : SyncService := { s with peers := s.peers.filter fun p => p.number ≠ number }

def dropPeer (p : Peer) : SyncService :=
  let t := s.removePeer p.number
  let t :=
    if p.verified then
      t.failPending ctx (fun e => decide (e.peerName = p.name)) (p.name ++ " went away before answering".toList)
    else t
  if p.incoming then t else t.scheduleRetry p.targetKey

def dropWhere (which : Peer → Bool) : SyncService :=
  match s.peers.find? which with
  | none => s
  | some p => s.dropPeer ctx p

def targetKeyOf (name host : Name) (port : ℕ) : Name := if name = [] then host ++ ':' :: Nat.toDigits 10 port else name

def setTarget (key name host : Name) (port : ℕ) : SyncService :=
  match s.target key with
  | none => { s with targets := s.targets ++ [⟨key, name, host, port, 0, false⟩] }
  | some _ => s.modifyTarget key fun t => { t with name := name, host := host, port := port, retryMs := 0 }

def connectTo (name host : Name) (port : ℕ) : SyncService :=
  if host = [] ∨ port = 0 then s
  else
    let key := targetKeyOf name host port
    if (s.target key).any (fun t => decide (t.host = host ∧ t.port = port)) ∧ s.hasOutgoing key then s
    else
      ((s.setTarget key name host port).dropWhere ctx fun p => !p.incoming && decide (p.targetKey = key)).attempt key

def forget (key : Name) : SyncService :=
  ({ s with targets := s.targets.filter fun t => t.key ≠ key } : SyncService).dropWhere ctx fun p =>
    !p.incoming && decide (p.targetKey = key)

def retryTarget (t : SyncService) (key : Name) : SyncService :=
  if t.hasOutgoing key then t else (t.modifyTarget key fun t => { t with retryMs := 0 }).attempt key

def retryNow : SyncService := (s.targets.map Target.key).foldl retryTarget s

def accessOf (p : Peer) (name : Name) : ℤ := qBound Access.none (ctx.trust p.fingerprint name p.incoming) Access.write

def reevaluate (t : SyncService) (number : ℕ) : SyncService :=
  match t.peer number with
  | none => t
  | some p =>
    if p.verified = false ∨ accessOf ctx p p.name = p.access then t
    else if accessOf ctx p p.name ≤ Access.none then t.dropPeer ctx p
    else
      (t.modifyPeer number fun p => { p with access := accessOf ctx p p.name }).sendDocument number "access".toList
        (accessDocument (accessOf ctx p p.name))

def reevaluateAccess : SyncService := (s.peers.map Peer.number).foldl (reevaluate ctx) s

def onEncrypted (p : Peer) (fingerprint : Name) : SyncService :=
  if fingerprint = [] then s.dropPeer ctx p
  else
    (s.modifyPeer p.number fun p => { p with fingerprint := fingerprint }).sendDocument p.number "hello".toList s.hello

end Connections

section Lines

variable (ctx : SyncContext) (s : SyncService)

/-- A peer renamed itself, or changed its role. -/
def renamePeer (p : Peer) (o : Object) : SyncService :=
  s.modifyPeer p.number fun p =>
    { p with
      name := if o.string "name" = [] then p.name else o.string "name"
      role := o.string "role"
      version := o.string "version" }

def introduced (p : Peer) (o : Object) : Peer :=
  { p with name := o.string "name", role := o.string "role", version := o.string "version" }

def refuses (p : Peer) : Bool :=
  p.name = [] ∨ ctx.trust p.fingerprint p.name p.incoming ≤ Access.none ∨
    p.incoming = false ∧ p.targetName ≠ [] ∧ p.name ≠ p.targetName

/-- One connection per peer: a newer one replaces the old. -/
def welcome (p : Peer) (o : Object) : SyncService :=
  let t := s.modifyPeer p.number fun q =>
    { q with access := accessOf ctx p p.name, protocol := o.int "protocol" 1 }
  let t := t.dropWhere ctx fun q => decide (q.number ≠ p.number) && q.verified && decide (q.name = p.name)
  let t := t.modifyPeer p.number fun q => { q with verified := true, helloTimer := false }
  (t.sendDocument p.number "access".toList (accessDocument (accessOf ctx p p.name))).sendAll p.number

def greet (p : Peer) (o : Object) : SyncService :=
  let t := s.modifyPeer p.number fun p => introduced p o
  if refuses ctx (introduced p o) then t.dropPeer ctx (introduced p o) else t.welcome ctx (introduced p o) o

def handleRequest (p : Peer) (kind : RequestKind) (o : Object) : SyncService :=
  let ack := ctx.handle p.name kind o p.access
  if ack.bool "deferred" then s
  else
    s.sendDocument p.number "ack".toList
      (match o.find? "id".toList with
      | none => ack.remove "id"
      | some id => ack.put "id" id)

def requestNamed (kind : Name) : Option RequestKind := requestKinds.find? fun k => decide (k.toString.toList = kind)

def handleKind (p : Peer) (kind : Name) (o : Object) : SyncService :=
  if kind = "hello".toList then if p.verified then s.renamePeer p o else s.greet ctx p o
  else if p.verified = false ∨ kind = [] then s
  else if kind = "access".toList then
    s.modifyPeer p.number fun p => { p with accessThere := qBound Access.none (o.int "level" 0) Access.write }
  else if kind = "ack".toList then s.finishPending ctx (o.string "id") o (some p.number)
  else
    match requestNamed kind with
    | some request => s.handleRequest ctx p request o
    | none => s.modifyPeer p.number fun p => { p with documents := p.documents.set kind o }

def reads (line : Object) (p : Peer) : Peer := { p with received := p.received ++ [line] }

def handleLine (p : Peer) (line : Object) : SyncService :=
  (s.modifyPeer p.number (reads line)).handleKind ctx (reads line p) (line.string "type") (line.remove "type")

end Lines

section Running

variable (ctx : SyncContext) (s : SyncService)

def stop : SyncService :=
  let t : SyncService := { s with targets := [] }
  let t := t.failPending ctx (fun _ => true) "the channel stopped".toList
  { t with peers := [], listening := false }

def start (ready listens : Bool) : SyncService :=
  { s.stop ctx with identityReady := ready, listening := ready && listens }

end Running

end SyncService

inductive ChannelEvent
  | start (ready listens : Bool)
  | stop
  | setLocalInfo (name role version : Name)
  | setDocument (kind : Name) (document : Object)
  | broadcastTimeout
  | request (peerName : Name) (kind : RequestKind) (body : Object) (handler : AckHandler)
  | requestTimeout (number : ℕ)
  | answer (peerName : Name) (id : Json) (ack : Object)
  | acceptIncoming
  | connectTo (name host : Name) (port : ℕ)
  | forget (key : Name)
  | retryNow
  | retryTimeout (key : Name)
  | reevaluateAccess
  | encrypted (number : ℕ) (fingerprint : Name)
  | line (number : ℕ) (line : Object)
  | helloTimeout (number : ℕ)
  | disconnected (number : ℕ)

namespace SyncService

variable (ctx : SyncContext) (s : SyncService)

def next : ChannelEvent → Option SyncService
  | .start ready listens => some (s.start ctx ready listens)
  | .stop => some (s.stop ctx)
  | .setLocalInfo name role version => some (s.setLocalInfo name role version)
  | .setDocument kind document => some (s.setDocument kind document)
  | .broadcastTimeout => if s.broadcastTimer then some s.broadcast else none
  | .request peerName kind body handler => some (run ctx (.request peerName kind body handler .done) s)
  | .requestTimeout number =>
    (s.pending.find? fun e => decide (e.number = number)).map fun e =>
      s.finish ctx e (failedAck ("no answer from ".toList ++ e.peerName)) none
  | .answer peerName id ack => some (s.answer ctx peerName id ack)
  | .acceptIncoming => if s.listening then some s.acceptIncoming else none
  | .connectTo name host port => some (s.connectTo ctx name host port)
  | .forget key => some (s.forget ctx key)
  | .retryNow => some s.retryNow
  | .retryTimeout key =>
    if (s.target key).any Target.timer then some ((s.modifyTarget key fun t => { t with timer := false }).attempt key)
    else none
  | .reevaluateAccess => some (s.reevaluateAccess ctx)
  | .encrypted number fingerprint =>
    (s.peer number).bind fun p => if p.fingerprint = [] then some (s.onEncrypted ctx p fingerprint) else none
  | .line number line =>
    (s.peer number).bind fun p => if p.fingerprint = [] then none else some (s.handleLine ctx p line)
  | .helloTimeout number => (s.peer number).bind fun p => if p.helloTimer then some (s.dropPeer ctx p) else none
  | .disconnected number => (s.peer number).map fun p => s.dropPeer ctx p

def new (name role version : Name) : SyncService where
  listening := false
  identityReady := false
  name := name
  role := role
  version := version
  documents := .empty
  dirty := []
  broadcastTimer := false
  peers := []
  targets := []
  pending := []
  connections := 0
  requests := 0
  answers := []

def Initial : Prop := s = new s.name s.role s.version

end SyncService

end InputLeap.Gui
