import InputLeap.Server.Config

/-! A client from one connection to the next, and what the server has it do to its screen. -/

namespace InputLeap

abbrev Seconds := ℚ

namespace Client

def kKeepAliveRate : Seconds := 3
def kKeepAlivesUntilDeath : ℚ := 3

def kPollIntervalSeconds : Seconds := 1 / 2
def kDimDebounce : Seconds := 12 / 10
def kRequestCooldown : Seconds := 3

def kOptionHeartbeat : OptionID := optionCode "HART"

structure Proxy where
  /-- `m_parser` is `parseHandshakeMessage`. -/
  handshake : Bool
  keepAliveAlarm : Seconds

inductive InputHandler
  | hello
  | data
  deriving DecidableEq

inductive ClientEvent
  | connected
  | disconnected
  | connectionFailed (what : String)
  deriving DecidableEq

inductive ClientMessage
  | helloBack
  | info
  | keepAlive
  | noop
  | bad
  | undimRequest
  deriving DecidableEq

inductive ServerMessage
  | queryInfo
  | infoAck
  | setOptions (options : List OptionID)
  | resetOptions
  | keepAlive
  | noop
  | close
  | incompatible
  | busy
  | unknown
  | bad
  | dim (value : ℤ)
  | lockState
  /-- Input, clipboards, files and the like. -/
  | input
  | invalid
  /-- Less than a code. -/
  | incomplete
  /-- `XBadClient` is thrown when it is read. -/
  | tooLong
  deriving DecidableEq

end Client

structure Client where
  /-- Whether there is an `m_stream`. -/
  stream : Bool
  /-- The handlers of `setupConnecting` are installed, for a socket that has not connected. -/
  connecting : Bool
  /-- Those of `setupConnection` are, apart from the one for input. -/
  connection : Bool
  inputHandler : Option Client.InputHandler
  timer : Bool
  server : Option Client.Proxy
  ready : Bool
  suspended : Bool
  connectOnResume : Bool
  isDimmed : Bool
  /-- Whether there is an `m_pollerTimer`. -/
  poller : Bool
  unansweredRequests : ℕ
  dimmedAt : Seconds
  lastUndimRequest : Seconds
  /-- Ghost: the values passed to `fork_dimScreen` of the screen. -/
  dims : List Bool
  /-- Ghost: the messages written. -/
  sent : List Client.ClientMessage
  /-- Ghost: the events added. -/
  events : List Client.ClientEvent

namespace Client

def new : Client where
  stream := false
  connecting := false
  connection := false
  inputHandler := none
  timer := false
  server := none
  ready := false
  suspended := false
  connectOnResume := false
  isDimmed := false
  poller := false
  unansweredRequests := 0
  dimmedAt := 0
  lastUndimRequest := 0
  dims := []
  sent := []
  events := []

def sendEvent (c : Client) (e : ClientEvent) : Client := { c with events := c.events ++ [e] }

def send (c : Client) (m : ClientMessage) : Client := { c with sent := c.sent ++ [m] }

def cleanupTimer (c : Client) : Client := { c with timer := false }

def cleanupConnecting (c : Client) : Client := { c with connecting := false }

/-- The handlers of a stream go when it is deleted. -/
def cleanupStream (c : Client) : Client :=
  { c with stream := false, connecting := false, connection := false, inputHandler := none }

def cleanupConnection (c : Client) : Client := if c.stream then c.cleanupStream else c

/-- The proxy takes its handler of the input with it. -/
def cleanupScreen (c : Client) : Client :=
  if c.server.isSome then { c with ready := false, server := none, inputHandler := none } else c

def disconnect (c : Client) (msg : Option String) : Client :=
  let c := { c with connectOnResume := false }.cleanupTimer.cleanupScreen.cleanupConnecting.cleanupConnection
  match msg with
  | some msg => c.sendEvent (.connectionFailed msg)
  | none => c.sendEvent .disconnected

/-- `failure` is what is thrown on the way. -/
def connect (c : Client) (failure : Option String) : Client :=
  if c.stream then c
  else if c.suspended then { c with connectOnResume := true }
  else
    match failure with
    | some what => c.cleanupTimer.cleanupConnecting.cleanupStream.sendEvent (.connectionFailed what)
    | none => { c with stream := true, connecting := true, timer := true }

def handleConnected (c : Client) : Client :=
  { c.cleanupConnecting with connection := true, inputHandler := some .hello }

def handleConnectionFailed (c : Client) (what : String) : Client :=
  c.cleanupTimer.cleanupConnecting.cleanupStream.sendEvent (.connectionFailed what)

def handleConnectTimeout (c : Client) : Client :=
  c.cleanupTimer.cleanupConnecting.cleanupConnection.cleanupStream.sendEvent (.connectionFailed "Timed out")

/-- `handle_output_error` and `handle_disconnected`. -/
def handleDisconnected (c : Client) : Client := c.cleanupTimer.cleanupScreen.cleanupConnection.sendEvent .disconnected

def setupScreen (c : Client) : Client :=
  { c with
    ready := false
    server := some ⟨true, kKeepAliveRate * kKeepAlivesUntilDeath⟩
    inputHandler := some .data }

/-- The version is `none` if the hello is none. -/
def handleHello (c : Client) (version : Option (ℤ × ℤ)) : Client :=
  match version with
  | none =>
    let what := "Protocol error from server, check encryption settings"
    (c.sendEvent (.connectionFailed what)).cleanupTimer.cleanupConnection
  | some (major, minor) =>
    if major < 1 ∨ major = 1 ∧ minor < 6 then
      let what := "incompatible client " ++ toString major ++ "." ++ toString minor
      (c.sendEvent (.connectionFailed what)).cleanupTimer.cleanupConnection
    else (c.send .helloBack).setupScreen.cleanupTimer

def handshakeComplete (c : Client) : Client := { c with ready := true }.sendEvent .connected

def startUndimPoller (c : Client) (idle : Seconds) : Client :=
  if c.poller then c else if idle < 0 then c else { c with poller := true }

def stopUndimPoller (c : Client) : Client := { c with poller := false }

def forkDimScreen (c : Client) (dim : Bool) (now idle : Seconds) : Client :=
  let c := { c with dims := c.dims ++ [dim] }
  let c :=
    if dim && !c.isDimmed then { c with dimmedAt := now, unansweredRequests := 0 }.startUndimPoller idle
    else if !dim && c.isDimmed then { c with unansweredRequests := 0 }.stopUndimPoller
    else c
  { c with isDimmed := dim }

def sendUndimRequest (c : Client) : Client :=
  if !c.stream || !c.ready then c
  else { c.send .undimRequest with unansweredRequests := c.unansweredRequests + 1 }

def pollLocalInput (c : Client) (now idle : Seconds) : Client :=
  if !c.isDimmed then c
  else if now - c.dimmedAt < kDimDebounce then c
  else if idle < 0 ∨ kPollIntervalSeconds < idle then c
  else if now - c.lastUndimRequest < kRequestCooldown then c
  else { c with lastUndimRequest := now }.sendUndimRequest

def setKeepAliveRate (p : Proxy) (rate : Seconds) : Proxy := { p with keepAliveAlarm := rate * kKeepAlivesUntilDeath }

def setHeartbeat (p : Proxy) : List OptionID → Proxy
  | id :: value :: options =>
    setHeartbeat (if id = kOptionHeartbeat then setKeepAliveRate p (value / 1000) else p) options
  | _ => p

def setOptions (c : Client) (options : List OptionID) : Client :=
  if options.length % 2 ≠ 0 then c else { c with server := c.server.map fun p => setHeartbeat p options }

def resetOptions (c : Client) : Client :=
  { c with server := c.server.map fun p => setKeepAliveRate p kKeepAliveRate }

inductive EResult
  | kOkay
  | kUnknown
  | kDisconnect
  deriving DecidableEq

def parseHandshakeMessage (c : Client) : ServerMessage → EResult × Client
  | .queryInfo => (.kOkay, c.send .info)
  | .infoAck | .noop => (.kOkay, c)
  | .setOptions options =>
    let c := c.setOptions options
    let server := c.server.map fun p => { p with handshake := false }
    (.kOkay, { c with server := server }.handshakeComplete)
  | .resetOptions => (.kOkay, c.resetOptions)
  | .keepAlive => (.kOkay, c.send .keepAlive)
  | .close => (.kDisconnect, c.disconnect none)
  | .incompatible => (.kDisconnect, c.disconnect (some "server has incompatible version"))
  | .busy => (.kDisconnect, c.disconnect (some "server already has a connected client with our name"))
  | .unknown => (.kDisconnect, c.disconnect (some "server refused client with our name"))
  | .bad => (.kDisconnect, c.disconnect (some "server reported a protocol error"))
  | .dim _ | .lockState | .input | .invalid | .incomplete | .tooLong => (.kUnknown, c)

def parseMessage (c : Client) (now idle : Seconds) : ServerMessage → EResult × Client
  | .dim value => (.kOkay, (c.forkDimScreen (decide (value ≠ 0)) now idle).send .noop)
  | .lockState | .infoAck | .noop | .input => (.kOkay, c.send .noop)
  | .queryInfo => (.kOkay, (c.send .info).send .noop)
  | .setOptions options => (.kOkay, (c.setOptions options).send .noop)
  | .resetOptions => (.kOkay, c.resetOptions.send .noop)
  | .keepAlive => (.kOkay, (c.send .keepAlive).send .noop)
  | .close => (.kDisconnect, c.disconnect none)
  | .bad => (.kDisconnect, c.disconnect (some "server reported a protocol error"))
  | .incompatible | .busy | .unknown | .invalid | .incomplete | .tooLong => (.kUnknown, c)

/-- One turn of the loop of `handle_data`. -/
def handleData (c : Client) (p : Proxy) (m : ServerMessage) (now idle : Seconds) : Client :=
  match m with
  | .incomplete => c.disconnect (some "incomplete message from server")
  | .tooLong => (c.send .bad).disconnect (some "invalid message from server")
  | m =>
    match if p.handshake then c.parseHandshakeMessage m else c.parseMessage now idle m with
    | (.kUnknown, c) => c.disconnect (some "invalid message from server")
    | (_, c) => c

def handleSuspend (c : Client) : Client :=
  let wasConnected := c.server.isSome
  let c := { c with suspended := true }.disconnect none
  { c with connectOnResume := wasConnected }

def handleResume (c : Client) (failure : Option String) : Client :=
  let c := { c with suspended := false }
  if c.connectOnResume then { c with connectOnResume := false }.connect failure else c

inductive ClientStep
  /-- By the application, when it starts or tries again. -/
  | connect (failure : Option String)
  | connected
  | connectionFailed (what : String)
  | timeout
  | hello (version : Option (ℤ × ℤ))
  | message (m : ServerMessage) (now idle : Seconds)
  | outputError
  /-- `SOCKET_DISCONNECTED`, `STREAM_INPUT_SHUTDOWN` or `STREAM_OUTPUT_SHUTDOWN`. -/
  | disconnected
  | keepAliveAlarm
  | suspend
  | resume (failure : Option String)
  | poll (now idle : Seconds)

/-- A handler is called if it is installed. -/
def step (c : Client) : ClientStep → Client
  | .connect failure => c.connect failure
  | .connected => if c.connecting then c.handleConnected else c
  | .connectionFailed what => if c.connecting then c.handleConnectionFailed what else c
  | .timeout => if c.timer then c.handleConnectTimeout else c
  | .hello version => if c.inputHandler = some .hello then c.handleHello version else c
  | .message m now idle =>
    match c.server with
    | some p => if c.inputHandler = some .data then c.handleData p m now idle else c
    | none => c
  | .outputError | .disconnected => if c.connection then c.handleDisconnected else c
  | .keepAliveAlarm =>
    match c.server with
    | some p => if 0 < p.keepAliveAlarm then c.disconnect (some "server is not responding") else c
    | none => c
  | .suspend => c.handleSuspend
  | .resume failure => c.handleResume failure
  | .poll now idle => if c.poller then c.pollLocalInput now idle else c

end Client

end InputLeap
