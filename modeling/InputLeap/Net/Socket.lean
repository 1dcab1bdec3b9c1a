import InputLeap.Io.StreamBuffer

/-! The data sockets. A `SecureSocket` is a `TCPSocket` that reads and writes through TLS; what the calls to the system or
to TLS return is given with each pass over a socket. -/

namespace InputLeap.Net

open InputLeap.Io

inductive SocketEvent
  | dataSocketSecureConnected
  | clientListenerAccepted
  | streamInputReady
  | streamInputShutdown
  | streamOutputFlushed
  | streamOutputError
  | streamOutputShutdown
  | socketDisconnected
  | socketStopRetry
  deriving DecidableEq

structure Tls where
  /-- Whether there is an `m_ssl`. -/
  ssl : Bool
  secureReady : Bool
  fatal : Bool
  secureReadRetry : ℕ
  secureWriteRetry : ℕ
  doWriteRetry : Bool
  doWriteRetrySize : ℕ
  /-- As long as it was allocated. -/
  doWriteRetryBuffer : List UInt8
  /-- Ghost: `disconnect` has been called. -/
  disconnected : Bool

def Tls.new : Tls where
  ssl := true
  secureReady := false
  fatal := false
  secureReadRetry := 0
  secureWriteRetry := 0
  doWriteRetry := false
  doWriteRetrySize := 0
  doWriteRetryBuffer := []
  disconnected := false

structure Socket where
  /-- Whether it is a `SecureSocket`; if not, `tls` is not used. -/
  secure : Bool
  /-- Whether there is an `m_socket`. -/
  socket : Bool
  connected : Bool
  readable : Bool
  writable : Bool
  inputBuffer : StreamBuffer
  outputBuffer : StreamBuffer
  isFlushed : Bool
  tls : Tls
  events : List SocketEvent

inductive Job
  | connecting (readable writable : Bool)
  | connected (readable writable : Bool)
  | handshake (readable writable : Bool)
  deriving DecidableEq

/-- `EJobResult`. -/
inductive JobResult
  | kBreak
  | kRetry
  | kNew
  deriving DecidableEq

/-- The exceptions that are told apart, of those thrown on errors of the network. -/
inductive NetworkError
  | shutdown
  | disconnected
  | other
  deriving DecidableEq

/-- What `SSL_get_error` returns if a call has not succeeded. -/
inductive SslError
  | zeroReturn
  | wantRead
  | wantWrite
  | wantConnect
  | wantAccept
  | syscall
  | ssl
  | unknown
  deriving DecidableEq

def SslError.retries : SslError → Bool
  | wantRead | wantWrite | wantConnect | wantAccept => true
  | zeroReturn | syscall | ssl | unknown => false

abbrev SocketRead := Except NetworkError (List UInt8)
abbrev SocketWrite := Except NetworkError ℕ
abbrev SslRead := Except SslError (List UInt8)
abbrev SslWrite := Except SslError ℕ

def maxInputBufferSize : ℕ := 1024 * 1024

namespace Socket

def new (secure : Bool) : Socket where
  secure := secure
  socket := true
  connected := true
  readable := true
  writable := true
  inputBuffer := .clear
  outputBuffer := .clear
  isFlushed := true
  tls := .new
  events := []

def sendEvent (s : Socket) (e : SocketEvent) : Socket := { s with events := s.events ++ [e] }

def onInputShutdown (s : Socket) : Socket := { s with inputBuffer := .clear, readable := false }

def onOutputShutdown (s : Socket) : Socket := { s with outputBuffer := .clear, writable := false, isFlushed := true }

def onDisconnected (s : Socket) : Socket := { s.onInputShutdown.onOutputShutdown with connected := false }

def newJob (s : Socket) : Option Job :=
  if s.secure && s.connected && !s.tls.secureReady then none
  else if !s.socket then none
  else if !s.connected then
    if s.readable || s.writable then some (.connecting s.readable s.writable) else none
  else
    let writable := s.writable && decide (0 < s.outputBuffer.getSize)
    if s.readable || writable then some (.connected s.readable writable) else none

/-- The locked part of `close`. -/
def close (s : Socket) : Socket :=
  let s := if s.connected then s.sendEvent .socketDisconnected else s
  { s.onDisconnected with socket := false }

/-- Input ended or was read up when there was no more output. -/
def loseConnection (s : Socket) : Socket := { s.sendEvent .socketDisconnected with connected := false }

def read (s : Socket) (n : ℕ) : List UInt8 × Socket :=
  let n := min n s.inputBuffer.getSize
  let (bytes, buffer) := s.inputBuffer.peek n
  let s := { s with inputBuffer := buffer.pop n }
  (bytes, if 0 < n ∧ s.inputBuffer.getSize = 0 ∧ !s.readable ∧ !s.writable then s.loseConnection else s)

/-- The locked part of `write`, and the job that is to be set behind it, if any is. -/
def write (s : Socket) (data : List UInt8) : Socket × Option (Option Job) :=
  if !s.writable then (s.sendEvent .streamOutputError, none)
  else if data = [] then (s, none)
  else
    let wasEmpty := s.outputBuffer.getSize = 0
    let s := { s with outputBuffer := s.outputBuffer.write data, isFlushed := false }
    (s, if wasEmpty then some s.newJob else none)

/-- The locked part of `shutdownInput`, and whether a new job is set behind it. -/
def shutdownInput (s : Socket) : Socket × Bool :=
  if s.readable then ((s.sendEvent .streamInputShutdown).onInputShutdown, true) else (s, false)

def shutdownOutput (s : Socket) : Socket × Bool :=
  if s.writable then ((s.sendEvent .streamOutputShutdown).onOutputShutdown, true) else (s, false)

def discardWrittenData (s : Socket) (bytesWrote : ℕ) : Socket :=
  let s := { s with outputBuffer := s.outputBuffer.pop bytesWrote }
  if s.outputBuffer.getSize = 0 then { s.sendEvent .streamOutputFlushed with isFlushed := true } else s

def hangUp (s : Socket) : Socket :=
  let s := s.sendEvent .streamInputShutdown
  let s := if !s.writable ∧ s.inputBuffer.getSize = 0 then s.loseConnection else s
  { s with readable := false }

/-- What a pass over a socket comes to: its result, or the exception thrown, and the reads that were not made. -/
structure Serviced (α : Type) where
  result : Except NetworkError JobResult
  socket : Socket
  reads : List α

/-- The loop of `TCPSocket::doRead`, with the bytes read last. -/
def slurp : List SocketRead → Socket → List UInt8 → Serviced SocketRead
  | [], s, buffer => ⟨.ok .kRetry, { s with inputBuffer := s.inputBuffer.write buffer }, []⟩
  | read :: reads, s, buffer =>
    let s := { s with inputBuffer := s.inputBuffer.write buffer }
    if maxInputBufferSize < s.inputBuffer.getSize then ⟨.ok .kRetry, s, read :: reads⟩
    else
      match read with
      | .error e => ⟨.error e, s, reads⟩
      | .ok bytes => if bytes ≠ [] then slurp reads s bytes else ⟨.ok .kRetry, s, reads⟩

/-- A read returns nothing if nothing has arrived, or at the end of the input. -/
def doReadTcp (s : Socket) (reads : List SocketRead) : Serviced SocketRead :=
  match reads.headD (.ok []) with
  | .error e => ⟨.error e, s, reads.tail⟩
  | .ok bytes =>
    if bytes ≠ [] then
      let wasEmpty := s.inputBuffer.getSize = 0
      let r := slurp reads.tail s bytes
      match r.result with
      | .error e => ⟨.error e, r.socket, r.reads⟩
      | .ok result => ⟨.ok result, if wasEmpty then r.socket.sendEvent .streamInputReady else r.socket, r.reads⟩
    else ⟨.ok .kNew, s.hangUp, reads.tail⟩

def doWriteTcp (s : Socket) (wrote : SocketWrite) : Except NetworkError JobResult × Socket :=
  match wrote with
  | .error e => (.error e, s)
  | .ok bytesWrote => if 0 < bytesWrote then (.ok .kNew, s.discardWrittenData bytesWrote) else (.ok .kRetry, s)

def disconnect (s : Socket) : Socket :=
  let s := ((s.sendEvent .socketStopRetry).sendEvent .socketDisconnected).sendEvent .streamInputShutdown
  { s with tls := { s.tls with disconnected := true } }

def setFatal (s : Socket) : Socket := { s with tls := { s.tls with fatal := true } }

def checkResult (s : Socket) (error : Option SslError) (retry : ℕ) : Socket × ℕ :=
  let (s, retry) :=
    match error with
    | none => (s, 0)
    | some .wantWrite => ({ s with writable := true }, retry + 1)
    | some e => if e.retries then (s, retry + 1) else (s.setFatal, retry)
  if s.tls.fatal then (s.disconnect, 0) else (s, retry)

structure SslDone where
  status : ℤ
  bytes : List UInt8
  socket : Socket

def secureRead (s : Socket) (result : SslRead) (buffer : List UInt8) : SslDone :=
  if s.tls.ssl then
    let (error, bytes) :=
      match result with
      | .ok bytes => (none, bytes)
      | .error e => (some e, [])
    let (s, retry) := s.checkResult error s.tls.secureReadRetry
    let s := { s with tls := { s.tls with secureReadRetry := retry } }
    ⟨if retry ≠ 0 then 0 else if s.tls.fatal then -1 else bytes.length, bytes, s⟩
  else ⟨buffer.length, buffer, s⟩

/-- The loop of `SecureSocket::doRead`. When TLS has nothing more it wants to read. -/
def slurpSecure {α : Type} (f : α → SslRead) : List α → Socket → List UInt8 → JobResult × Socket × List α
  | [], s, buffer =>
    let s := { s with inputBuffer := s.inputBuffer.write buffer }
    if maxInputBufferSize < s.inputBuffer.getSize then (.kRetry, s, [])
    else
      let r := s.secureRead (.error .wantRead) buffer
      (if r.status < 0 then .kBreak else .kRetry, r.socket, [])
  | read :: reads, s, buffer =>
    let s := { s with inputBuffer := s.inputBuffer.write buffer }
    if maxInputBufferSize < s.inputBuffer.getSize then (.kRetry, s, read :: reads)
    else
      let r := s.secureRead (f read) buffer
      if r.status < 0 then (.kBreak, r.socket, reads)
      else if r.bytes ≠ [] ∨ 0 < r.status then slurpSecure f reads r.socket r.bytes
      else (.kRetry, r.socket, reads)

def doReadSecure {α : Type} (f : α → SslRead) (s : Socket) (reads : List α) : JobResult × Socket × List α :=
  if !s.tls.secureReady then (.kRetry, s, reads)
  else
    let r := s.secureRead ((reads.head?.map f).getD (.error .wantRead)) []
    let reads := if s.tls.ssl then reads.tail else reads
    if r.status < 0 then (.kBreak, r.socket, reads)
    else if r.status = 0 then (.kNew, r.socket, reads)
    else if r.bytes ≠ [] then
      let wasEmpty := r.socket.inputBuffer.getSize = 0
      let (result, s, reads) := slurpSecure f reads r.socket r.bytes
      if result = .kBreak then (.kBreak, s, reads)
      else (.kRetry, if wasEmpty then s.sendEvent .streamInputReady else s, reads)
    else (.kNew, r.socket.hangUp, reads)

/-- The bytes that are handed to TLS and how many. A write that is retried gets those of the first try. -/
def retryBuffer (s : Socket) : Socket × ℕ :=
  if s.tls.doWriteRetry then (s, s.tls.doWriteRetrySize)
  else
    let bufferSize := s.outputBuffer.getSize
    let old := s.tls.doWriteRetryBuffer
    let allocated := if old.length < bufferSize then [] else old
    let (bytes, buffer) := s.outputBuffer.peek bufferSize
    ({ s with
        outputBuffer := buffer
        tls := { s.tls with doWriteRetryBuffer := bytes ++ allocated.drop bytes.length } }, bufferSize)

def secureWrite (s : Socket) (result : SslWrite) : ℤ × ℕ × Socket :=
  if s.tls.ssl then
    let (error, wrote) :=
      match result with
      | .ok wrote => (none, wrote)
      | .error e => (some e, 0)
    let (s, retry) := s.checkResult error s.tls.secureWriteRetry
    let s := { s with tls := { s.tls with secureWriteRetry := retry } }
    (if retry ≠ 0 then 0 else if s.tls.fatal then -1 else wrote, wrote, s)
  else (0, 0, s)

def doWriteSecure (s : Socket) (result : SslWrite) : JobResult × Socket :=
  if !s.tls.secureReady then (.kRetry, s)
  else
    let (s, bufferSize) := s.retryBuffer
    if bufferSize = 0 then (.kRetry, s)
    else
      let (status, bytesWrote, s) := s.secureWrite result
      if 0 < status then
        let s := { s with tls := { s.tls with doWriteRetry := false } }
        if 0 < bytesWrote then (.kNew, s.discardWrittenData bytesWrote) else (.kRetry, s)
      else if status < 0 then (.kBreak, s)
      else (.kNew, { s with tls := { s.tls with doWriteRetry := true, doWriteRetrySize := bufferSize } })

section Results

variable {s : Socket}

def failureEvents : List SocketEvent := [.socketStopRetry, .socketDisconnected, .streamInputShutdown]

lemma disconnect_events (s : Socket) : s.disconnect.events = s.events ++ failureEvents := by
  simp [disconnect, sendEvent, failureEvents]

lemma checkResult_none (hfatal : s.tls.fatal = false) (retry : ℕ) : s.checkResult none retry = (s, 0) := by
  simp [checkResult, hfatal]

lemma checkResult_retries (hfatal : s.tls.fatal = false) {e : SslError} (he : e.retries = true) (retry : ℕ) :
    ∃ writable, s.checkResult (some e) retry = ({ s with writable := writable }, retry + 1) := by
  cases e with
  | wantWrite => exact ⟨true, by simp [checkResult, hfatal]⟩
  | wantRead | wantConnect | wantAccept =>
    exact ⟨s.writable, by simp [checkResult, SslError.retries, hfatal]⟩
  | zeroReturn | syscall | ssl | unknown => exact absurd he Bool.false_ne_true

lemma checkResult_fatal {e : SslError} (he : e.retries = false) (retry : ℕ) :
    s.checkResult (some e) retry = (s.setFatal.disconnect, 0) := by
  cases e with
  | wantWrite | wantRead | wantConnect | wantAccept => exact absurd he.symm Bool.false_ne_true
  | zeroReturn | syscall | ssl | unknown => simp [checkResult, SslError.retries, setFatal]

lemma checkResult_of_fatal (hfatal : s.tls.fatal = true) (error : Option SslError) (retry : ℕ) :
    ∃ writable, s.checkResult error retry = ({ s with writable := writable }.disconnect, 0) := by
  have hsame : s.setFatal = s := by rw [setFatal, ← hfatal]
  match error with
  | none => exact ⟨s.writable, by simp [checkResult, hfatal]⟩
  | some .wantWrite => exact ⟨true, by simp [checkResult, hfatal]⟩
  | some .wantRead | some .wantConnect | some .wantAccept | some .zeroReturn | some .syscall | some .ssl
  | some .unknown => exact ⟨s.writable, by simp [checkResult, SslError.retries, hsame, hfatal]⟩

structure Undisturbed (s t : Socket) : Prop where
  socket : t.socket = s.socket
  connected : t.connected = s.connected
  readable : t.readable = s.readable
  ssl : t.tls.ssl = s.tls.ssl
  secureReady : t.tls.secureReady = s.tls.secureReady

lemma Undisturbed.refl (s : Socket) : Undisturbed s s := ⟨rfl, rfl, rfl, rfl, rfl⟩

lemma Undisturbed.trans {t u : Socket} (h : Undisturbed s t) (h' : Undisturbed t u) : Undisturbed s u :=
  ⟨h'.socket.trans h.socket, h'.connected.trans h.connected, h'.readable.trans h.readable, h'.ssl.trans h.ssl,
    h'.secureReady.trans h.secureReady⟩

lemma disconnect_undisturbed (s : Socket) : Undisturbed s s.disconnect ∧ s.disconnect.inputBuffer = s.inputBuffer := by
  rw [disconnect, sendEvent, sendEvent, sendEvent]
  exact ⟨⟨rfl, rfl, rfl, rfl, rfl⟩, rfl⟩

lemma checkResult_undisturbed (s : Socket) (error : Option SslError) (retry : ℕ) :
    Undisturbed s (s.checkResult error retry).1 ∧ (s.checkResult error retry).1.inputBuffer = s.inputBuffer := by
  have hwritable (writable : Bool) : Undisturbed s { s with writable := writable } := ⟨rfl, rfl, rfl, rfl, rfl⟩
  have hset : Undisturbed s s.setFatal := ⟨rfl, rfl, rfl, rfl, rfl⟩
  cases hfatal : s.tls.fatal with
  | true =>
    obtain ⟨writable, hcheck⟩ := checkResult_of_fatal hfatal error retry
    rw [hcheck]
    obtain ⟨hdisconnect, hinput⟩ := disconnect_undisturbed { s with writable := writable }
    exact ⟨(hwritable writable).trans hdisconnect, hinput⟩
  | false =>
    cases error with
    | none =>
      rw [checkResult_none hfatal]
      exact ⟨.refl s, rfl⟩
    | some e =>
      cases he : e.retries with
      | true =>
        obtain ⟨writable, hcheck⟩ := checkResult_retries hfatal he retry
        rw [hcheck]
        exact ⟨hwritable writable, rfl⟩
      | false =>
        rw [checkResult_fatal he]
        obtain ⟨hdisconnect, hinput⟩ := disconnect_undisturbed s.setFatal
        exact ⟨hset.trans hdisconnect, hinput⟩

lemma secureRead_undisturbed (s : Socket) (result : SslRead) (buffer : List UInt8) :
    Undisturbed s (s.secureRead result buffer).socket ∧
      (s.secureRead result buffer).socket.inputBuffer = s.inputBuffer := by
  by_cases hssl : s.tls.ssl = true
  · cases result with
    | ok bytes =>
      rw [secureRead, if_pos hssl]
      obtain ⟨h, hinput⟩ := s.checkResult_undisturbed none s.tls.secureReadRetry
      exact ⟨⟨h.socket, h.connected, h.readable, h.ssl, h.secureReady⟩, hinput⟩
    | error e =>
      rw [secureRead, if_pos hssl]
      obtain ⟨h, hinput⟩ := s.checkResult_undisturbed (some e) s.tls.secureReadRetry
      exact ⟨⟨h.socket, h.connected, h.readable, h.ssl, h.secureReady⟩, hinput⟩
  · rw [secureRead.eq_def, if_neg hssl]
    exact ⟨.refl s, rfl⟩

lemma slurpSecure_undisturbed {α : Type} (f : α → SslRead) (reads : List α) (s : Socket) (buffer : List UInt8) :
    Undisturbed s (slurpSecure f reads s buffer).2.1 := by
  induction reads generalizing s buffer with
  | nil =>
    rw [slurpSecure]
    have hwrite : Undisturbed s { s with inputBuffer := s.inputBuffer.write buffer } := ⟨rfl, rfl, rfl, rfl, rfl⟩
    generalize { s with inputBuffer := s.inputBuffer.write buffer } = t at hwrite ⊢
    have hread := hwrite.trans (secureRead_undisturbed t (.error .wantRead) buffer).1
    by_cases hfull : maxInputBufferSize < t.inputBuffer.getSize
    · rw [if_pos hfull]
      exact hwrite
    · rw [if_neg hfull]
      exact hread
  | cons read reads ih =>
    rw [slurpSecure]
    have hwrite : Undisturbed s { s with inputBuffer := s.inputBuffer.write buffer } := ⟨rfl, rfl, rfl, rfl, rfl⟩
    generalize { s with inputBuffer := s.inputBuffer.write buffer } = t at hwrite ⊢
    have hread := hwrite.trans (secureRead_undisturbed t (f read) buffer).1
    dsimp only
    generalize t.secureRead (f read) buffer = r at hread ⊢
    split_ifs
    · exact hwrite
    · exact hread
    · exact hread.trans (ih _ _)
    · exact hread

lemma secureRead_ok (hssl : s.tls.ssl = true) (hfatal : s.tls.fatal = false) (bytes buffer : List UInt8) :
    s.secureRead (.ok bytes) buffer =
      ⟨bytes.length, bytes, { s with tls := { s.tls with secureReadRetry := 0 } }⟩ := by
  rw [secureRead, if_pos hssl]
  dsimp only
  rw [checkResult_none hfatal]
  simp [hfatal]

lemma secureRead_retries (hssl : s.tls.ssl = true) (hfatal : s.tls.fatal = false) {e : SslError}
    (he : e.retries = true) (buffer : List UInt8) : ∃ t, s.secureRead (.error e) buffer = ⟨0, [], t⟩ ∧
      t.inputBuffer = s.inputBuffer ∧ t.events = s.events ∧ t.tls.fatal = false := by
  obtain ⟨writable, hcheck⟩ := checkResult_retries hfatal he s.tls.secureReadRetry
  rw [secureRead, if_pos hssl]
  dsimp only
  rw [hcheck]
  exact ⟨_, rfl, rfl, rfl, hfatal⟩

lemma secureRead_fatal (hssl : s.tls.ssl = true) {e : SslError} (he : e.retries = false) (buffer : List UInt8) :
    ∃ t, s.secureRead (.error e) buffer = ⟨-1, [], t⟩ ∧ t.inputBuffer = s.inputBuffer ∧
      t.events = s.events ++ failureEvents ∧ t.tls.fatal = true := by
  rw [secureRead, if_pos hssl]
  dsimp only
  rw [checkResult_fatal he]
  have hevents : s.setFatal.disconnect.events = s.events ++ failureEvents := disconnect_events s.setFatal
  have hinput : s.setFatal.disconnect.inputBuffer = s.inputBuffer := (disconnect_undisturbed s.setFatal).2
  have hfatal : s.setFatal.disconnect.tls.fatal = true := by
    rw [disconnect]
    rfl
  generalize s.setFatal.disconnect = t at hevents hinput hfatal ⊢
  refine ⟨{ t with tls := { t.tls with secureReadRetry := 0 } }, ?_, hinput, hevents, hfatal⟩
  simp [hfatal]

lemma secureRead_of_fatal (hssl : s.tls.ssl = true) (hfatal : s.tls.fatal = true) (result : SslRead)
    (buffer : List UInt8) : (s.secureRead result buffer).status = -1 ∧
      (s.secureRead result buffer).socket.events = s.events ++ failureEvents ∧
      (s.secureRead result buffer).socket.tls.fatal = true := by
  cases result with
  | ok bytes =>
    obtain ⟨writable, hcheck⟩ := checkResult_of_fatal hfatal none s.tls.secureReadRetry
    rw [secureRead, if_pos hssl]
    dsimp only
    rw [hcheck]
    exact ⟨by simp [disconnect, sendEvent, hfatal], disconnect_events _, hfatal⟩
  | error e =>
    obtain ⟨writable, hcheck⟩ := checkResult_of_fatal hfatal (some e) s.tls.secureReadRetry
    rw [secureRead, if_pos hssl]
    dsimp only
    rw [hcheck]
    exact ⟨by simp [disconnect, sendEvent, hfatal], disconnect_events _, hfatal⟩

end Results

end Socket

end InputLeap.Net
