import InputLeap.Lib.Reachable
import InputLeap.Net.Socket

/-! A connection with the job that it has in the multiplexer. The threads that use it take its lock in turns, and some of
them set its job when they no longer hold the lock. -/

namespace InputLeap.Net

open InputLeap.Lib InputLeap.Io

structure Pass where
  read : Bool
  write : Bool
  error : Bool
  wrote : SocketWrite
  reads : List SocketRead
  sslWrote : SslWrite
  sslReads : List SslRead

inductive Continued
  | stop
  | keep
  | new (job : Job)

inductive Handshake
  | connect
  | accept (authenticated : Bool)
  deriving DecidableEq

namespace Socket

def newJobOrStopServicing (s : Socket) : Continued :=
  match s.newJob with
  | some job => .new job
  | none => .stop

/-- `doWrite` with the exceptions that it throws. -/
def serviceWrite (s : Socket) (p : Pass) : JobResult × Socket :=
  if s.secure then s.doWriteSecure p.sslWrote
  else
    match s.doWriteTcp p.wrote with
    | (.ok result, s) => (result, s)
    | (.error .shutdown, s) =>
      let s := s.onOutputShutdown.sendEvent .streamOutputShutdown
      (.kNew, if !s.readable ∧ s.inputBuffer.getSize = 0 then s.loseConnection else s)
    | (.error .disconnected, s) => (.kNew, s.onDisconnected.sendEvent .socketDisconnected)
    | (.error .other, s) => (.kNew, (s.onDisconnected.sendEvent .streamOutputError).sendEvent .socketDisconnected)

/-- `doRead` with the exceptions that it throws, and the reads through TLS that were not made. -/
def serviceRead (s : Socket) (p : Pass) : JobResult × Socket × List SslRead :=
  if s.secure then s.doReadSecure id p.sslReads
  else
    let r := s.doReadTcp p.reads
    match r.result with
    | .ok result => (result, r.socket, p.sslReads)
    | .error .disconnected => (.kNew, (r.socket.sendEvent .socketDisconnected).onDisconnected, p.sslReads)
    | .error .shutdown | .error .other => (.kRetry, r.socket, p.sslReads)

def serviceConnected (s : Socket) (p : Pass) : Continued × Socket × List SslRead :=
  if !s.socket then (.stop, s, p.sslReads)
  else if p.error then
    let s := (s.sendEvent .socketDisconnected).onDisconnected
    (s.newJobOrStopServicing, s, p.sslReads)
  else
    let (writeResult, s) := if p.write then s.serviceWrite p else (.kRetry, s)
    let (readResult, s, left) := if p.read && s.readable then s.serviceRead p else (.kRetry, s, p.sslReads)
    if writeResult = .kBreak ∨ readResult = .kBreak then (.stop, s, left)
    else if writeResult = .kNew ∨ readResult = .kNew then (s.newJobOrStopServicing, s, left)
    else (.keep, s, left)

/-- `secureAccept` or `secureConnect`: whether it has failed (below 0), is to be tried again or has succeeded. -/
def secureHandshake (s : Socket) (h : Handshake) (result : Option SslError) (trusted : Bool) : ℤ × Socket :=
  let (s, retry) := s.checkResult result 0
  if s.tls.fatal then
    (-1, match h with
      | .accept _ => { s with tls := { s.tls with secureReady := false } }
      | .connect => s)
  else if 0 < retry then (0, { s with tls := { s.tls with secureReady := false } })
  else
    match h with
    | .accept authenticated =>
      if authenticated && !trusted then (-1, s.disconnect) else (1, { s with tls := { s.tls with secureReady := true } })
    | .connect =>
      let s := { s with tls := { s.tls with secureReady := true } }
      if !trusted then (-1, s.disconnect) else (1, s)

/-- `serviceAccept` or `serviceConnect`. -/
def serviceHandshake (s : Socket) (h : Handshake) (result : Option SslError) (trusted : Bool) : Continued × Socket :=
  if !s.socket then (.stop, s)
  else
    let (status, s) := s.secureHandshake h result trusted
    if status < 0 then (.stop, s)
    else if 0 < status then
      let s := s.sendEvent <|
        match h with
        | .accept _ => .clientListenerAccepted
        | .connect => .dataSocketSecureConnected
      (s.newJobOrStopServicing, s)
    else (.new (.handshake s.readable s.writable), s)

end Socket

inductive ClosePlace
  | outside
  | fatal
  | freed
  | removed
  deriving DecidableEq

structure Connection where
  socket : Socket
  /-- The job in the multiplexer. -/
  job : Option Job
  /-- How many threads are about to make a new job and set it. -/
  making : ℕ
  /-- The jobs that threads are about to set. -/
  setting : List (Option Job)
  closing : ClosePlace

inductive ConnectionStep
  | read (n : ℕ)
  | write (data : List UInt8)
  | shutdownInput
  | shutdownOutput
  | makeJob
  | setJob (job : Option Job)
  /-- `secureAccept` or `secureConnect`, the ones that only set the job. -/
  | secure
  | closeFatal
  | closeFree
  | closeRemove
  | closeLocked
  | service (p : Pass)
  | handshake (h : Handshake) (result : Option SslError) (trusted : Bool)

namespace Connection

def new (secure : Bool) : Connection := ⟨.new secure, some (.connected true false), 0, [], .outside⟩

def continued (c : Connection) (s : Socket) : Continued → Connection
  | .stop => { c with socket := s, job := none }
  | .keep => { c with socket := s }
  | .new job => { c with socket := s, job := some job }

/-- A pass comes with the reads that it makes and no more, and a handshake finds an `m_ssl`. -/
def next (c : Connection) : ConnectionStep → Option Connection
  | .read n => some { c with socket := (c.socket.read n).2 }
  | .write data =>
    let (s, job) := c.socket.write data
    some { c with socket := s, setting := c.setting ++ job.toList }
  | .shutdownInput =>
    let (s, useNewJob) := c.socket.shutdownInput
    some { c with socket := s, making := c.making + if useNewJob then 1 else 0 }
  | .shutdownOutput =>
    let (s, useNewJob) := c.socket.shutdownOutput
    some { c with socket := s, making := c.making + if useNewJob then 1 else 0 }
  | .makeJob =>
    if 0 < c.making then some { c with making := c.making - 1, setting := c.setting ++ [c.socket.newJob] } else none
  | .setJob job => if job ∈ c.setting then some { c with job := job, setting := c.setting.erase job } else none
  | .secure =>
    if c.socket.secure then some { c with job := some (.handshake c.socket.readable c.socket.writable) } else none
  | .closeFatal =>
    if c.closing = .outside ∧ c.socket.secure then some { c with socket := c.socket.setFatal, closing := .fatal } else none
  | .closeFree =>
    if c.closing = .fatal then
      some { c with socket := { c.socket with tls := { c.socket.tls with ssl := false } }, closing := .freed }
    else none
  | .closeRemove =>
    if c.closing = .freed ∨ c.closing = .outside ∧ !c.socket.secure then some { c with job := none, closing := .removed }
    else none
  | .closeLocked => if c.closing = .removed then some { c with socket := c.socket.close, closing := .outside } else none
  | .service p =>
    match c.job with
    | some (.connected _ _) =>
      let (result, s, left) := c.socket.serviceConnected p
      if left ≠ [] then none else some (c.continued s result)
    | _ => none
  | .handshake h result trusted =>
    match c.job with
    | some (.handshake _ _) =>
      if c.socket.secure ∧ c.socket.tls.ssl then
        let (result, s) := c.socket.serviceHandshake h result trusted
        some (c.continued s result)
      else none
    | _ => none

end Connection

end InputLeap.Net
