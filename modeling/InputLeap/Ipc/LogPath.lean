import InputLeap.Gui.CoreLines
import InputLeap.Ipc.IpcClientProxy
import InputLeap.Protocol.Writef
import Mathlib.Data.Rat.Defs

/-! In service mode the daemon sends what the core logs to the window, up to a hundred lines in one message. -/

namespace InputLeap.Ipc

open InputLeap.Lib InputLeap.Protocol InputLeap.Gui

abbrev Line := List UInt8

def kBufferMaxSize : ℕ := 1000

def kMaxSendLines : ℕ := 100

def kBufferRateWriteLimit : ℕ := 1000

def kBufferRateTimeLimit : ℚ := 1

structure IpcLogOutputter where
  buffer : List Line
  writeCount : ℕ
  rateStart : ℚ
  deriving DecidableEq

namespace IpcLogOutputter

variable (o : IpcLogOutputter)

def refuses (now : ℚ) : Bool := decide (now - o.rateStart < kBufferRateTimeLimit ∧ kBufferRateWriteLimit ≤ o.writeCount)

def full : Bool := decide (kBufferMaxSize ≤ o.buffer.length)

/-- The clock is read at `now`, and once more at `later` if a new second begins. -/
def appendBuffer (text : Line) (now later : ℚ) : IpcLogOutputter :=
  if o.refuses now then o
  else
    let o := if now - o.rateStart < kBufferRateTimeLimit then o else { o with writeCount := 0, rateStart := later }
    let buffer := if o.full then o.buffer.tail else o.buffer
    { o with buffer := buffer ++ [text], writeCount := o.writeCount + 1 }

def getChunk (count : ℕ) : List UInt8 × IpcLogOutputter :=
  ((o.buffer.take count).flatMap fun line => line ++ [CoreProcess.newline], { o with buffer := o.buffer.drop count })

end IpcLogOutputter

def logLineBytes (logLine : List UInt8) : Option (List UInt8) := ProtocolUtil.writef kIpcMsgLogLine [.string (some logLine)]

namespace IpcReader

def bytesToInt (bytes : List UInt8) : ℤ :=
  let n := BigEndian.decode bytes
  if n < 2 ^ 31 then n else n - 2 ^ 32

inductive Stop
  /-- The socket gives no more. -/
  | waiting
  | invalid
  /-- An array of negative size. -/
  | badLength
  deriving DecidableEq

variable (fromUtf8 : List UInt8 → Chars)

/-- One message. `readStream` waits for the bytes that it asks for. -/
def message : Reader Stop Chars :=
  .read 4 fun codeBuf =>
    if codeBuf = code kIpcMsgLogLine then
      .read 4 fun lenBuf =>
        if bytesToInt lenBuf < 0 then .throw .badLength
        else .read (bytesToInt lenBuf).toNat fun data => .store (fromUtf8 data) .done
    else .throw .invalid

/-- The texts that are emitted for what comes over the socket in pieces. Each message takes bytes, so there are no more of
them than bytes. -/
def read : ℕ → Pieces → List Chars
  | 0, _ => []
  | passes + 1, s =>
    if s.pieces = [] then []
    else
      let o := (message fromUtf8).run .waiting s
      match o.result with
      | .error _ => o.stored
      | .ok _ => o.stored ++ read passes o.source

end IpcReader

/-- The outputter, what it has sent to the window, and the lines that it has accepted and not thrown away. -/
structure LogPath where
  outputter : IpcLogOutputter
  wire : List UInt8
  kept : List Line
  deriving DecidableEq

inductive LogEvent
  | write (text : Line) (now later : ℚ)
  /-- The buffer thread calls `sendBuffer`. -/
  | wake (hasClients : Bool)
  deriving DecidableEq

namespace LogPath

variable (s : LogPath)

def start (rateStart : ℚ) : LogPath := ⟨⟨[], 0, rateStart⟩, [], []⟩

def sendBuffer (hasClients : Bool) : LogPath :=
  if s.outputter.buffer = [] ∨ hasClients = false then s
  else
    let chunk := s.outputter.getChunk kMaxSendLines
    { s with outputter := chunk.2, wire := s.wire ++ (logLineBytes chunk.1).getD [] }

/-- The lines that are still to be sent are the last ones that were kept, and a full buffer throws away the first of them. -/
def keep (text : Line) (now : ℚ) : List Line :=
  if s.outputter.refuses now then s.kept
  else (if s.outputter.full then s.kept.eraseIdx (s.kept.length - s.outputter.buffer.length) else s.kept) ++ [text]

def next (s : LogPath) : LogEvent → LogPath
  | .write text now later => { s with outputter := s.outputter.appendBuffer text now later, kept := s.keep text now }
  | .wake hasClients => s.sendBuffer hasClients

variable (fromUtf8 : List UInt8 → Chars)

/-- What `AppController::handleCoreLine` makes of what the service sends. -/
def serviceLines (pieces : List (List UInt8)) : List CoreLogLine :=
  (IpcReader.read fromUtf8 pieces.flatten.length ⟨pieces⟩).map CoreEventParser.splitLine

/-- What it makes of the output of a core that is a child process. -/
def childLines (chunks : List (List UInt8)) : List CoreLogLine :=
  (chunks.foldl (CoreProcess.readLines fromUtf8) ⟨[], []⟩).received.map CoreEventParser.splitLine

/-- The messages that are parsed, with those of the lines that are still in the buffer, are the lines, as they are in the
output of a child process. -/
structure Delivers (s : LogPath) : Prop where
  service (pieces : List (List UInt8)) (hnonempty : [] ∉ pieces) (hwire : pieces.flatten = s.wire) :
    serviceLines fromUtf8 pieces ++ s.outputter.buffer.map (fun line => CoreEventParser.splitLine (fromUtf8 line)) =
      s.kept.map fun line => CoreEventParser.splitLine (fromUtf8 line)
  child (chunks : List (List UInt8)) (houtput : chunks.flatten = s.kept.flatMap fun line => line ++ [CoreProcess.newline]) :
    childLines fromUtf8 chunks = s.kept.map fun line => CoreEventParser.splitLine (fromUtf8 line)

end LogPath

end InputLeap.Ipc
