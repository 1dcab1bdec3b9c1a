import InputLeap.Protocol.FileTransfer
import InputLeap.Protocol.MessageCodes

/-! The messages of a server to one of its clients: what the connection to the client writes for each
function that is called on it. -/

namespace InputLeap.Protocol

open InputLeap.Lib ProtocolUtil

inductive CloseReason
  | close
  | busy
  | unknown
  deriving DecidableEq

/-- The functions of the connection to a client, and what the proxy of a client that is not known yet
writes when it gives up. -/
inductive ServerSend
  | queryInfo
  | enter (xAbs yAbs seqNum mask : BitVec 32)
  | leave
  | keyDown (key mask : BitVec 32) (button : BitVec 16)
  | keyUp (key mask : BitVec 32) (button : BitVec 16)
  | keyRepeat (key mask count : BitVec 32) (button : BitVec 16)
  | mouseDown (button : BitVec 8)
  | mouseUp (button : BitVec 8)
  | mouseMove (xAbs yAbs : BitVec 32)
  | mouseRelativeMove (xRel yRel : BitVec 32)
  | mouseWheel (xDelta yDelta : BitVec 32)
  | dragInfo (fileCount : BitVec 32) (data : List UInt8)
  | screensaver (on : Bool)
  | resetOptions
  | setOptions (options : List (BitVec 32))
  | infoAck
  | keepAlive
  | close (msg : CloseReason)
  | clipboardChunk (chunk : ClipboardChunk)
  | fileChunk (chunk : FileChunk)
  | grabClipboard (id : UInt8)
  | dimScreen (dim : Bool)
  | lockState (locked : Bool)
  | incompatible (major minor : BitVec 32)
  | bad
  deriving DecidableEq

namespace ServerSend

def code : ServerSend → MessageCode
  | queryInfo => .qInfo
  | enter .. => .cEnter
  | leave => .cLeave
  | keyDown .. => .dKeyDown
  | keyUp .. => .dKeyUp
  | keyRepeat .. => .dKeyRepeat
  | mouseDown _ => .dMouseDown
  | mouseUp _ => .dMouseUp
  | mouseMove .. => .dMouseMove
  | mouseRelativeMove .. => .dMouseRelMove
  | mouseWheel .. => .dMouseWheel
  | dragInfo .. => .dDragInfo
  | screensaver _ => .cScreenSaver
  | resetOptions => .cResetOptions
  | setOptions _ => .dSetOptions
  | infoAck => .cInfoAck
  | keepAlive => .cKeepAlive
  | close .close => .cClose
  | close .busy => .eBusy
  | close .unknown => .eUnknown
  | clipboardChunk _ => .dClipboard
  | fileChunk _ => .dFileTransfer
  | grabClipboard _ => .cClipboard
  | dimScreen _ => .cDimScreen
  | lockState _ => .cLockState
  | incompatible .. => .eIncompatible
  | bad => .eBad

def args : ServerSend → List Arg
  | enter xAbs yAbs seqNum mask => [.int ⟨xAbs⟩, .int ⟨yAbs⟩, .int ⟨seqNum⟩, .int ⟨mask⟩]
  | keyDown key mask button => [.int ⟨key⟩, .int ⟨mask⟩, .int ⟨button.setWidth 32⟩]
  | keyUp key mask button => [.int ⟨key⟩, .int ⟨mask⟩, .int ⟨button.setWidth 32⟩]
  | keyRepeat key mask count button => [.int ⟨key⟩, .int ⟨mask⟩, .int ⟨count⟩, .int ⟨button.setWidth 32⟩]
  | mouseDown button => [.int ⟨button.setWidth 32⟩]
  | mouseUp button => [.int ⟨button.setWidth 32⟩]
  | mouseMove xAbs yAbs => [.int ⟨xAbs⟩, .int ⟨yAbs⟩]
  | mouseRelativeMove xRel yRel => [.int ⟨xRel⟩, .int ⟨yRel⟩]
  | mouseWheel xDelta yDelta => [.int ⟨xDelta⟩, .int ⟨yDelta⟩]
  | dragInfo fileCount data => [.int ⟨fileCount⟩, .string (some data)]
  | screensaver on => [.int (if on then 1 else 0)]
  | setOptions options => [.list .four options]
  | clipboardChunk chunk =>
    [.int chunk.id.toUInt32, .int chunk.sequence, .int chunk.mark.toUInt32, .string (some chunk.data)]
  | fileChunk chunk => [.int chunk.mark.toUInt32, .string (some chunk.data)]
  | grabClipboard id => [.int id.toUInt32, .int 0]
  | dimScreen dim => [.int (if dim then 1 else 0)]
  | lockState locked => [.int (if locked then 1 else 0)]
  | incompatible major minor => [.int ⟨major⟩, .int ⟨minor⟩]
  | queryInfo | leave | resetOptions | infoAck | keepAlive | close _ | bad => []

def written (m : ServerSend) : Option (List UInt8) := writef m.code.format m.args

/-- What fits into the limits of the reader, which the writer does not look at. -/
def Sendable : ServerSend → Prop
  | dragInfo _ data => data.length ≤ maxStringLength
  | setOptions options => 8 + 4 * options.length ≤ maxMessageLength
  | clipboardChunk chunk => chunk.data.length ≤ maxStringLength
  | fileChunk chunk => chunk.data.length ≤ maxStringLength
  | _ => True

section Fields

def fields : ServerSend → List Field
  | enter xAbs yAbs seqNum mask => [.int .two ⟨xAbs⟩, .int .two ⟨yAbs⟩, .int .four ⟨seqNum⟩, .int .two ⟨mask⟩]
  | keyDown key mask button => [.int .two ⟨key⟩, .int .two ⟨mask⟩, .int .two ⟨button.setWidth 32⟩]
  | keyUp key mask button => [.int .two ⟨key⟩, .int .two ⟨mask⟩, .int .two ⟨button.setWidth 32⟩]
  | keyRepeat key mask count button =>
    [.int .two ⟨key⟩, .int .two ⟨mask⟩, .int .two ⟨count⟩, .int .two ⟨button.setWidth 32⟩]
  | mouseDown button => [.int .one ⟨button.setWidth 32⟩]
  | mouseUp button => [.int .one ⟨button.setWidth 32⟩]
  | mouseMove xAbs yAbs => [.int .two ⟨xAbs⟩, .int .two ⟨yAbs⟩]
  | mouseRelativeMove xRel yRel => [.int .two ⟨xRel⟩, .int .two ⟨yRel⟩]
  | mouseWheel xDelta yDelta => [.int .two ⟨xDelta⟩, .int .two ⟨yDelta⟩]
  | dragInfo fileCount data => [.int .two ⟨fileCount⟩, .string data]
  | screensaver on => [.int .one (if on then 1 else 0)]
  | setOptions options => [.list .four options]
  | clipboardChunk chunk => chunk.fields
  | fileChunk chunk => [.int .one chunk.mark.toUInt32, .string chunk.data]
  | grabClipboard id => [.int .one id.toUInt32, .int .four 0]
  | dimScreen dim => [.int .one (if dim then 1 else 0)]
  | lockState locked => [.int .one (if locked then 1 else 0)]
  | incompatible major minor => [.int .two ⟨major⟩, .int .two ⟨minor⟩]
  | queryInfo | leave | resetOptions | infoAck | keepAlive | close _ | bad => []

def payload (m : ServerSend) : List UInt8 := m.fields.flatMap Field.bytes

variable {m : ServerSend}

lemma fields_valid (h : m.Sendable) : ∀ f ∈ m.fields, f.Valid := by
  cases m with
  | dragInfo fileCount data => exact List.forall_mem_cons.mpr ⟨trivial, List.forall_mem_singleton.mpr h⟩
  | setOptions options =>
    refine List.forall_mem_singleton.mpr ?_
    simp only [Sendable, maxMessageLength] at h
    change options.length ≤ 1024 * 1024
    omega
  | clipboardChunk chunk => exact ClipboardChunk.fields_valid h
  | fileChunk chunk => exact List.forall_mem_cons.mpr ⟨trivial, List.forall_mem_singleton.mpr h⟩
  | _ => simp [fields, Field.Valid]

lemma args_eq (m : ServerSend) : m.args = m.fields.flatMap Field.args := by
  cases m <;> rfl

lemma body_eq (m : ServerSend) : m.code.body = m.fields.flatMap Field.format := by
  cases m with
  | close msg => cases msg <;> rfl
  | _ => rfl

lemma payload_length_le (h : m.Sendable) : m.payload.length ≤ maxMessageLength - 4 := by
  cases m with
  | dragInfo fileCount data =>
    simp only [Sendable, maxStringLength] at h
    simp [payload, fields, Field.bytes, Width.toNat, maxMessageLength]
    omega
  | setOptions options =>
    have hflat : ∀ entries : List (BitVec 32),
        (entries.flatMap fun v => BigEndian.encode Width.four.toNat v.toNat).length = 4 * entries.length := by
      intro entries
      rw [List.length_flatMap]
      simp [Width.toNat, Nat.mul_comm]
    have hpayload : (setOptions options).payload.length = 4 + 4 * options.length := by
      rw [payload, fields, List.flatMap_singleton]
      change (BigEndian.encode 4 options.length ++ _).length = _
      rw [List.length_append, BigEndian.encode_length]
      exact congrArg (4 + ·) (hflat options)
    rw [hpayload]
    simp only [Sendable] at h
    omega
  | clipboardChunk chunk =>
    simp only [Sendable, maxStringLength] at h
    simp [payload, fields, ClipboardChunk.fields, Field.bytes, Width.toNat, maxMessageLength]
    omega
  | fileChunk chunk =>
    simp only [Sendable, maxStringLength] at h
    simp [payload, fields, Field.bytes, Width.toNat, maxMessageLength]
    omega
  | _ => simp [payload, fields, Field.bytes, Width.toNat, maxMessageLength]

lemma string_last (m : ServerSend) : StringLast (m.fields.map Field.item) := by
  cases m <;> simp [fields, ClipboardChunk.fields, StringLast, Field.item]

lemma written_eq (h : m.Sendable) : m.written = some (m.code.bytes ++ m.payload) := by
  have hlength := payload_length_le h
  have hlt : (m.code.bytes ++ m.payload).length < 2 ^ 32 := by
    rw [List.length_append, MessageCode.bytes_length]
    rw [maxMessageLength] at hlength
    omega
  rw [written, args_eq, ← MessageCode.format_eq, body_eq]
  exact m.code.writef_fields (fields_valid h) (string_last m) hlt

def packet (m : ServerSend) : Packet := ⟨m.code.bytes, m.fields⟩

lemma packet_bytes (h : m.Sendable) : m.written = some m.packet.bytes := written_eq h

lemma packet_wellFormed (h : m.Sendable) : m.packet.WellFormed where
  code := m.code.bytes_length
  fields := fields_valid h
  length := by
    have hcode : m.code.bytes.length = 4 := m.code.bytes_length
    have hpayload := payload_length_le h
    have hbytes : m.packet.bytes.length = m.code.bytes.length + m.payload.length := List.length_append
    rw [maxMessageLength] at hpayload ⊢
    omega

end Fields

end ServerSend

example : (ServerSend.keyDown 0x61 0x2001 0x26).written = some [68, 75, 68, 78, 0, 97, 32, 1, 0, 38] := by decide

end InputLeap.Protocol
