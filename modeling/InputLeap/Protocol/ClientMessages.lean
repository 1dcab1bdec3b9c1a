import InputLeap.Protocol.FileTransfer
import InputLeap.Protocol.MessageCodes

/-! The messages of a client to its server. -/

namespace InputLeap.Protocol

open InputLeap.Lib ProtocolUtil

inductive ClientSend
  | info (x y w h mx my : BitVec 32)
  | grabClipboard (id : UInt8) (seqNum : BitVec 32)
  | clipboardChunk (chunk : ClipboardChunk)
  | fileChunk (chunk : FileChunk)
  | dragInfo (fileCount : BitVec 32) (data : List UInt8)
  | keepAlive
  | noop
  | bad
  | undimRequest
  deriving DecidableEq

namespace ClientSend

def code : ClientSend → MessageCode
  | info .. => .dInfo
  | grabClipboard .. => .cClipboard
  | clipboardChunk _ => .dClipboard
  | fileChunk _ => .dFileTransfer
  | dragInfo .. => .dDragInfo
  | keepAlive => .cKeepAlive
  | noop => .cNoop
  | bad => .eBad
  | undimRequest => .dUndimRequest

def args : ClientSend → List Arg
  | info x y w h mx my => [.int ⟨x⟩, .int ⟨y⟩, .int ⟨w⟩, .int ⟨h⟩, .int 0, .int ⟨mx⟩, .int ⟨my⟩]
  | grabClipboard id seqNum => [.int id.toUInt32, .int ⟨seqNum⟩]
  | clipboardChunk chunk =>
    [.int chunk.id.toUInt32, .int chunk.sequence, .int chunk.mark.toUInt32, .string (some chunk.data)]
  | fileChunk chunk => [.int chunk.mark.toUInt32, .string (some chunk.data)]
  | dragInfo fileCount data => [.int ⟨fileCount⟩, .string (some data)]
  | keepAlive | noop | bad | undimRequest => []

def written (m : ClientSend) : Option (List UInt8) := writef m.code.format m.args

def Sendable : ClientSend → Prop
  | clipboardChunk chunk => chunk.data.length ≤ maxStringLength
  | fileChunk chunk => chunk.data.length ≤ maxStringLength
  | dragInfo _ data => data.length ≤ maxStringLength
  | _ => True

def fields : ClientSend → List Field
  | info x y w h mx my =>
    [.int .two ⟨x⟩, .int .two ⟨y⟩, .int .two ⟨w⟩, .int .two ⟨h⟩, .int .two 0, .int .two ⟨mx⟩, .int .two ⟨my⟩]
  | grabClipboard id seqNum => [.int .one id.toUInt32, .int .four ⟨seqNum⟩]
  | clipboardChunk chunk => chunk.fields
  | fileChunk chunk => [.int .one chunk.mark.toUInt32, .string chunk.data]
  | dragInfo fileCount data => [.int .two ⟨fileCount⟩, .string data]
  | keepAlive | noop | bad | undimRequest => []

def packet (m : ClientSend) : Packet := ⟨m.code.bytes, m.fields⟩

section Packet

variable {m : ClientSend}

lemma fields_valid (h : m.Sendable) : ∀ f ∈ m.fields, f.Valid := by
  cases m with
  | clipboardChunk chunk => exact ClipboardChunk.fields_valid h
  | fileChunk chunk => exact List.forall_mem_cons.mpr ⟨trivial, List.forall_mem_singleton.mpr h⟩
  | dragInfo fileCount data => exact List.forall_mem_cons.mpr ⟨trivial, List.forall_mem_singleton.mpr h⟩
  | _ => simp [fields, Field.Valid]

lemma args_eq (m : ClientSend) : m.args = m.fields.flatMap Field.args := by
  cases m <;> rfl

lemma body_eq (m : ClientSend) : m.code.body = m.fields.flatMap Field.format := by
  cases m <;> rfl

lemma string_last (m : ClientSend) : StringLast (m.fields.map Field.item) := by
  cases m <;> simp [fields, ClipboardChunk.fields, StringLast, Field.item]

lemma bytes_length_le (h : m.Sendable) : m.packet.bytes.length ≤ maxMessageLength := by
  have hcode : m.code.bytes.length = 4 := m.code.bytes_length
  have hbytes : m.packet.bytes.length = m.code.bytes.length + (m.fields.flatMap Field.bytes).length :=
    List.length_append
  rw [hbytes, hcode, maxMessageLength]
  cases m with
  | clipboardChunk chunk =>
    simp only [Sendable, maxStringLength] at h
    simp [fields, ClipboardChunk.fields, Field.bytes, Width.toNat]
    omega
  | fileChunk chunk =>
    simp only [Sendable, maxStringLength] at h
    simp [fields, Field.bytes, Width.toNat]
    omega
  | dragInfo fileCount data =>
    simp only [Sendable, maxStringLength] at h
    simp [fields, Field.bytes, Width.toNat]
    omega
  | _ => simp [fields, Field.bytes, Width.toNat]

lemma packet_wellFormed (h : m.Sendable) : m.packet.WellFormed := ⟨m.code.bytes_length, fields_valid h, bytes_length_le h⟩

lemma written_eq (h : m.Sendable) : m.written = some m.packet.bytes := by
  have hlt : m.packet.bytes.length < 2 ^ 32 := (bytes_length_le h).trans_lt (by decide)
  rw [written, args_eq, ← MessageCode.format_eq, body_eq]
  exact m.code.writef_fields (fields_valid h) (string_last m) hlt

end Packet

end ClientSend

end InputLeap.Protocol
