import InputLeap.Protocol.ClientMessages
import InputLeap.Protocol.FileAssembly
import InputLeap.Protocol.Told
import InputLeap.Server.ClientInfo

/-! The proxy of a client at a server, message by message. The limit of the clipboards and the file that is being
received are those of the server, and of all of its clients. -/

namespace InputLeap

open Io Protocol Protocol.ProtocolUtil

/-- The position that is kept: the one in the message if it is on the screen. -/
def InfoMessage.position (m : InfoMessage) : Position :=
  if m.shape.contains m.cursor then m.cursor
  else (storeInt16 (m.x.toInt + m.w.toInt / 2), storeInt16 (m.y.toInt + m.h.toInt / 2))

structure ClientProxy1_6 where
  /-- `m_parser` is `parseHandshakeMessage`. -/
  handshake : Bool
  shape : DisplayRect
  cursor : Position
  clipboard : Assembly
  maximumClipboardSize : ℕ
  file : FileAssembly

namespace ClientProxy1_6

/-- What the proxy asks of the server, of its timers and of the client. -/
inductive Effect
  | sendInfoAck
  | ready
  | shapeChanged
  | clipboardGrabbed (id : UInt8) (sequenceNumber : UInt32)
  /-- With the data that is stored for the clipboard. -/
  | clipboardChanged (id : UInt8) (sequenceNumber : UInt32) (data : List UInt8)
  | fileReceiveCompleted (data : List UInt8)
  | dragInfoReceived (fileNum : ℕ) (content : List UInt8)
  | switchToScreen
  | addHeartbeatTimer
  | resetHeartbeatTimer
  | disconnect
  deriving DecidableEq

def new (maximumClipboardSize : ℕ) (file : FileAssembly) : ClientProxy1_6 where
  handshake := true
  shape := ⟨0, 0, 0, 0⟩
  cursor := (0, 0)
  clipboard := .idle
  maximumClipboardSize := maximumClipboardSize
  file := file

def does (s : ClientProxy1_6) (effects : List Effect) : Reaction ClientProxy1_6 Effect := ⟨s, effects, .goOn⟩

/-- The parser has returned `false`. -/
def disconnect (s : ClientProxy1_6) : Reaction ClientProxy1_6 Effect := ⟨s, [.disconnect], .leave⟩

def uses (s : ClientProxy1_6) : Reaction ClientProxy1_6 Effect := ⟨s, [], .undefined⟩

def nothing (s : ClientProxy1_6) : ClientProxy1_6 × List Effect := (s, [])

section Messages

def infoMessage? : List Stored → Option InfoMessage
  | [.int x, .int y, .int w, .int h, .int dummy1, .int mx, .int my] =>
    some ⟨.ofNat x, .ofNat y, .ofNat w, .ofNat h, .ofNat dummy1, .ofNat mx, .ofNat my⟩
  | _ => none

def takeInfo (s : ClientProxy1_6) (m : InfoMessage) (effects : List Effect) : Reaction ClientProxy1_6 Effect :=
  if m.Accepted then { s with shape := m.shape, cursor := m.position }.does (.sendInfoAck :: effects) else s.disconnect

/-- `recvInfo`, and what the parsers do if it succeeds. -/
def recvInfo (effects : List Effect) (s : ClientProxy1_6) (v : Values) : Reaction ClientProxy1_6 Effect :=
  if v.ok then
    match infoMessage? v.stored with
    | some m => s.takeInfo m effects
    | none => s.uses
  else s.disconnect

def recvFirstInfo (s : ClientProxy1_6) (v : Values) : Reaction ClientProxy1_6 Effect :=
  { s with handshake := false }.recvInfo [.ready, .addHeartbeatTimer] v

def recvGrabClipboard (s : ClientProxy1_6) (v : Values) : Reaction ClientProxy1_6 Effect :=
  if v.ok then
    match v.stored with
    | [.int id, .int seqNum] =>
      if kClipboardEnd ≤ id then s.disconnect else s.does [.clipboardGrabbed id.toUInt8 seqNum.toUInt32]
    | _ => s.uses
  else s.disconnect

def takeChunk (uninit : UInt64) (s : ClientProxy1_6) (chunk : ClipboardChunk) : Reaction ClientProxy1_6 Effect :=
  let (a, received) := ClipboardChunk.accept s.maximumClipboardSize uninit s.clipboard chunk
  if received = .finish then
    { s with clipboard := { a with dataCached := [] } }.does [.clipboardChanged chunk.id chunk.sequence a.dataCached]
  else { s with clipboard := a }.does []

def recvClipboard (uninit : UInt64) (s : ClientProxy1_6) (v : Values) : Reaction ClientProxy1_6 Effect :=
  if v.ok then
    match ClipboardChunk.ofStored v.stored with
    | some chunk => s.takeChunk uninit chunk
    | none => s.uses
  else { s with clipboard := .idle }.does []

def takeFileChunk (uninit : UInt64) (s : ClientProxy1_6) (chunk : FileChunk) : Reaction ClientProxy1_6 Effect :=
  let (a, received) := FileChunk.assemble uninit s.file chunk
  { s with file := a }.does (if received = DataReceived.finish then [.fileReceiveCompleted a.received] else [])

def fileChunkReceived (uninit : UInt64) (s : ClientProxy1_6) (v : Values) : Reaction ClientProxy1_6 Effect :=
  if v.ok then
    match FileChunk.ofStored v.stored with
    | some chunk => s.takeFileChunk uninit chunk
    | none => s.uses
  else s.does []

def dragInfoReceived (s : ClientProxy1_6) (v : Values) : Reaction ClientProxy1_6 Effect :=
  match v.stored with
  | [.int fileNum, .string content] => s.does [.dragInfoReceived fileNum content]
  | [.int fileNum] => s.does [.dragInfoReceived fileNum []]
  | _ => s.does [.dragInfoReceived 0 []]

end Messages

section Parser

def handshakeCodes : List MessageCode := [.cNoop, .dInfo]

def messageCodes : List MessageCode :=
  [.dFileTransfer, .dDragInfo, .cKeepAlive, .dInfo, .cNoop, .cClipboard, .dClipboard, .dUndimRequest]

def parseHandshakeMessage (code : List UInt8) : Handler ClientProxy1_6 Effect :=
  match MessageCode.compared handshakeCodes code with
  | some .cNoop => .plain fun s => s.does []
  | some .dInfo => .reads nothing MessageCode.dInfo.body recvFirstInfo
  | _ => .plain disconnect

def parseMessage (uninit : UInt64) (code : List UInt8) : Handler ClientProxy1_6 Effect :=
  match MessageCode.compared messageCodes code with
  | some .dFileTransfer => .reads nothing MessageCode.dFileTransfer.body (fileChunkReceived uninit)
  | some .dDragInfo => .reads nothing MessageCode.dDragInfo.body dragInfoReceived
  | some .cKeepAlive => .plain fun s => s.does [.resetHeartbeatTimer]
  | some .dInfo => .reads nothing MessageCode.dInfo.body (recvInfo [.shapeChanged])
  | some .cNoop => .plain fun s => s.does []
  | some .cClipboard => .reads nothing MessageCode.cClipboard.body recvGrabClipboard
  | some .dClipboard => .reads nothing MessageCode.dClipboard.body (recvClipboard uninit)
  | some .dUndimRequest => .plain fun s => s.does [.switchToScreen]
  | _ => .plain disconnect

/-- `handle_data`. -/
def endpoint (uninit : UInt64) : Endpoint ClientProxy1_6 Effect where
  parse s code := if s.handshake then parseHandshakeMessage code else parseMessage uninit code
  incomplete s := (s, [.disconnect])
  badClient s := (s, [.disconnect])
  finish s := (s, [.resetHeartbeatTimer])

end Parser

section Told

/-- What goes to others, apart from the timer that is reset whenever there is input. -/
def apart (effects : List Effect) : List Effect := effects.filter fun e => e ≠ .resetHeartbeatTimer

def sentInfo (x y w h mx my : BitVec 32) : InfoMessage :=
  ⟨.ofBitVec (x.setWidth 16), .ofBitVec (y.setWidth 16), .ofBitVec (w.setWidth 16), .ofBitVec (h.setWidth 16), 0,
    .ofBitVec (mx.setWidth 16), .ofBitVec (my.setWidth 16)⟩

/-- What a message comes to before the client has said what its screen is like. -/
def toldInHandshake (s : ClientProxy1_6) : ClientSend → Reaction ClientProxy1_6 Effect
  | .noop => s.does []
  | .info x y w h mx my => { s with handshake := false }.takeInfo (sentInfo x y w h mx my) [.ready, .addHeartbeatTimer]
  | _ => s.disconnect

def toldInSession (uninit : UInt64) (s : ClientProxy1_6) : ClientSend → Reaction ClientProxy1_6 Effect
  | .info x y w h mx my => s.takeInfo (sentInfo x y w h mx my) [.shapeChanged]
  | .grabClipboard id seqNum =>
    if id.toNat < kClipboardEnd then s.does [.clipboardGrabbed id ⟨seqNum⟩] else s.disconnect
  | .clipboardChunk chunk => s.takeChunk uninit chunk
  | .fileChunk chunk => s.takeFileChunk uninit chunk
  | .dragInfo fileCount data => s.does [.dragInfoReceived (fileCount.setWidth 16).toNat data]
  | .keepAlive | .noop => s.does []
  | .undimRequest => s.does [.switchToScreen]
  | .bad => s.disconnect

def told (uninit : UInt64) (s : ClientProxy1_6) (m : ClientSend) : Reaction ClientProxy1_6 Effect :=
  if s.handshake then s.toldInHandshake m else s.toldInSession uninit m

inductive Own
  | reload (maximumClipboardSize : ℕ)
  | otherFile (file : FileAssembly)

def own (o : Own) (s : ClientProxy1_6) : ClientProxy1_6 :=
  match o with
  | .reload maximumClipboardSize => { s with maximumClipboardSize := maximumClipboardSize }
  | .otherFile file => { s with file := file }

end Told

section Takes

variable (uninit : UInt64)

lemma handshake_takes (m : ClientSend) : (parseHandshakeMessage m.code.bytes).Takes m.packet := by
  rw [parseHandshakeMessage, MessageCode.compared_bytes]
  cases m with
  | info x y w h mx my => exact rfl
  | noop => exact .inl rfl
  | _ => exact .inr fun s => by simp [disconnect]

lemma session_takes (m : ClientSend) : (parseMessage uninit m.code.bytes).Takes m.packet := by
  rw [parseMessage, MessageCode.compared_bytes]
  cases m with
  | keepAlive => exact .inl rfl
  | noop => exact .inl rfl
  | undimRequest => exact .inl rfl
  | bad => exact .inr fun s => by simp [disconnect]
  | _ => exact rfl

lemma understands {m : ClientSend} (h : m.Sendable) : (endpoint uninit).Understands m.packet := by
  refine ⟨ClientSend.packet_wellFormed h, fun s => ?_⟩
  change (if s.handshake then parseHandshakeMessage m.code.bytes else parseMessage uninit m.code.bytes).Takes m.packet
  split_ifs
  · exact handshake_takes m
  · exact session_takes uninit m

end Takes

section Take

variable (uninit : UInt64) (s : ClientProxy1_6) (ready : Bool)

abbrev Alike (a b : Reaction ClientProxy1_6 Effect) : Prop := Same (fun e => e ≠ .resetHeartbeatTimer) Eq a b

lemma ofNat_stored (v : BitVec 32) :
    Int16.ofNat ((⟨v⟩ : UInt32).toNat % 256 ^ Width.two.toNat) = .ofBitVec (v.setWidth 16) := by
  have hlow : BitVec.ofNat 16 ((⟨v⟩ : UInt32).toNat % 256 ^ Width.two.toNat) = v.setWidth 16 := by
    apply BitVec.eq_of_toNat_eq
    simp [Width.toNat]
  exact congrArg Int16.ofBitVec hlow

lemma infoMessage_stored (x y w h mx my : BitVec 32) :
    infoMessage? ((ClientSend.info x y w h mx my).fields.flatMap Field.stored) = some (sentInfo x y w h mx my) := by
  rw [sentInfo, ← ofNat_stored, ← ofNat_stored, ← ofNat_stored, ← ofNat_stored, ← ofNat_stored, ← ofNat_stored]
  rfl

lemma takeInfo_alike (m : InfoMessage) {effects : List Effect} (h : apart effects = effects) :
    Alike (s.takeInfo m effects) (s.takeInfo m effects) := by
  rw [takeInfo]
  split_ifs
  · exact ⟨rfl, congrArg (Effect.sendInfoAck :: ·) h, rfl⟩
  · exact ⟨rfl, rfl, rfl⟩

lemma recvInfo_alike (x y w h mx my : BitVec 32) {effects : List Effect} (heffects : apart effects = effects) :
    Alike (s.recvInfo effects ⟨true, (ClientSend.info x y w h mx my).fields.flatMap Field.stored, ready⟩)
      (s.takeInfo (sentInfo x y w h mx my) effects) := by
  rw [recvInfo, if_pos rfl]
  simp only [infoMessage_stored]
  exact s.takeInfo_alike _ heffects

lemma takeChunk_alike (chunk : ClipboardChunk) : Alike (s.takeChunk uninit chunk) (s.takeChunk uninit chunk) := by
  rw [takeChunk]
  dsimp only
  split_ifs
  · exact ⟨rfl, rfl, rfl⟩
  · exact ⟨rfl, rfl, rfl⟩

lemma takeFileChunk_alike (chunk : FileChunk) :
    Alike (s.takeFileChunk uninit chunk) (s.takeFileChunk uninit chunk) := by
  rw [takeFileChunk]
  dsimp only
  split_ifs
  · exact ⟨rfl, rfl, rfl⟩
  · exact ⟨rfl, rfl, rfl⟩

lemma take_handshake (m : ClientSend) :
    Alike ((parseHandshakeMessage m.code.bytes).take s m.packet ready) (s.toldInHandshake m) := by
  rw [parseHandshakeMessage, MessageCode.compared_bytes]
  cases m with
  | noop => exact ⟨rfl, rfl, rfl⟩
  | info x y w h mx my => exact (recvInfo_alike _ ready x y w h mx my rfl).after rfl
  | _ => exact ⟨rfl, rfl, rfl⟩

lemma take_session (m : ClientSend) :
    Alike ((parseMessage uninit m.code.bytes).take s m.packet ready) (s.toldInSession uninit m) := by
  rw [parseMessage, MessageCode.compared_bytes]
  cases m with
  | info x y w h mx my => exact (recvInfo_alike _ ready x y w h mx my rfl).after rfl
  | grabClipboard id seqNum =>
    have hid : id.toUInt32.toNat % 256 ^ Width.one.toNat = id.toNat := by
      simp [Width.toNat, Nat.mod_eq_of_lt id.toNat_lt]
    have hseq : ((⟨seqNum⟩ : UInt32).toNat % 256 ^ Width.four.toNat).toUInt32 = ⟨seqNum⟩ := by
      apply UInt32.toBitVec_inj.mp
      apply BitVec.eq_of_toNat_eq
      simp [seqNum.isLt, Width.toNat]
    change Alike (Reaction.after [] (if kClipboardEnd ≤ id.toUInt32.toNat % 256 ^ Width.one.toNat then s.disconnect
      else s.does [.clipboardGrabbed (id.toUInt32.toNat % 256 ^ Width.one.toNat).toUInt8
        ((⟨seqNum⟩ : UInt32).toNat % 256 ^ Width.four.toNat).toUInt32])) _
    rw [hid, hseq, toldInSession]
    by_cases hlt : id.toNat < kClipboardEnd
    · rw [if_pos hlt, if_neg (Nat.not_le.mpr hlt)]
      exact ⟨rfl, by simp [does], rfl⟩
    · rw [if_neg hlt, if_pos (Nat.not_lt.mp hlt)]
      exact ⟨rfl, rfl, rfl⟩
  | clipboardChunk chunk =>
    change Alike (Reaction.after [] (match ClipboardChunk.ofStored (chunk.fields.flatMap Field.stored) with
      | some chunk => s.takeChunk uninit chunk
      | none => s.uses)) (s.takeChunk uninit chunk)
    rw [ClipboardChunk.ofStored_fields]
    exact (s.takeChunk_alike uninit chunk).after rfl
  | fileChunk chunk =>
    change Alike (Reaction.after [] (match FileChunk.ofStored [.int (chunk.mark.toUInt32.toNat % 256 ^ 1), .string chunk.data] with
      | some chunk => s.takeFileChunk uninit chunk
      | none => s.uses)) (s.takeFileChunk uninit chunk)
    rw [FileChunk.ofStored_fields]
    exact (s.takeFileChunk_alike uninit chunk).after rfl
  | dragInfo fileCount data =>
    have hcount : (⟨fileCount⟩ : UInt32).toNat % 256 ^ Width.two.toNat = (fileCount.setWidth 16).toNat := by
      simp [Width.toNat]
    refine ⟨rfl, ?_, rfl⟩
    rw [toldInSession, ← hcount]
    rfl
  | _ => exact ⟨rfl, rfl, rfl⟩

lemma take_told (m : ClientSend) :
    Alike (((endpoint uninit).parse s m.code.bytes).take s m.packet ready) (s.told uninit m) := by
  change Alike ((if s.handshake then parseHandshakeMessage m.code.bytes else parseMessage uninit m.code.bytes).take s
    m.packet ready) _
  rw [told]
  split_ifs
  · exact take_handshake s ready m
  · exact take_session uninit s ready m

lemma means : (endpoint uninit).Means ClientSend.packet own (fun e => e ≠ .resetHeartbeatTimer) (told uninit) own Eq where
  take {s _} h ready m := h ▸ take_told uninit s ready m
  finish h := ⟨h, rfl⟩
  own h o := congrArg (ClientProxy1_6.own o) h

end Take

section Delivery

variable (uninit : UInt64) {before : List (List UInt8)} {sends : List ClientSend} {arrived : List UInt8}
  {l : Link ClientProxy1_6 Effect} {steps : List (LinkStep Own)}

def toldAll (s : ClientProxy1_6) (items : List (ClientSend ⊕ Own)) : Reaction ClientProxy1_6 Effect :=
  Protocol.toldAll (told uninit) own s items

/-- However the bytes that a client writes are cut, whenever the queue gets to its events and whatever the server and its other
clients do in between, the server is told what the messages say, in their order and once. When no event is left, that
goes for every message that has arrived. -/
theorem run_toldBetween (hsends : ∀ m ∈ sends, m.Sendable) (hbefore : ∀ q ∈ before, q ≠ [] ∧ q.length ≤ maxMessageLength)
    (hstart : l.At before (sends.map ClientSend.packet) arrived []) (hl : l.connected = true ∧ l.effects = [])
    (hpre : arrived ++ arrivedIn steps <+: wire (packets before (sends.map ClientSend.packet)))
    (hfits : l.Fits (endpoint uninit) own steps) :
    (∀ m ∈ sends, m.written = some m.packet.bytes) ∧ ∃ items : List (ClientSend ⊕ Own),
      messagesOf items <+: sends ∧ ownsOf items <+: steps.filterMap LinkStep.own? ∧
      apart (l.run (endpoint uninit) own steps).effects = (toldAll uninit l.state items).effects ∧
      ((l.run (endpoint uninit) own steps).connected = true ↔ (toldAll uninit l.state items).next = .goOn) ∧
      ((l.run (endpoint uninit) own steps).connected = true → ownsOf items = steps.filterMap LinkStep.own? ∧
        (l.run (endpoint uninit) own steps).state = (toldAll uninit l.state items).state ∧
        ((l.run (endpoint uninit) own steps).inputReady = 0 → ∀ n ≤ sends.length,
          wire (packets before ((sends.take n).map ClientSend.packet)) <+: arrived ++ arrivedIn steps →
            n ≤ (messagesOf items).length)) :=
  ⟨fun m hm => ClientSend.written_eq (hsends m hm),
    Link.run_told (means uninit) (fun _ hm => understands uninit (hsends _ hm)) hbefore hstart hl hpre hfits rfl⟩

def opened (maximumClipboardSize : ℕ) : Link ClientProxy1_6 Effect where
  filter := .new
  inputReady := 0
  state := .new maximumClipboardSize {}
  connected := true
  effects := []

lemma opened_at (maximumClipboardSize : ℕ) (messages : List Packet) : (opened maximumClipboardSize).At [] messages [] [] where
  framed := by
    rw [opened, PacketStreamFilter.framer_new]
    exact Framer.new_framed
  room := (by decide : (.new : PacketStreamFilter StreamBuffer).buffer.stored < 2 ^ 32)
  announced := (by decide : (.new : PacketStreamFilter StreamBuffer).isReady = true → 0 < 0)

def infoSends : List ClientSend := [.info 0 0 800 600 10 20, .keepAlive, .grabClipboard 1 7]

def infoSteps : List (LinkStep Own) :=
  [.input [[0, 0, 0, 18, 68, 73, 78, 70, 0, 0, 0, 0, 3, 32, 2, 88, 0, 0, 0, 10, 0, 20, 0, 0]], .dispatch, .own (.reload 0),
    .input [[0, 4, 67, 65, 76, 86, 0, 0, 0, 9, 67, 67, 76, 80, 1, 0, 0, 0, 7]], .dispatch]

theorem run_toldBetween_info :
    ∃ items : List (ClientSend ⊕ Own), messagesOf items = infoSends ∧ ownsOf items = [.reload 0] ∧
      apart ((opened 100).run (endpoint 0) own infoSteps).effects =
        (toldAll 0 (.new 100 {}) items).effects := by
  have hsends : ∀ m ∈ infoSends, m.Sendable := by
    simp [infoSends, ClientSend.Sendable]
  have hwire : arrivedIn infoSteps = wire (packets [] (infoSends.map ClientSend.packet)) := by decide
  have hfits : (opened 100).Fits (endpoint 0) own infoSteps :=
    ⟨by decide, by decide, by decide, by decide, by decide, trivial⟩
  obtain ⟨-, items, hmessages, -, heffects, -, hall⟩ := run_toldBetween 0 hsends (by simp) (opened_at 100 _) ⟨rfl, rfl⟩
    (hwire ▸ List.prefix_refl _) hfits
  obtain ⟨howns, -, hnone⟩ := hall (by decide)
  have hle : infoSends.length ≤ (messagesOf items).length := hnone (by decide) _ le_rfl (by
    rw [List.take_length, List.nil_append, hwire])
  exact ⟨items, hmessages.eq_of_length_le hle, howns, heffects⟩

end Delivery

end ClientProxy1_6

end InputLeap
